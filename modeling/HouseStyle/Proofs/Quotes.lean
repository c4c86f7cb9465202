/-
HouseStyle.Proofs.Quotes — strings that are put into other quotes.

A string in single quotes is reported, and its fix is the same string in double quotes: a backslash
goes in front of every double quote inside. The lexer reads the fix as one string with the same
content if no double quote of the string has a backslash in front of it already, and only then
(`quote_fix_iff`). Otherwise that backslash takes the new one with it, and the string ends at the
quote (`escaped_quote_ends_fix`).

## How the proof goes

The lexer reads a string in units: a backslash with the character behind it, or a single character
(`units`). A string is a row of units between two quotes, none of which is the quote itself, a line
end or a lone backslash (`Enclosable`), and the reader of strings stops at the first quote that
is a unit (`stringBody_of_enclosable`). Where no double quote is escaped, the fix changes units one
by one (`units_escapeDoubleQuotes`). Where one is, the reader stops before the end of the fix
(`rest_stringBody_ne_nil`).
-/
import HouseStyle.Proofs.LineEnds
import HouseStyle.Proofs.TokenPlaces
import HouseStyle.Rule.Values

namespace HouseStyle.Token

open Text (doubleQuote singleQuote)

/-! ## 1. Units -/

/-- The text in units: a backslash with the character behind it, or else a single character. -/
def units : Text → List Text
  | [] => []
  | c :: rest =>
    if c == '\\' then
      match rest with
      | [] => [[c]]
      | d :: more => [c, d] :: units more
    else [c] :: units rest

@[simp] theorem units_nil : units [] = [] := rfl

@[simp] theorem units_backslash : units ['\\'] = [['\\']] := rfl

@[simp] theorem units_escape (d : Char) (t : Text) :
    units ('\\' :: d :: t) = ['\\', d] :: units t := rfl

theorem units_cons {c : Char} (hc : c ≠ '\\') (t : Text) : units (c :: t) = [c] :: units t := by
  rw [units.eq_def]
  simp [hc]

/-- What holds of the empty text and of a lone backslash, and is kept by a unit in front, holds of
every text. -/
theorem unitInduction {motive : Text → Prop} (nil : motive []) (lone : motive ['\\'])
    (escape : ∀ d t, motive t → motive ('\\' :: d :: t))
    (plain : ∀ c t, c ≠ '\\' → motive t → motive (c :: t)) (t : Text) : motive t := by
  fun_induction units t with
  | case1 => exact nil
  | case2 c hc =>
    obtain rfl := eq_of_beq hc
    exact lone
  | case3 c hc d more ih =>
    obtain rfl := eq_of_beq hc
    exact escape d more ih
  | case4 c rest hc ih => exact plain c rest (by simpa using hc) ih

def bareQuote (unit : Text) : Text :=
  match unit with
  | ['\\', d] => if isQuote d then [d] else unit
  | _ => unit

/-- The text without the backslash in front of every escaped quote. -/
def withBareQuotes (t : Text) : Text := (units t).flatMap bareQuote

/-! ## 2. Strings as rows of units -/

/-- The text can stand between two such quotes: none of its units is the quote, a line end or a lone
backslash. -/
def Enclosable (quote : Char) (t : Text) : Prop :=
  ∀ c, [c] ∈ units t → c ≠ quote ∧ isLineEnd c = false ∧ c ≠ '\\'

variable {quote c : Char} {t content : Text}

/-- What a backslash takes with it does no harm inside quotes. -/
theorem enclosable_escape_iff {d : Char} :
    Enclosable quote ('\\' :: d :: t) ↔ Enclosable quote t := by
  simp [Enclosable]

theorem enclosable_cons_iff (hc : c ≠ '\\') :
    Enclosable quote (c :: t) ↔ (c ≠ quote ∧ isLineEnd c = false) ∧ Enclosable quote t := by
  simp [Enclosable, units_cons hc, hc]

theorem ne_backslash_of_isQuote (hquote : isQuote quote = true) : '\\' ≠ quote := by
  rintro rfl
  exact absurd hquote (by decide)

theorem stringBody_quote (quote : Char) (t : Text) :
    stringBody quote (quote :: t) = (⟨[quote], t⟩, true) := by
  rw [stringBody.eq_def]
  simp

/-- Inside a string a backslash takes the next character with it. -/
theorem stringBody_escape (hquote : isQuote quote = true) (d : Char) (t : Text) :
    stringBody quote ('\\' :: d :: t) =
      ((stringBody quote t).1.behind ['\\', d], (stringBody quote t).2) := by
  have hend : isLineEnd '\\' = false := by decide
  rw [stringBody.eq_def]
  simp [ne_backslash_of_isQuote hquote, hend]

theorem stringBody_cons (hne : c ≠ quote) (hend : isLineEnd c = false) (hc : c ≠ '\\') (t : Text) :
    stringBody quote (c :: t) =
      ((stringBody quote t).1.behind [c], (stringBody quote t).2) := by
  rw [stringBody.eq_def]
  simp [hne, hend, hc]

/-- The reader of strings takes what can stand between quotes, and the quote behind it. -/
theorem stringBody_of_enclosable (hquote : isQuote quote = true) (h : Enclosable quote content)
    (rest : Text) :
    stringBody quote (content ++ quote :: rest) = (⟨content ++ [quote], rest⟩, true) := by
  induction content using unitInduction with
  | nil => exact stringBody_quote quote rest
  | lone => exact absurd rfl (h '\\' (by simp)).2.2
  | escape d t ih =>
    rw [List.cons_append, List.cons_append, stringBody_escape hquote,
      ih (enclosable_escape_iff.1 h)]
    rfl
  | plain c t hc ih =>
    obtain ⟨⟨hne, hend⟩, ht⟩ := (enclosable_cons_iff hc).1 h
    rw [List.cons_append, stringBody_cons hne hend hc, ih ht]
    rfl

/-- A string that is closed has something between its quotes that can stand there. -/
theorem exists_enclosable (hquote : isQuote quote = true) (h : (stringBody quote t).2 = true) :
    ∃ content, (stringBody quote t).1.taken = content ++ [quote] ∧ Enclosable quote content := by
  induction t using unitInduction with
  | nil => cases h
  | lone =>
    have hend : isLineEnd '\\' = false := by decide
    rw [stringBody.eq_def] at h
    simp [ne_backslash_of_isQuote hquote, hend] at h
  | escape d t ih =>
    rw [stringBody_escape hquote] at h ⊢
    obtain ⟨content, htaken, hcontent⟩ := ih h
    exact ⟨'\\' :: d :: content, by simp [Cut.behind, htaken], enclosable_escape_iff.2 hcontent⟩
  | plain c t hc ih =>
    by_cases hne : c = quote
    · subst hne
      exact ⟨[], by rw [stringBody_quote]; rfl, by simp [Enclosable]⟩
    · cases hend : isLineEnd c with
      | true =>
        rw [stringBody_lineEnd hquote hend] at h
        cases h
      | false =>
        rw [stringBody_cons hne hend hc] at h ⊢
        obtain ⟨content, htaken, hcontent⟩ := ih h
        exact ⟨c :: content, by simp [Cut.behind, htaken],
          (enclosable_cons_iff hc).2 ⟨⟨hne, hend⟩, hcontent⟩⟩

/-- A string of a text is something that can stand between two quotes, between them. -/
theorem exists_content {text : Text} {t : Token} (ht : t ∈ tokenize text)
    (hkind : t.kind = .string) :
    ∃ quote content, t.lexeme = quote :: (content ++ [quote]) ∧ Enclosable quote content := by
  obtain ⟨c, rest, place, rfl⟩ := exists_next_of_mem ht
  have hquote : isQuote c = true := (first_of_next _ _).2 hkind
  have hclosed : (stringBody c rest).2 = true := by
    dsimp only at hkind
    rw [next_of_isQuote hquote] at hkind
    simpa [stringTail] using hkind
  obtain ⟨content, htaken, hcontent⟩ := exists_enclosable hquote hclosed
  refine ⟨c, content, ?_, hcontent⟩
  dsimp only
  rw [next_of_isQuote hquote, ← htaken]
  rfl

/-! ## 3. A backslash in front of every double quote -/

def escapeDoubleQuotes (t : Text) : Text :=
  Text.replaceChar doubleQuote ['\\', doubleQuote] t

@[simp] theorem escapeDoubleQuotes_nil : escapeDoubleQuotes [] = [] := rfl

@[simp] theorem escapeDoubleQuotes_quote (t : Text) :
    escapeDoubleQuotes (doubleQuote :: t) = '\\' :: doubleQuote :: escapeDoubleQuotes t := rfl

theorem escapeDoubleQuotes_cons (hc : c ≠ doubleQuote) (t : Text) :
    escapeDoubleQuotes (c :: t) = c :: escapeDoubleQuotes t := by
  simp [escapeDoubleQuotes, Text.replaceChar, hc]

@[simp] theorem escapeDoubleQuotes_backslash (t : Text) :
    escapeDoubleQuotes ('\\' :: t) = '\\' :: escapeDoubleQuotes t :=
  escapeDoubleQuotes_cons (by decide) t

/-- The backslash that a double quote gets. -/
def escapeUnit (unit : Text) : Text :=
  if unit = [doubleQuote] then ['\\', doubleQuote] else unit

/-- Where no double quote is escaped, those that are units become escaped ones and nothing else
changes. -/
theorem units_escapeDoubleQuotes (h : ['\\', doubleQuote] ∉ units t) :
    units (escapeDoubleQuotes t) = (units t).map escapeUnit := by
  induction t using unitInduction with
  | nil => rfl
  | lone => rfl
  | escape d t ih =>
    rw [units_escape, List.mem_cons, not_or] at h
    have hd : d ≠ doubleQuote := by
      rintro rfl
      exact h.1 rfl
    rw [escapeDoubleQuotes_backslash, escapeDoubleQuotes_cons hd, units_escape, units_escape,
      ih h.2]
    rfl
  | plain c t hc ih =>
    rw [units_cons hc, List.mem_cons, not_or] at h
    by_cases hquote : c = doubleQuote
    · subst hquote
      rw [escapeDoubleQuotes_quote, units_escape, units_cons hc, ih h.2]
      rfl
    · rw [escapeDoubleQuotes_cons hquote, units_cons hc, units_cons hc, ih h.2, List.map_cons,
        escapeUnit, if_neg (by simpa using hquote)]

/-- What could stand between other quotes can then stand between double quotes. -/
theorem enclosable_escapeDoubleQuotes (h : ['\\', doubleQuote] ∉ units t)
    (ht : Enclosable quote t) : Enclosable doubleQuote (escapeDoubleQuotes t) := by
  intro c hc
  rw [units_escapeDoubleQuotes h] at hc
  obtain ⟨unit, hunit, he⟩ := List.mem_map.1 hc
  unfold escapeUnit at he
  split at he
  · simp at he
  · rename_i hne
    subst he
    exact ⟨by simpa using hne, (ht c hunit).2⟩

/-- The content stays the same, the backslashes in front of quotes apart. -/
theorem withBareQuotes_escapeDoubleQuotes (h : ['\\', doubleQuote] ∉ units t) :
    withBareQuotes (escapeDoubleQuotes t) = withBareQuotes t := by
  have hunit (unit : Text) : bareQuote (escapeUnit unit) = bareQuote unit := by
    unfold escapeUnit
    split
    · rename_i he
      subst he
      rfl
    · rfl
  simp [withBareQuotes, units_escapeDoubleQuotes h, List.flatMap_map, hunit]

/-- Where a double quote is escaped the reader of strings stops before the end: the backslash that
the quote gets is taken by the one that it has. -/
theorem rest_stringBody_ne_nil (h : ['\\', doubleQuote] ∈ units t) :
    (stringBody doubleQuote (escapeDoubleQuotes t ++ [doubleQuote])).1.rest ≠ [] := by
  have hquote : isQuote doubleQuote = true := by decide
  induction t using unitInduction with
  | nil => cases h
  | lone => simp at h
  | escape d t ih =>
    by_cases hd : d = doubleQuote
    · subst hd
      simp [stringBody_escape hquote, stringBody_quote, Cut.behind]
    · have ht : ['\\', doubleQuote] ∈ units t := by simpa [Ne.symm hd] using h
      simpa [escapeDoubleQuotes_cons hd, stringBody_escape hquote, Cut.behind] using ih ht
  | plain c t hc ih =>
    have ht : ['\\', doubleQuote] ∈ units t := by simpa [units_cons hc] using h
    by_cases hd : c = doubleQuote
    · subst hd
      simpa [stringBody_escape hquote, Cut.behind] using ih ht
    · rw [escapeDoubleQuotes_cons hd, List.cons_append]
      cases hend : isLineEnd c with
      | true => simp [stringBody_lineEnd hquote hend, Cut.nothing]
      | false => simpa [stringBody_cons hd hend hc, Cut.behind] using ih ht

/-! ## 4. The fix -/

/-- The text is one token, a string in double quotes with this between them. -/
def IsDoubleQuoted (t content : Text) : Prop :=
  t = doubleQuote :: (content ++ [doubleQuote]) ∧
    ∃ token, tokenize t = [token] ∧ token.kind = .string ∧ token.lexeme = t

/-- A text is one token if the first one leaves nothing. -/
theorem rest_next_of_singleton {token : Token} (h : tokenize (c :: t) = [token]) :
    (next c t).2.rest = [] := by
  rw [tokenize, streamFrom_cons, List.cons.injEq] at h
  cases hrest : (next c t).2.rest with
  | nil => rfl
  | cons d more => simp [hrest, streamFrom_cons] at h

/-- Quotes around a text that can stand between them make one string of it. -/
theorem isDoubleQuoted_of_enclosable (h : Enclosable doubleQuote content) :
    IsDoubleQuoted (doubleQuote :: (content ++ [doubleQuote])) content := by
  have hquote : isQuote doubleQuote = true := by decide
  have hnext : next doubleQuote (content ++ [doubleQuote]) =
      (.string, ⟨content ++ [doubleQuote], []⟩) := by
    rw [next_of_isQuote hquote, stringTail, stringBody_of_enclosable hquote h]
    rfl
  refine ⟨rfl, ⟨.string, doubleQuote :: (content ++ [doubleQuote]), {}⟩, ?_, rfl, rfl⟩
  rw [tokenize, streamFrom_cons, hnext, streamFrom_nil]

/-- The string in double quotes is one string with the same content if and only if no double quote
of it is escaped. -/
theorem exists_isDoubleQuoted_iff (ht : Enclosable quote t) :
    (∃ content, IsDoubleQuoted (doubleQuote :: (escapeDoubleQuotes t ++ [doubleQuote])) content ∧
        withBareQuotes content = withBareQuotes t) ↔
      ['\\', doubleQuote] ∉ units t := by
  constructor
  · rintro ⟨content, ⟨-, token, htoken, -⟩, -⟩ hescaped
    have hrest := rest_next_of_singleton htoken
    rw [next_of_isQuote (by decide)] at hrest
    exact rest_stringBody_ne_nil hescaped hrest
  · intro h
    exact ⟨_, isDoubleQuoted_of_enclosable (enclosable_escapeDoubleQuotes h ht),
      withBareQuotes_escapeDoubleQuotes h⟩

end HouseStyle.Token

namespace HouseStyle

open Token Values
open Text (doubleQuote singleQuote)

/-- The findings about quotes are those at the strings in single quotes. -/
theorem Values.mem_checkQuotes_iff {s : Stylesheet} {o : Options} {d : Diagnostic} :
    d ∈ checkQuotes s o ↔
      ∃ t ∈ s.tokens, t.kind = .string ∧ t.lexeme.head? = some singleQuote ∧
        d = s.finding .quoteStyle t.line t.column
          s!"String {t.lexeme.shown} should use double quotes."
          (some (doubleQuoted t.lexeme).shown) := by
  simp only [checkQuotes, List.mem_map, List.mem_filter, Bool.and_eq_true, beq_iff_eq, and_assoc]
  constructor
  · rintro ⟨t, ht, hkind, hhead, rfl⟩
    exact ⟨t, ht, hkind, hhead, rfl⟩
  · rintro ⟨t, ht, hkind, hhead, rfl⟩
    exact ⟨t, ht, hkind, hhead, rfl⟩

/-- **The fix of a string in single quotes is the same string in double quotes**, if and only if no
double quote in it is escaped. Every finding about quotes belongs to a string in single quotes; its
fix is read as a single token, which is a string in double quotes, and between the quotes stands
what stood there before, but for the backslashes in front of quotes, exactly if no unit of the
string is a backslash with a double quote. -/
theorem quote_fix_iff (file : String) (text : Text) (o : Options) :
    let s := (Stylesheet.ofText file text).1
    ∀ d ∈ checkQuotes s o, ∃ t ∈ s.tokens, ∃ content fix,
      d.line = t.line ∧ d.column = t.column ∧ t.kind = .string ∧
      t.lexeme = singleQuote :: (content ++ [singleQuote]) ∧ d.fix = some (Text.shown fix) ∧
      ((∃ content', IsDoubleQuoted fix content' ∧
          withBareQuotes content' = withBareQuotes content) ↔
        ['\\', doubleQuote] ∉ units content) := by
  intro s d hd
  obtain ⟨t, ht, hkind, hhead, rfl⟩ := mem_checkQuotes_iff.1 hd
  have hmem : t ∈ tokenize text := ht
  obtain ⟨quote, content, hlexeme, hcontent⟩ := exists_content hmem hkind
  obtain rfl : quote = singleQuote := by simpa [hlexeme] using hhead
  have hfix : doubleQuoted t.lexeme =
      doubleQuote :: (escapeDoubleQuotes content ++ [doubleQuote]) := by
    simp [doubleQuoted, hlexeme, escapeDoubleQuotes]
  refine ⟨t, ht, content, doubleQuoted t.lexeme, rfl, rfl, hkind, hlexeme, rfl, ?_⟩
  rw [hfix]
  exact exists_isDoubleQuoted_iff hcontent

/-- An escaped single quote keeps its backslash, and the double quotes get one. -/
theorem quote_fix_iff_mixed :
    let s := (Stylesheet.ofText "a.css" "$x: 'it\\'s \"x\"';".toList).1
    ∃ d ∈ checkQuotes s {}, ∃ fix content, d.fix = some (Text.shown fix) ∧
      fix = "\"it\\'s \\\"x\\\"\"".toList ∧ IsDoubleQuoted fix content ∧
      withBareQuotes content = "it's \"x\"".toList := by
  intro s
  obtain ⟨string, hstring, hkind, hlexeme⟩ : ∃ t ∈ s.tokens, t.kind = .string ∧
      t.lexeme = "'it\\'s \"x\"'".toList := by
    decide +kernel
  have honly : ∀ t ∈ s.tokens, t.kind = .string → t.lexeme = "'it\\'s \"x\"'".toList := by
    decide +kernel
  have hhead : string.lexeme.head? = some singleQuote := by
    rw [hlexeme]
    decide +kernel
  have hd := mem_checkQuotes_iff (o := {}).2 ⟨string, hstring, hkind, hhead, rfl⟩
  obtain ⟨t, ht, content, fix, -, -, htkind, htlexeme, hfix, hiff⟩ :=
    quote_fix_iff "a.css" _ {} _ hd
  obtain rfl : content = "it\\'s \"x\"".toList := by
    have htail := congrArg (fun lexeme : Text => lexeme.tail.dropLast)
      (htlexeme.symm.trans (honly t ht htkind))
    rw [List.tail_cons, List.dropLast_concat] at htail
    rw [htail]
    decide +kernel
  have hescape : ['\\', doubleQuote] ∉ units "it\\'s \"x\"".toList := by decide +kernel
  obtain ⟨content', hquoted, hbare⟩ := hiff.2 hescape
  refine ⟨_, hd, fix, content', hfix, ?_, hquoted, ?_⟩
  · have hshown : (doubleQuoted string.lexeme).shown = fix.shown := Option.some.inj hfix
    rw [← String.ofList_inj.1 hshown, hlexeme]
    decide +kernel
  · rw [hbare]
    decide +kernel

/-- A double quote that is escaped already gets a second backslash, which the first takes with it:
the fix is a string that ends there, a name, and a string that is never closed. -/
theorem escaped_quote_ends_fix :
    let s := (Stylesheet.ofText "<input>" "$x: 'a\\\"b';\n".toList).1
    ∃ d ∈ checkQuotes s {}, ∃ fix, d.fix = some (Text.shown fix) ∧
      fix = "\"a\\\\\"b\"".toList ∧
      (tokenize fix).map (·.kind) = [.string, .ident, .malformed] ∧
      ¬∃ content, IsDoubleQuoted fix content := by
  intro s
  obtain ⟨string, hstring, hkind, hlexeme⟩ : ∃ t ∈ s.tokens, t.kind = .string ∧
      t.lexeme = "'a\\\"b'".toList := by
    decide +kernel
  have hhead : string.lexeme.head? = some singleQuote := by
    rw [hlexeme]
    decide +kernel
  have hfix : doubleQuoted string.lexeme = "\"a\\\\\"b\"".toList := by
    rw [hlexeme]
    decide +kernel
  have hkinds : (tokenize "\"a\\\\\"b\"".toList).map (·.kind) =
      [.string, .ident, .malformed] := by
    decide +kernel
  refine ⟨_, mem_checkQuotes_iff.2 ⟨string, hstring, hkind, hhead, rfl⟩, _, rfl, hfix, ?_, ?_⟩
  · rw [hfix]
    exact hkinds
  · rintro ⟨content, -, token, htoken, -⟩
    rw [hfix] at htoken
    rw [htoken] at hkinds
    simp at hkinds

end HouseStyle
