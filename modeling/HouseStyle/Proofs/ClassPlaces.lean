/-
HouseStyle.Proofs.ClassPlaces — where findings about class names stand.

A finding about a class name stands on the line where its selector starts. Its column is found by a
search for the first place in the recorded text of the selector at which the name follows a dot,
and is counted from where the selector starts. The recorded text is squeezed, and the first such
place may be the start of a longer name, so the finding need not point at the class
(`shorter_name_misplaced`). Where the selector is written as it is recorded, up to the end of the
name, the finding points at a dot with the name behind it, and the name ends there exactly if it
ends there in the recorded text (`naming_points_at_first`).

## How the proof goes

A class name of a selector stands in its text behind a dot, whether the text was read or only
searched for dots (`infix_of_mem_classNames`), so the search never fails. The tokens of a selector
are an entry of the list in front of a brace (`Stylesheet.Writes`). Squeezing leaves the front of a
text as it is if it has single spaces only, and goes on with the word behind it
(`exists_squeeze_append`), so the line and the recorded text agree on the front, and the next
character of the one belongs to a name exactly if that of the other does (`endsName_source_iff`):
comments are recorded as blanks, and what ends a selector starts with no character of a name.
-/
import HouseStyle.Proofs.Ink
import HouseStyle.Proofs.Positions
import HouseStyle.Proofs.RecordedTexts
import HouseStyle.Proofs.SelectorLanguage
import HouseStyle.Proofs.Suffixes

namespace HouseStyle

/-! ## 1. Class names in the text of a selector -/

namespace Selector

/-- A class that is found in a rejected selector is written out in it behind a dot. -/
theorem infix_of_mem_looseClasses {t name : Text} (h : name ∈ looseClasses t) :
    '.' :: name <:+: t := by
  induction t using looseClasses.induct with
  | case1 => simp [looseClasses] at h
  | case2 c rest hdot n hlength ih =>
    obtain rfl : c = '.' := eq_of_beq hdot
    rw [looseClasses, if_pos hdot, hlength] at h
    rcases List.mem_cons.1 h with rfl | h
    · exact (List.cons_prefix_cons.2 ⟨rfl, List.take_prefix n rest⟩).isInfix
    · exact (ih h).trans (List.infix_cons (List.drop_suffix n rest).isInfix)
  | case3 c rest hdot hnone ih =>
    rw [looseClasses, if_pos hdot, hnone] at h
    exact List.infix_cons (ih h)
  | case4 c rest hdot ih =>
    rw [looseClasses, if_neg hdot] at h
    exact List.infix_cons (ih h)

theorem Compound.mem_classes_ofPieces {group : List Piece} {name : Text}
    (h : name ∈ (Compound.ofPieces group).classes) :
    ∃ piece ∈ group, piece.terminal = .className ∧ piece.text.drop 1 = name := by
  obtain ⟨piece, hpiece, rfl⟩ := List.mem_map.1 h
  obtain ⟨hmem, hkind⟩ := List.mem_filter.1 hpiece
  exact ⟨piece, hmem, by simpa using hkind, rfl⟩

/-- A class of a selector is written out in its text behind a dot. -/
theorem infix_of_mem_classes {t name : Text} {row : List Piece} (h : IsCut t row)
    {c : Compound} (hc : c ∈ (Structure.ofPieces row).compounds) (hname : name ∈ c.classes) :
    '.' :: name <:+: t := by
  have hcompounds : c ∈ (row.splitOnP (·.terminal.isCombinator)).map Compound.ofPieces := by
    rw [← (gather_eq row).1]
    exact hc
  obtain ⟨group, hgroup, rfl⟩ := List.mem_map.1 hcompounds
  obtain ⟨piece, hpiece, hkind, rfl⟩ := Compound.mem_classes_ofPieces hname
  have hrow : piece ∈ row := by
    have hflat : piece ∈ (row.splitOnP (·.terminal.isCombinator)).flatten :=
      List.mem_flatten.2 ⟨group, hgroup, hpiece⟩
    rw [Text.flatten_splitOnP] at hflat
    exact (List.mem_filter.1 hflat).1
  obtain ⟨d, v, htext, hopens⟩ := Terminal.exists_cons_of_mem (h.word piece hrow)
  obtain rfl : d = '.' := by
    rw [hkind] at hopens
    exact eq_of_beq hopens
  obtain ⟨front, back, rfl⟩ := List.append_of_mem hrow
  rw [htext, List.drop_one, List.tail_cons, ← h.covers, ← htext]
  exact ⟨front.flatMap Piece.text, back.flatMap Piece.text, by simp⟩

/-- The class names of a selector stand in its text, each behind a dot. -/
theorem infix_of_mem_classNames {raw name : Text} {line column : Nat}
    (h : name ∈ (build raw line column).classNames) :
    '.' :: name <:+: (build raw line column).text := by
  obtain ⟨c, hc, hname⟩ := List.mem_flatMap.1 h
  show '.' :: name <:+: Text.squeeze raw
  unfold build at hc
  dsimp only [compounds] at hc
  split at hc
  · rename_i parts hparts
    obtain ⟨row, hcut, rfl⟩ := ofText_eq_ok_iff.1 hparts
    exact infix_of_mem_classes hcut hc hname
  · rw [Structure.loose, List.mem_singleton] at hc
    rw [hc] at hname
    exact infix_of_mem_looseClasses hname

end Selector

/-! ## 2. Where selectors stand -/

namespace Nesting

end Nesting

namespace Token

/-- What ends a selector: trivia, a comma, or the brace behind the selectors. -/
def EndsSelector (t : Token) : Prop := t.isTrivia = true ∨ t.kind = .comma ∨ t.kind = .leftBrace

/-- The row is written as it is recorded up to this many characters: no comment stands there, and
nothing but single spaces between the words. -/
def WrittenUpTo (count : Nat) (row : List Token) : Prop :=
  ∃ front rest, row = front ++ rest ∧ (∀ t ∈ front, t.isComment = false) ∧
    Text.squeeze (source front) = source front ∧ count ≤ (source front).length

end Token

namespace Stylesheet

/-- The row of tokens is what a selector is made of: an entry in front of the brace of a ruleset,
without the trivia around it. -/
def Writes (s : Stylesheet) (selector : Selector) (row : List Token) : Prop :=
  ∃ prelude brace entry, Statement.opening prelude brace ∈ Statement.all s.tokens ∧
    entry ∈ Nesting.entries 0 prelude ∧ Nesting.selectorOf? entry = some selector ∧
    row = Token.trimTrivia entry

variable {file : String} {text : Text} {n : Node} {selector : Selector} {row : List Token}

/-- Every selector of a stylesheet has a row of tokens that it was made of. -/
theorem exists_writes (hn : n ∈ (ofText file text).1.nodes) (h : selector ∈ n.selectors) :
    ∃ row, (ofText file text).1.Writes selector row := by
  obtain ⟨prelude, brace, hst, hmem⟩ := exists_opening hn h
  obtain ⟨entry, hentry, hselector⟩ := List.mem_filterMap.1 hmem
  exact ⟨_, prelude, brace, entry, hst, hentry, hselector, rfl⟩

/-- Behind the tokens of a selector something stands that ends it. -/
theorem Writes.exists_append (h : (ofText file text).1.Writes selector row) :
    ∃ before last after, tokenize text = before ++ (row ++ last :: after) ∧
      last.EndsSelector := by
  obtain ⟨prelude, brace, entry, hst, hentry, -, rfl⟩ := h
  have hst' : Statement.opening prelude brace ∈ Statement.all (tokenize text) := hst
  obtain ⟨ahead, behind, hall⟩ := List.append_of_mem hst'
  have htokens : tokenize text = ahead.flatMap Statement.tokens ++
      (prelude ++ brace :: behind.flatMap Statement.tokens) := by
    rw [← Statement.tokens_all (tokenize text), hall]
    simp [Statement.tokens]
  obtain ⟨front, back, hprelude, hcomma⟩ :=
    (Nesting.separated_entries 0 prelude).exists_append hentry
  obtain ⟨trail, hrow, htrail⟩ := Token.exists_append_trimTrivia entry
  obtain ⟨-, hbrace⟩ := Nesting.brace_of_opener? hst' rfl
  -- behind the row stands trivia, or else the comma behind the entry, or else the brace
  have hlast : ∃ last after, trail ++ (back ++ brace :: behind.flatMap Statement.tokens) =
      last :: after ∧ last.EndsSelector := by
    cases trail with
    | cons t trail => exact ⟨t, _, rfl, .inl (htrail t List.mem_cons_self)⟩
    | nil =>
      cases back with
      | cons t back => exact ⟨t, _, rfl, .inr (.inl (hcomma t rfl))⟩
      | nil => exact ⟨brace, _, rfl, .inr (.inr hbrace)⟩
  obtain ⟨last, after, hbehind, hends⟩ := hlast
  refine ⟨ahead.flatMap Statement.tokens ++ (front ++ entry.takeWhile (·.isTrivia)), last, after,
    ?_, hends⟩
  rw [htokens, hprelude]
  conv_lhs => rw [hrow]
  simp only [List.append_assoc, hbehind]

/-- A selector stands where its first token stands. -/
theorem Writes.exists_head (h : (ofText file text).1.Writes selector row) :
    ∃ t rest, row = t :: rest ∧
      selector = Selector.build (Token.plainText row) t.line t.column := by
  obtain ⟨prelude, brace, entry, -, -, hselector, rfl⟩ := h
  unfold Nesting.selectorOf? at hselector
  split at hselector
  · cases hselector
  · rename_i t rest hrow
    rw [hrow]
    exact ⟨t, rest, rfl, (Option.some.inj hselector).symm⟩

end Stylesheet

/-! ## 3. Where names end -/

open Selector

def Text.EndsName (t : Text) : Prop := ∀ c ∈ t.head?, isNamePart c = false

namespace Text

variable {u v : Text} {c : Char}

@[simp] theorem endsName_nil : EndsName [] := by simp [EndsName]

@[simp] theorem endsName_cons : EndsName (c :: u) ↔ isNamePart c = false := by simp [EndsName]

/-- Blanks do not go on with a name. -/
theorem isNamePart_of_isBlank {c : Char} (h : isBlank c = true) : isNamePart c = false := by
  by_contra hname
  rw [Bool.not_eq_false] at hname
  -- the characters of names lie between the hyphen and `z`
  have hrange : 45 ≤ c.toNat ∧ c.toNat ≤ 122 := by
    have hparts : (((decide (65 ≤ c.val ∧ c.val ≤ 90) ||
        (decide (97 ≤ c.val) && decide (c.val ≤ 122))) ||
        (decide (48 ≤ c.val) && decide (c.val ≤ 57))) || c == '_' || c == '-') = true := hname
    simp only [Bool.or_eq_true, Bool.and_eq_true, decide_eq_true_eq, beq_iff_eq,
      UInt32.le_iff_toNat_le] at hparts
    have hval : c.toNat = c.val.toNat := rfl
    rcases hparts with (((h | h) | h) | rfl) | rfl
    · have h' : 65 ≤ c.val.toNat ∧ c.val.toNat ≤ 90 := h
      omega
    · have h' : 97 ≤ c.val.toNat ∧ c.val.toNat ≤ 122 := h
      omega
    · have h' : 48 ≤ c.val.toNat ∧ c.val.toNat ≤ 57 := h
      omega
    · decide
    · decide
  simp only [isBlank, Bool.or_eq_true, Bool.and_eq_true, decide_eq_true_eq, beq_iff_eq] at h
  omega

theorem EndsName.of_append (h : EndsName (u ++ v)) : EndsName u := by
  cases u with
  | nil => simp
  | cons c u => simpa using h

/-- The carriage returns at the end of a line do not matter. -/
theorem endsName_dropEndWhile :
    EndsName (dropEndWhile (· == '\r') u) ↔ EndsName u := by
  cases u with
  | nil => rfl
  | cons c u =>
    by_cases hc : (c == '\r') = true
    · have hreturn : isNamePart c = false := by
        rw [eq_of_beq hc]
        decide
      obtain ⟨returns, hreturns⟩ := List.rdropWhile_prefix (· == '\r') (c :: u)
      have hends : EndsName (c :: u) := by simpa using hreturn
      exact iff_of_true (EndsName.of_append (hreturns ▸ hends)) hends
    · have hkept := dropEndWhile_append_cons (p := (· == '\r')) (Bool.eq_false_iff.2 hc) [] u
      rw [List.nil_append, List.nil_append] at hkept
      simp [hkept]

/-- What stands on later lines does not matter. -/
theorem endsName_append_takeWhile :
    EndsName (u ++ v.takeWhile (· != '\n')) ↔ EndsName (u ++ v) := by
  cases u with
  | cons => simp
  | nil =>
    cases v with
    | nil => rfl
    | cons c v =>
      by_cases hc : c = '\n'
      · have hfeed : isNamePart '\n' = false := by decide
        simp [hc, hfeed]
      · simp [hc]

end Text

namespace Token

/-- What ends a selector does not start with a character of a name, and neither does trivia. -/
theorem isNamePart_of_endsSelector {c : Char} {t : Text} :
    (next c t).1.isTrivia = true ∨ (next c t).1 = .comma ∨ (next c t).1 = .leftBrace →
      isNamePart c = false := by
  apply next_cases (motive := fun r =>
    r.1.isTrivia = true ∨ r.1 = .comma ∨ r.1 = .leftBrace → isNamePart c = false) c t
  case lineFeed | hash =>
    rintro rfl -
    decide
  case carriageReturn | comment | lineComment | atKeyword =>
    rintro rfl - -
    decide
  case blanks =>
    intro _ hspace _
    exact Text.isNamePart_of_isBlank (isBlank_of_isInlineSpace hspace)
  case string =>
    intro hquote _
    simp only [isQuote, Bool.or_eq_true, beq_iff_eq] at hquote
    rcases hquote with rfl | rfl <;> decide
  case number =>
    intro _ _ h
    simp [Kind.isTrivia] at h
  case ident =>
    intro _ _ h
    unfold identTail at h
    dsimp only at h
    split at h
    · split at h <;> simp [Kind.isTrivia] at h
    · simp [Kind.isTrivia] at h
  case single =>
    intro _ h
    dsimp only at h
    unfold singleKind at h
    split at h
    all_goals first
      | decide
      | simp [Kind.isTrivia] at h

end Token

/-! ## 4. What stands behind a place -/

namespace Token

variable {text : Text} {rest after : List Token} {last : Token}

/-- The first character of a token. -/
theorem exists_first {t : Token} (ht : t ∈ tokenize text) :
    ∃ c more, t.lexeme = c :: more ∧ (t.EndsSelector → isNamePart c = false) := by
  obtain ⟨c, more, place, rfl⟩ := exists_next_of_mem ht
  exact ⟨c, _, rfl, isNamePart_of_endsSelector⟩

/-- Behind a part of a selector a name ends in the text exactly if it ends in what is recorded of
the rest of the selector. -/
theorem endsName_source_iff (ht : ∀ t ∈ rest ++ last :: after, t ∈ tokenize text)
    (hlast : last.EndsSelector) {tail : Text} (htail : ∀ c ∈ tail.head?, c = ' ') :
    Text.EndsName (source (rest ++ last :: after)) ↔
      Text.EndsName ((plainText rest).takeWhile (!isBlank ·) ++ tail) := by
  have htail' : Text.EndsName tail := by
    intro c hc
    rw [htail c hc]
    decide
  cases rest with
  | nil =>
    obtain ⟨c, more, hlexeme, hends⟩ := exists_first (ht last (by simp))
    simp [source, hlexeme, hends hlast, plainText, htail']
  | cons t rest =>
    obtain ⟨c, more, hlexeme, hends⟩ := exists_first (ht t (by simp))
    have hsource : Text.EndsName (source (t :: rest ++ last :: after)) ↔ isNamePart c = false := by
      simp [source, hlexeme]
    rw [hsource]
    by_cases hcomment : t.isComment = true
    · -- a comment is recorded as a blank
      have hspace : plainText (t :: rest) = ' ' :: plainText rest := by
        simp [plainText, hcomment]
      have htrivia : t.isTrivia = true := by
        by_contra hsolid
        rw [isComment_of_isTrivia (by simpa using hsolid)] at hcomment
        cases hcomment
      have hblank : isBlank ' ' = true := by decide
      simp [hspace, hblank, htail', hends (.inl htrivia)]
    · have hrecorded : plainText (t :: rest) = c :: (more ++ plainText rest) := by
        simp [plainText, hcomment, hlexeme]
      by_cases hblank : isBlank c = true
      · simp [hrecorded, hblank, htail', Text.isNamePart_of_isBlank hblank]
      · simp [hrecorded, hblank]

end Token

/-! ## 5. Findings about class names -/

/-- The finding stands in the text at a dot with the name behind it, and the name ends there. -/
def Diagnostic.PointsAt (text name : Text) (d : Diagnostic) : Prop :=
  ∃ row behind, (Text.lines text)[d.line.toNat - 1]? = some row ∧
    row.drop (d.column.toNat - 1) = '.' :: (name ++ behind) ∧ Text.EndsName behind

namespace Stylesheet

variable {file : String} {text name u v : Text} {selector : Selector} {row front rest : List Token}
  {d : Diagnostic}

/-- The line on which a selector starts, if the front of the selector is written as it is recorded:
a name goes on behind the front in the line exactly if it goes on in the recorded text. -/
theorem Writes.exists_line (h : (ofText file text).1.Writes selector (front ++ rest))
    (hcomment : ∀ t ∈ front, t.isComment = false)
    (hsqueezed : Text.squeeze (Token.source front) = Token.source front)
    (hne : Token.source front ≠ []) :
    ∃ lead written recorded, lead.length + 1 = selector.column ∧
      (Text.lines text)[selector.line - 1]? = some (Text.dropEndWhile (· == '\r')
        (lead ++ (Token.source front ++ written.takeWhile (· != '\n')))) ∧
      selector.text = Token.source front ++ recorded ∧
      (Text.EndsName written ↔ Text.EndsName recorded) := by
  obtain ⟨t, others, hhead, rfl⟩ := h.exists_head
  obtain ⟨before, last, after, htokens, hlast⟩ := h.exists_append
  obtain ⟨tail, hrecorded, htail⟩ :=
    Text.exists_squeeze_append hsqueezed hne (Token.plainText rest)
  have hwritten : tokenize text = before ++ t :: (others ++ last :: after) := by
    rw [htokens, hhead]
    rfl
  obtain ⟨lead, hlead, hline⟩ := Token.exists_line hwritten
  have hfeed : ∀ c ∈ Token.source front, (c != '\n') = true := by
    intro c hc
    rw [bne_iff_ne]
    rintro rfl
    cases Text.eq_space_of_mem_squeeze (hsqueezed ▸ hc) (by decide)
  have hsource : Token.source (t :: (others ++ last :: after)) =
      Token.source front ++ Token.source (rest ++ last :: after) := by
    rw [← List.cons_append, ← hhead]
    simp [Token.source]
  have hmem : ∀ u ∈ rest ++ last :: after, u ∈ tokenize text := by
    intro u hu
    rw [htokens, List.append_assoc]
    exact List.mem_append_right _ (List.mem_append_right _ hu)
  refine ⟨lead, Token.source (rest ++ last :: after), _, ?_, ?_, ?_,
    Token.endsName_source_iff hmem hlast htail⟩
  · exact hlead
  · show (Text.lines text)[t.line - 1]? = _
    rw [← List.takeWhile_append_of_pos hfeed, ← hsource, Text.lines, List.getElem?_map, hline]
    rfl
  · rw [← hrecorded, ← Token.plainText_eq_source hcomment, ← Token.plainText_append]
    rfl

/-- Where the selector is written as it is recorded up to the end of a name, a finding at the name
points at it if the name goes no further in the recorded text. -/
theorem Writes.pointsAt_iff (h : (ofText file text).1.Writes selector (front ++ rest))
    (hcomment : ∀ t ∈ front, t.isComment = false)
    (hsqueezed : Text.squeeze (Token.source front) = Token.source front)
    (htext : selector.text = u ++ ('.' :: name ++ v))
    (hlength : u.length + (name.length + 1) ≤ (Token.source front).length)
    (hline : d.line = selector.line) (hcolumn : d.column = (selector.column + u.length : Nat)) :
    d.PointsAt text name ↔ Text.EndsName v := by
  have hne : Token.source front ≠ [] := by
    intro hnil
    rw [hnil, List.length_nil] at hlength
    omega
  obtain ⟨lead, written, recorded, hlead, hfound, hselector, hends⟩ :=
    h.exists_line hcomment hsqueezed hne
  -- the front reaches to the end of the name
  obtain ⟨z, hsource, rfl⟩ : ∃ z, Token.source front = (u ++ '.' :: name) ++ z ∧
      v = z ++ recorded := by
    have hsplit : Token.source front ++ recorded = (u ++ '.' :: name) ++ v := by
      rw [← hselector, htext, List.append_assoc]
    obtain ⟨z, hz⟩ : u ++ '.' :: name <+: Token.source front := by
      refine List.prefix_of_prefix_length_le ⟨v, rfl⟩ ⟨recorded, hsplit⟩ ?_
      rw [List.length_append, List.length_cons]
      exact hlength
    refine ⟨z, hz.symm, ?_⟩
    rw [← hz, List.append_assoc] at hsplit
    exact (List.append_cancel_left hsplit).symm
  have hreturn : ∀ c ∈ name, (c == '\r') = false := by
    intro c hc
    rw [beq_eq_false_iff_ne]
    rintro rfl
    have hmem : '\r' ∈ Token.source front := by simp [hsource, hc]
    cases Text.eq_space_of_mem_squeeze (hsqueezed ▸ hmem) (by decide)
  have hrow : (Text.lines text)[selector.line - 1]? = some ((lead ++ u) ++ '.' :: (name ++
      Text.dropEndWhile (· == '\r') (z ++ written.takeWhile (· != '\n')))) := by
    rw [hfound, hsource, ← Text.dropEndWhile_append hreturn,
      ← Text.dropEndWhile_append_cons (by decide)]
    simp
  have hname : Text.EndsName
      (Text.dropEndWhile (· == '\r') (z ++ written.takeWhile (· != '\n'))) ↔
        Text.EndsName (z ++ recorded) := by
    rw [Text.endsName_dropEndWhile, Text.endsName_append_takeWhile]
    cases z with
    | cons => simp
    | nil => exact hends
  have hplace : d.column.toNat - 1 = (lead ++ u).length := by
    rw [hcolumn, Int.toNat_natCast, List.length_append]
    omega
  unfold Diagnostic.PointsAt
  rw [hplace, hline, Int.toNat_natCast, hrow, ← hname]
  constructor
  · rintro ⟨row, behind, hfound, hdrop, hbehind⟩
    obtain rfl := Option.some.inj hfound
    rw [List.drop_left, List.cons.injEq] at hdrop
    rwa [List.append_cancel_left hdrop.2]
  · intro hz
    exact ⟨_, _, rfl, List.drop_left, hz⟩

end Stylesheet

/-- A class is looked for in the selectors of the nodes. -/
theorem ClassNaming.mem_of_mem_classes {s : Stylesheet} {n : Node} {selector : Selector}
    {c : ClassName} (h : (n, selector, c) ∈ classes s) : n ∈ s.nodes ∧ selector ∈ n.selectors := by
  rw [classes_eq_flatMap] at h
  obtain ⟨m, hm, h⟩ := List.mem_flatMap.1 h
  obtain ⟨selector', hselector, h⟩ := List.mem_flatMap.1 h
  obtain ⟨name, -, he⟩ := List.mem_map.1 h
  obtain ⟨rfl, rfl, -⟩ : m = n ∧ selector' = selector ∧ ClassName.classify name = c := by
    simpa using he
  exact ⟨(List.mem_filter.1 hm).1, hselector⟩

/-- **A finding about a class name stands at the first place where the name follows a dot** in the
recorded text of its selector, counted from where the selector starts. Every class name of the
selector has such a place. If the selector is written as it is recorded up to the end of that place,
the finding points at the name exactly if the name ends there in the recorded text, that is, if no
longer name with this one in front stands at the first place. -/
theorem naming_points_at_first (file : String) (text : Text) (o : Options) :
    let s := (Stylesheet.ofText file text).1
    (∀ d ∈ ClassNaming.check s o, ∃ n selector c, (n, selector, c) ∈ ClassNaming.classes s ∧
      d = ClassNaming.finding s selector c) ∧
    ∀ n selector c, (n, selector, c) ∈ ClassNaming.classes s → c.raw ∈ selector.classNames →
      let d := ClassNaming.finding s selector c
      ∃ front back, selector.text = front ++ ('.' :: c.raw ++ back) ∧
        (∀ front' back', selector.text = front' ++ ('.' :: c.raw ++ back') →
          front.length ≤ front'.length) ∧
        d.line = selector.line ∧ d.column = (selector.column + front.length : Nat) ∧
        (∃ row, s.Writes selector row) ∧
        ∀ row, s.Writes selector row →
          Token.WrittenUpTo (front.length + (c.raw.length + 1)) row →
          (d.PointsAt text c.raw ↔ Text.EndsName back) := by
  intro s
  refine ⟨fun d hd => ?_, fun n selector c hclass hown => ?_⟩
  · unfold ClassNaming.check at hd
    split at hd
    · cases hd
    · obtain ⟨⟨n, selector, c⟩, hmem, rfl⟩ := List.mem_map.1 hd
      exact ⟨n, selector, c, (List.mem_filter.1 hmem).1, rfl⟩
  · obtain ⟨hn, hselector⟩ := ClassNaming.mem_of_mem_classes hclass
    obtain ⟨row, hrow⟩ := Stylesheet.exists_writes hn hselector
    obtain ⟨t, others, -, hbuild⟩ := hrow.exists_head
    have hstands : '.' :: c.raw <:+: selector.text := by
      rw [hbuild] at hown ⊢
      exact infix_of_mem_classNames hown
    obtain ⟨front, back, htext, hfound, hfirst⟩ := Text.exists_offsetOf? hstands
    have hcolumn : (ClassNaming.finding s selector c).column =
        (selector.column + front.length : Nat) := by
      show ((ClassNaming.columnOf selector c.raw : Nat) : Int) = _
      rw [ClassNaming.columnOf, hfound]
      rfl
    refine ⟨front, back, htext, hfirst, rfl, hcolumn, ⟨row, hrow⟩, ?_⟩
    rintro row hrow ⟨written, rest, rfl, hcomment, hsqueezed, hlength⟩
    exact hrow.pointsAt_iff hcomment hsqueezed htext hlength rfl hcolumn

/-- A class that is named behind another one. -/
theorem naming_points_at_first_descendant :
    let text := ".Modal .bad_x \x7b top: 0; \x7d\n".toList
    let s := (Stylesheet.ofText "a.css" text).1
    ∃ d ∈ ClassNaming.check s {}, d.column = 8 ∧ d.PointsAt text "bad_x".toList := by
  intro text s
  obtain ⟨⟨n, selector, c⟩, hclass, hraw, hown, hcheck, hcolumn, hselectorColumn, hselector,
      hlength⟩ :
      ∃ found ∈ ClassNaming.classes s, found.2.2.raw = "bad_x".toList ∧
        found.2.2.raw ∈ found.2.1.classNames ∧
        ClassNaming.finding s found.2.1 found.2.2 ∈ ClassNaming.check s {} ∧
        (ClassNaming.finding s found.2.1 found.2.2).column = 8 ∧ found.2.1.column = 1 ∧
        Nesting.selectorOf? (s.tokens.take 6) = some found.2.1 ∧ found.2.1.text.length = 13 := by
    decide +kernel
  obtain ⟨brace, -, hstatement⟩ : ∃ brace ∈ s.tokens,
      Statement.opening (s.tokens.take 6) brace ∈ Statement.all s.tokens := by
    decide +kernel
  have hentry : s.tokens.take 6 ∈ Nesting.entries 0 (s.tokens.take 6) := by decide +kernel
  obtain ⟨front, back, htext, -, -, hplace, -, hpoints⟩ :=
    (naming_points_at_first "a.css" text {}).2 n selector c hclass hown
  have hrow : s.Writes selector (s.tokens.take 5) := by
    have htrim : s.tokens.take 5 = Token.trimTrivia (s.tokens.take 6) := by decide +kernel
    exact ⟨_, brace, _, hstatement, hentry, hselector, htrim⟩
  have hfront : front.length = 7 := by
    have hsum : ((1 + front.length : Nat) : Int) = 8 := by
      rw [← hselectorColumn, ← hplace, hcolumn]
    omega
  have hwritten : Token.WrittenUpTo (front.length + (c.raw.length + 1)) (s.tokens.take 5) := by
    rw [hfront, hraw]
    refine ⟨s.tokens.take 5, [], by simp, ?_, ?_, ?_⟩ <;> decide +kernel
  have hback : back = [] := by
    have hsum := congrArg List.length htext
    simp [hlength, hfront, hraw] at hsum
    exact List.eq_nil_of_length_eq_zero (by omega)
  refine ⟨_, hcheck, hcolumn, ?_⟩
  rw [← hraw]
  exact (hpoints _ hrow hwritten).2 (by simp [hback])

/-- The longer name in front has the shorter one in it, and both findings stand there. -/
theorem shorter_name_misplaced :
    let text := ".fo_o .fo_ \x7b\n\x7d\n".toList
    let s := (Stylesheet.ofText "<input>" text).1
    ∃ n selector c, (n, selector, c) ∈ ClassNaming.classes s ∧ c.raw ∈ selector.classNames ∧
      ClassNaming.finding s selector c ∈ ClassNaming.check s {} ∧
      ¬(ClassNaming.finding s selector c).PointsAt text c.raw := by
  intro text s
  obtain ⟨⟨n, selector, c⟩, hclass, hraw, hown, hcheck, hline, hcolumn⟩ :
      ∃ found ∈ ClassNaming.classes s, found.2.2.raw = "fo_".toList ∧
        found.2.2.raw ∈ found.2.1.classNames ∧
        ClassNaming.finding s found.2.1 found.2.2 ∈ ClassNaming.check s {} ∧
        (ClassNaming.finding s found.2.1 found.2.2).line = 1 ∧
        (ClassNaming.finding s found.2.1 found.2.2).column = 1 := by
    decide +kernel
  refine ⟨n, selector, c, hclass, hown, hcheck, ?_⟩
  rintro ⟨row, behind, hrow, hdrop, hends⟩
  have hfirst : (Text.lines text)[0]? = some ".fo_o .fo_ \x7b".toList := by decide +kernel
  rw [hline] at hrow
  rw [hcolumn, hraw] at hdrop
  obtain rfl := Option.some.inj (hfirst.symm.trans hrow)
  obtain rfl : "o .fo_ \x7b".toList = behind := by simpa using hdrop
  have hname : isNamePart 'o' = false := Text.endsName_cons.1 hends
  exact absurd hname (by decide)

end HouseStyle
