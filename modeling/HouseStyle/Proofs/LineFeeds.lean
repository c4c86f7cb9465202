/-
HouseStyle.Proofs.LineFeeds — which lexemes hold a line feed, and which end with one.

Blanks, names, numbers, interpolations and unquoted addresses stay on one line: their readers never
take a line feed (`Cut.OneLine`). Comments and strings may go over several lines, but they end with
their end mark. So a token that is closed and is no line break never ends with a line feed
(`ending_next`), which is what makes its last line the line of its last character.

An escape is the one place where a reader takes a character without looking at its class. Both
readers that do (`nameRun`, and `nameTail` behind a backslash) refuse a line end there, the second
because `startsIdent` has looked ahead.
-/
import HouseStyle.Token.Lexeme

namespace HouseStyle.Token

/-! ## 1. Cuts inside a line -/

/-- The cut takes no line feed. -/
def Cut.OneLine (k : Cut) : Prop := '\n' ∉ k.taken

theorem Cut.oneLine_nothing (t : Text) : (Cut.nothing t).OneLine := List.not_mem_nil

theorem Cut.oneLine_behind {k : Cut} {front : Text} (hf : '\n' ∉ front) (hk : k.OneLine) :
    (k.behind front).OneLine := by
  intro h
  rcases List.mem_append.1 h with h | h
  · exact hf h
  · exact hk h

/-- Two cuts that take no line feed take none together. -/
theorem Cut.oneLine_andThen {k : Cut} {f : Text → Cut} (hk : k.OneLine)
    (hf : (f k.rest).OneLine) : (k.andThen f).OneLine :=
  Cut.oneLine_behind hk hf

theorem Cut.oneLine_spanning {p : Char → Bool} (hp : p '\n' = false) (t : Text) :
    (Cut.spanning p t).OneLine := by
  intro h
  have := List.all_eq_true.1 (List.all_takeWhile (p := p) (l := t)) '\n' h
  rw [hp] at this
  cases this

/-! ## 2. Readers that stay on a line -/

theorem isNameChar_lineFeed : isNameChar '\n' = false := by decide

theorem isDigitLike_lineFeed : isDigitLike '\n' = false := by decide

theorem not_mem_singleton_of_class {p : Char → Bool} (hp : p '\n' = false) {c : Char}
    (hc : p c = true) : '\n' ∉ [c] := by
  intro h
  rw [List.mem_singleton] at h
  rw [← h, hp] at hc
  cases hc

/-- A backslash and a character that ends no line. -/
theorem not_mem_escape {c d : Char} (hc : (c == '\\') = true) (hd : isLineEnd d = false) :
    '\n' ∉ [c, d] := by
  have hc' : c = '\\' := by simpa using hc
  subst hc'
  intro h
  rcases List.mem_cons.1 h with h | h
  · exact absurd h (by decide)
  · rw [List.mem_singleton] at h
    rw [← h] at hd
    exact absurd hd (by decide)

theorem oneLine_inlineRun (t : Text) : (inlineRun t).OneLine := by
  induction t with
  | nil => exact Cut.oneLine_nothing []
  | cons c rest ih =>
    rw [inlineRun]
    split
    · exact Cut.oneLine_nothing _
    · split
      · rename_i hc
        exact Cut.oneLine_behind (not_mem_singleton_of_class (by decide) hc) ih
      · exact Cut.oneLine_nothing _

/-- No line end is part of a name, not even behind a backslash. -/
theorem oneLine_nameRun (t : Text) : (nameRun t).OneLine := by
  fun_induction nameRun t with
  | case1 => exact Cut.oneLine_nothing _
  | case2 c rest hc ih =>
    exact Cut.oneLine_behind (not_mem_singleton_of_class isNameChar_lineFeed hc) ih
  | case3 => exact Cut.oneLine_nothing _
  | case4 => exact Cut.oneLine_nothing _
  | case5 c _ hc d more hd ih =>
    exact Cut.oneLine_behind (not_mem_escape hc (by simpa using hd)) ih
  | case6 => exact Cut.oneLine_nothing _

theorem oneLine_onThisLine? {closing : Char} (hc : closing ≠ '\n') {t : Text} {k : Cut}
    (h : onThisLine? closing t = some k) : k.OneLine := by
  have hs := Cut.oneLine_spanning (p := fun c => c != closing && c != '\n') (by simp) t
  unfold onThisLine? at h
  simp only at h
  split at h
  · rename_i c rest hr
    split at h
    · rename_i hcc
      have hcc' : c = closing := by simpa using hcc
      simp only [Option.some.injEq] at h
      subst h hcc'
      intro hm
      rcases List.mem_append.1 hm with hm | hm
      · exact hs hm
      · exact hc (List.mem_singleton.1 hm).symm
    · simp at h
  · simp at h

/-- An unquoted address ends on the line where it starts, if it is one. -/
theorem oneLine_urlTail? {t : Text} {k : Cut} (h : urlTail? t = some k) : k.OneLine := by
  unfold urlTail? at h
  split at h
  · simp at h
  · rename_i c argument
    split at h
    · rename_i hc
      obtain ⟨k', hk, rfl⟩ := Option.map_eq_some_iff.1 h
      refine Cut.oneLine_behind (not_mem_singleton_of_class (p := (· == '(')) (by decide) hc) ?_
      unfold urlArgument? at hk
      split at hk
      · split at hk
        · simp at hk
        · exact oneLine_onThisLine? (by decide) hk
      · simp at hk
    · simp at h

theorem oneLine_unitRun (t : Text) : (unitRun t).OneLine := by
  unfold unitRun
  split
  · exact Cut.oneLine_nothing _
  · split
    · rename_i hc
      exact not_mem_singleton_of_class (p := (· == '%')) (by decide) hc
    · split
      · exact oneLine_nameRun _
      · exact Cut.oneLine_nothing _

theorem oneLine_fractionRun (t : Text) : (fractionRun t).OneLine := by
  unfold fractionRun
  split
  · exact Cut.oneLine_nothing _
  · split
    · rename_i c rest hc
      simp only [Bool.and_eq_true] at hc
      exact Cut.oneLine_behind (not_mem_singleton_of_class (p := (· == '.')) (by decide) hc.1)
        (Cut.oneLine_spanning isDigitLike_lineFeed _)
    · exact Cut.oneLine_nothing _

theorem oneLine_numberTail (c : Char) (t : Text) : (numberTail c t).OneLine := by
  have hd := Cut.oneLine_spanning isDigitLike_lineFeed t
  unfold numberTail
  simp only
  split
  · exact Cut.oneLine_andThen hd (oneLine_unitRun _)
  · exact Cut.oneLine_andThen (Cut.oneLine_andThen hd (oneLine_fractionRun _)) (oneLine_unitRun _)

theorem oneLine_nameTail {c : Char} {t : Text} (h : startsIdent (c :: t) = true) :
    (nameTail c t).OneLine := by
  unfold nameTail
  split
  · rename_i hc
    have hc' : c = '\\' := by simpa using hc
    subst hc'
    split
    · exact Cut.oneLine_nothing _
    · rename_i d more
      -- a backslash starts a name only in front of a character that ends no line
      have hd : isLineEnd d = false := by
        have hb : isBeyondAscii '\\' = false := by decide
        simpa [startsIdent, hb] using h
      refine Cut.oneLine_behind (fun hm => ?_) (oneLine_nameRun _)
      rw [List.mem_singleton] at hm
      rw [← hm] at hd
      exact absurd hd (by decide)
  · exact oneLine_nameRun t

theorem oneLine_identTail {c : Char} {t : Text} (h : startsIdent (c :: t) = true) :
    (identTail c t).2.OneLine := by
  have hn := oneLine_nameTail h
  unfold identTail
  simp only
  split
  · split
    · rename_i k hk
      exact Cut.oneLine_behind hn (oneLine_urlTail? hk)
    · exact hn
  · exact hn

theorem oneLine_hashTail (t : Text) : (hashTail t).2.OneLine := by
  unfold hashTail
  split
  · exact Cut.oneLine_nothing _
  · split
    · rename_i hc
      split
      · rename_i k hk
        exact Cut.oneLine_behind (not_mem_singleton_of_class (p := (· == '{')) (by decide) hc)
          (oneLine_onThisLine? (by decide) hk)
      · exact Cut.oneLine_nothing _
    · split
      · exact Cut.oneLine_spanning isNameChar_lineFeed _
      · exact Cut.oneLine_nothing _

/-! ## 3. Readers that end with a mark -/

/-- A cut that reaches behind its end mark. -/
theorem getLast?_behind {front : Text} {k : Cut} (h : k.taken ≠ []) :
    (k.behind front).taken.getLast? = k.taken.getLast? := by
  simp [Cut.behind, List.getLast?_append, List.getLast?_eq_some_getLast h]

theorem getLast?_commentEnd? {t : Text} {k : Cut} (h : commentEnd? t = some k) :
    k.taken.getLast? = some '/' := by
  induction t generalizing k with
  | nil => simp [commentEnd?] at h
  | cons c rest ih =>
    rw [commentEnd?] at h
    split at h
    · simp only [Option.some.injEq] at h
      subst h
      rfl
    · obtain ⟨k', hk, rfl⟩ := Option.map_eq_some_iff.1 h
      have hne : k'.taken ≠ [] := by
        intro he
        simpa [he] using ih hk
      rw [getLast?_behind hne]
      exact ih hk

theorem getLast?_stringBody {quote : Char} {t : Text} (h : (stringBody quote t).2 = true) :
    (stringBody quote t).1.taken.getLast? = some quote := by
  have hne {k : Cut} (hk : k.taken.getLast? = some quote) : k.taken ≠ [] := by
    intro he
    simp [he] at hk
  fun_induction stringBody quote t with
  | case1 => simp at h
  | case2 c rest hc =>
    have hc' : c = quote := by simpa using hc
    simp [hc']
  | case3 => simp at h
  | case4 => simp at h
  | case5 c _ _ _ d more ih =>
    rw [getLast?_behind (hne (ih h))]
    exact ih h
  | case6 c rest _ _ _ ih =>
    rw [getLast?_behind (hne (ih h))]
    exact ih h

/-! ## 4. The last character of a token -/

theorem Cut.OneLine.getLast?_ne {k : Cut} (h : k.OneLine) : k.taken.getLast? ≠ some '\n' :=
  fun hl => h (List.mem_of_getLast? hl)

theorem commentTail_kind (t : Text) : (commentTail t).1 ≠ .newline :=
  fun h => absurd (h ▸ kind_commentTail t) (by decide)

theorem stringTail_kind (quote : Char) (t : Text) : (stringTail quote t).1 ≠ .newline :=
  fun h => absurd (h ▸ kind_stringTail quote t) (by decide)

theorem hashTail_kind (t : Text) : (hashTail t).1 ≠ .newline :=
  fun h => absurd (h ▸ kind_hashTail t) (by decide)

theorem identTail_kind (c : Char) (t : Text) : (identTail c t).1 ≠ .newline :=
  fun h => absurd (h ▸ kind_identTail c t) (by decide)

theorem singleKind_ne_newline (c : Char) : singleKind c ≠ .newline :=
  fun h => absurd (h ▸ kind_singleKind c) (by decide)

/-- A comment that is closed ends with its mark. -/
theorem getLast?_commentTail {t : Text} (h : (commentTail t).1 ≠ .malformed) :
    (commentTail t).2.taken.getLast? = some '/' := by
  unfold commentTail at h ⊢
  split at h
  · exact absurd rfl h
  · rename_i k hk
    simpa [hk] using getLast?_commentEnd? hk

/-- A string that is closed ends with its quote. -/
theorem getLast?_stringTail {quote : Char} {t : Text} (h : (stringTail quote t).1 ≠ .malformed) :
    (stringTail quote t).2.taken.getLast? = some quote := by
  unfold stringTail at h ⊢
  cases hb : (stringBody quote t).2 with
  | true => exact getLast?_stringBody hb
  | false => simp [hb] at h

/-- How a token that starts with `c` ends: a line break with its line feed, a malformed token
anywhere, and every other token before its line does. -/
inductive Ending (c : Char) (r : Kind × Cut) : Prop where
  | lineFeed (kind : r.1 = .newline) (first : c = '\n') (taken : r.2.taken = [])
  | carriageReturn (kind : r.1 = .newline) (first : c = '\r') (taken : r.2.taken = ['\n'])
  | malformed (kind : r.1 = .malformed)
  | inLine (kind : r.1 ≠ .newline) (first : c ≠ '\n') (last : r.2.taken.getLast? ≠ some '\n')

/-- How the first token of a text ends: only line breaks and malformed tokens end with a line
feed. -/
theorem ending_next (c : Char) (t : Text) : Ending c (next c t) := by
  apply next_cases c t
  case lineFeed => exact fun hc => .lineFeed rfl hc rfl
  case carriageReturn => exact fun hc _ => .carriageReturn rfl hc rfl
  case blanks => exact fun hc _ => .inLine (by simp) hc (oneLine_inlineRun t).getLast?_ne
  case comment =>
    intro hc _
    by_cases hm : (commentTail t.tail).1 = .malformed
    · exact .malformed hm
    · have hl := getLast?_commentTail hm
      refine .inLine (commentTail_kind _) (by simp [hc]) ?_
      rw [getLast?_behind (by intro he; simp [he] at hl), hl]
      simp
  case lineComment =>
    intro hc _
    exact .inLine (by simp) (by simp [hc]) (Cut.oneLine_spanning (by decide) t).getLast?_ne
  case string =>
    intro hq
    have hc : c ≠ '\n' := by
      rintro rfl
      exact absurd hq (by decide)
    by_cases hm : (stringTail c t).1 = .malformed
    · exact .malformed hm
    · refine .inLine (stringTail_kind c t) hc ?_
      rw [getLast?_stringTail hm]
      simpa using hc
  case atKeyword =>
    exact fun hc _ => .inLine (by simp) (by simp [hc]) (oneLine_nameRun t).getLast?_ne
  case hash =>
    exact fun hc => .inLine (hashTail_kind t) (by simp [hc]) (oneLine_hashTail t).getLast?_ne
  case number => exact fun hc _ => .inLine (by simp) hc (oneLine_numberTail c t).getLast?_ne
  case ident =>
    exact fun hc hi => .inLine (identTail_kind c t) hc (oneLine_identTail hi).getLast?_ne
  case single =>
    exact fun hc => .inLine (singleKind_ne_newline c) hc (Cut.oneLine_nothing t).getLast?_ne

/-- The line feeds in front of the last character of a token: none in a line break, and all that
the token has if it is closed. -/
theorem lineFeeds_dropLast_next {c : Char} {t : Text} (h : (next c t).1 ≠ .malformed) :
    Text.lineFeeds (c :: (next c t).2.taken).dropLast =
      if (next c t).1 = .newline then 0 else Text.lineFeeds (c :: (next c t).2.taken) := by
  cases ending_next c t with
  | lineFeed kind first taken =>
    rw [if_pos kind, taken]
    rfl
  | carriageReturn kind first taken =>
    rw [if_pos kind, taken, first]
    rfl
  | malformed kind => exact absurd kind h
  | inLine kind first last =>
    rw [if_neg kind]
    have hlast : (c :: (next c t).2.taken).getLast? ≠ some '\n' := by
      cases ht : (next c t).2.taken with
      | nil => simpa using first
      | cons d rest => simpa [ht, List.getLast?_cons_cons] using last
    generalize c :: (next c t).2.taken = l at hlast
    rcases List.eq_nil_or_concat l with rfl | ⟨init, d, rfl⟩
    · rfl
    · have hd : d ≠ '\n' := by simpa using hlast
      simp [Text.lineFeeds, hd]

end HouseStyle.Token
