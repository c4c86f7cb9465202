/-
HouseStyle.Proofs.LineEnds — line feeds, and pairs of carriage return and line feed.

A text is paired by putting a carriage return in front of every line feed. The places that know of
carriage returns are apart from each other: the line break takes one with it, blanks and line
comments stop in front of one, a string is broken off at one, and an escape in a name refuses one.
An escape in a string does not. It takes the next character whatever it is, so behind a backslash a
line feed goes into the string, and of a pair only the carriage return does.

That is the only difference (`tokenize_paired`): the tokens of the paired text are those of the
text, with paired lexemes and at the same lines and columns, if and only if no string holds a line
feed.

## How the proof goes

There is one lemma for each reader: its cut of the paired text is the paired cut (`Cut.paired`).
`pairs_next` collects them along the dispatch of `next`, with the exception for strings. For a
string that does go on behind a line end the paired text has a token that holds no line feed
(`oneLine_stringBody_paired`), so the two tokens differ whatever else follows. The induction on the
tokens therefore proves both directions at once.
-/
import HouseStyle.Proofs.LineRestart
import Mathlib.Data.List.Forall2

namespace HouseStyle

/-! ## 1. Paired line ends -/

namespace Text

/-- The text with a carriage return in front of every line feed. -/
def paired (t : Text) : Text := replaceChar '\n' ['\r', '\n'] t

/-- The text with a line feed in place of every pair of carriage return and line feed. -/
def unpaired : Text → Text
  | [] => []
  | [c] => [c]
  | c :: d :: rest =>
    if c == '\r' && d == '\n' then '\n' :: unpaired rest else c :: unpaired (d :: rest)

@[simp] theorem paired_nil : paired [] = [] := rfl

@[simp] theorem paired_lineFeed (t : Text) : paired ('\n' :: t) = '\r' :: '\n' :: paired t := rfl

theorem paired_cons {c : Char} (hc : c ≠ '\n') (t : Text) : paired (c :: t) = c :: paired t := by
  rw [paired, replaceChar, List.flatMap_cons, if_neg (by simp [hc])]
  rfl

theorem paired_append (s t : Text) : paired (s ++ t) = paired s ++ paired t := List.flatMap_append

/-- Without line feeds there is nothing to pair. -/
theorem paired_of_not_mem {t : Text} (h : '\n' ∉ t) : paired t = t := by
  induction t with
  | nil => rfl
  | cons c t ih =>
    rw [List.mem_cons, not_or] at h
    rw [paired_cons (Ne.symm h.1), ih h.2]

/-- A text without line feeds is paired only if it is there as it is. -/
theorem paired_eq_iff {t u : Text} (hu : '\n' ∉ u) : paired t = u ↔ t = u := by
  constructor
  · rintro rfl
    refine (paired_of_not_mem fun h => hu ?_).symm
    exact List.mem_flatMap.2 ⟨'\n', h, by decide⟩
  · rintro rfl
    exact paired_of_not_mem hu

/-- Texts by what stands in front: a line feed or another character. -/
theorem lineInduction {motive : Text → Prop} (nil : motive [])
    (lineFeed : ∀ t, motive t → motive ('\n' :: t))
    (cons : ∀ c t, c ≠ '\n' → motive t → motive (c :: t)) (t : Text) : motive t := by
  induction t with
  | nil => exact nil
  | cons c t ih =>
    by_cases hc : c = '\n'
    · subst hc
      exact lineFeed t ih
    · exact cons c t hc ih

/-- Texts by what stands in front, where nothing is needed of the text behind. -/
theorem lineCases {motive : Text → Prop} (nil : motive []) (lineFeed : ∀ t, motive ('\n' :: t))
    (cons : ∀ c t, c ≠ '\n' → motive (c :: t)) (t : Text) : motive t :=
  lineInduction nil (fun t _ => lineFeed t) (fun c t hc _ => cons c t hc) t

theorem unpaired_cons {c : Char} (hc : c ≠ '\r') (t : Text) :
    unpaired (c :: t) = c :: unpaired t := by
  cases t with
  | nil => rfl
  | cons d t => rw [unpaired, if_neg (by simp [hc])]

/-- Pairing can be undone. -/
theorem unpaired_paired {t : Text} (h : '\r' ∉ t) : unpaired (paired t) = t := by
  induction t using lineInduction with
  | nil => rfl
  | lineFeed t ih =>
    rw [List.mem_cons, not_or] at h
    rw [paired_lineFeed, unpaired, if_pos (by decide), ih h.2]
  | cons c t hc ih =>
    rw [List.mem_cons, not_or] at h
    rw [paired_cons hc, unpaired_cons (Ne.symm h.1), ih h.2]

/-- Pairing line ends neither adds nor takes a line. -/
theorem lineFeeds_paired (t : Text) : (paired t).lineFeeds = t.lineFeeds := by
  induction t using lineInduction with
  | nil => rfl
  | lineFeed t ih =>
    unfold lineFeeds at ih ⊢
    rw [paired_lineFeed, List.count_cons_of_ne (by decide), List.count_cons_self,
      List.count_cons_self, ih]
  | cons c t hc ih =>
    unfold lineFeeds at ih ⊢
    rw [paired_cons hc, List.count_cons_of_ne hc, List.count_cons_of_ne hc, ih]

/-- A pair is in the text only if a line feed is. -/
theorem mem_of_mem_unpaired {t : Text} (h : '\n' ∈ unpaired t) : '\n' ∈ t := by
  fun_induction unpaired t with
  | case1 => exact h
  | case2 => exact h
  | case3 c d rest hcd ih =>
    simp only [Bool.and_eq_true, beq_iff_eq] at hcd
    simp [hcd.2]
  | case4 c d rest hcd ih =>
    rcases List.mem_cons.1 h with h | h
    · exact h ▸ List.mem_cons_self
    · exact List.mem_cons_of_mem _ (ih h)

/-- Nothing else than a line feed shows whether line ends are paired: the next character. -/
theorem head?_paired {x : Char} (hfeed : x ≠ '\n') (hreturn : x ≠ '\r') (t : Text) :
    ((paired t).head? == some x) = (t.head? == some x) := by
  cases t using lineCases with
  | nil => rfl
  | lineFeed t => simp [beq_false_of_ne (Ne.symm hfeed), beq_false_of_ne (Ne.symm hreturn)]
  | cons c t hc =>
    rw [paired_cons hc]
    rfl

end Text

namespace Token

open Text (paired paired_nil paired_lineFeed paired_cons paired_append paired_of_not_mem
  lineInduction lineCases head?_paired)

/-! ## 2. Cuts of a text with paired line ends -/

theorem not_mem_singleton_of_ne {c : Char} (hc : c ≠ '\n') : '\n' ∉ [c] := by
  simpa using Ne.symm hc

def Cut.paired (k : Cut) : Cut := ⟨Text.paired k.taken, Text.paired k.rest⟩

theorem Cut.nothing_paired (t : Text) : Cut.nothing (Text.paired t) = (Cut.nothing t).paired := rfl

theorem Cut.behind_paired {front : Text} (h : '\n' ∉ front) (k : Cut) :
    k.paired.behind front = (k.behind front).paired := by
  unfold behind paired
  rw [paired_append, paired_of_not_mem h]

/-- Cutting in two steps is not disturbed by paired line ends if the first step takes no line
feed. -/
theorem Cut.andThen_paired {k : Cut} {f : Text → Cut} (hk : k.OneLine)
    (hf : f (Text.paired k.rest) = (f k.rest).paired) :
    k.paired.andThen f = (k.andThen f).paired := by
  unfold andThen
  rw [← behind_paired hk, ← hf, paired, paired_of_not_mem hk]

/-- A run of characters that are no line ends. -/
theorem Cut.spanning_paired {p : Char → Bool} (hfeed : p '\n' = false) (hreturn : p '\r' = false)
    (t : Text) : Cut.spanning p (Text.paired t) = (Cut.spanning p t).paired := by
  induction t using lineInduction with
  | nil => rfl
  | lineFeed t => simp [spanning, paired, hfeed, hreturn]
  | cons c t hc ih =>
    unfold spanning paired at ih ⊢
    rw [Cut.mk.injEq] at ih
    rw [paired_cons hc]
    cases hp : p c with
    | true => simp [hp, ih.1, ih.2, paired_cons hc]
    | false => simp [hp, paired_cons hc]

/-! ## 3. Lookahead -/

/-- Names start where they did: neither a line feed nor a carriage return belongs to one. -/
theorem startsIdent_paired (t : Text) : startsIdent (Text.paired t) = startsIdent t := by
  cases t using lineCases with
  | nil => rfl
  | lineFeed t => cases t <;> rfl
  | cons c t hc =>
    rw [paired_cons hc]
    cases t using lineCases with
    | nil => rfl
    | lineFeed t => simp [startsIdent, isLineEnd, isBeyondAscii]
    | cons d t hd => simp [paired_cons hd, startsIdent]

theorem startsDigit_paired (t : Text) : startsDigit (Text.paired t) = startsDigit t := by
  cases t using lineCases with
  | nil => rfl
  | lineFeed t => exact (by decide : isDigitLike '\r' = isDigitLike '\n')
  | cons c t hc =>
    rw [paired_cons hc]
    rfl

theorem startsNumber_paired (c : Char) (t : Text) :
    startsNumber c (Text.paired t) = startsNumber c t := by
  unfold startsNumber
  rw [startsDigit_paired]
  cases t using lineCases with
  | nil => rfl
  | lineFeed t => rfl
  | cons d t hd =>
    rw [paired_cons hd]
    by_cases hdot : d = '.'
    · subst hdot
      simp [startsDigit_paired]
    · simp [hdot]

/-! ## 4. Readers that stay on a line -/

/-- The blanks in front of a line end stop there, also when a carriage return comes first. -/
theorem inlineRun_paired {t : Text} (h : '\r' ∉ t) :
    inlineRun (Text.paired t) = (inlineRun t).paired := by
  induction t using lineInduction with
  | nil => rfl
  | lineFeed t => rfl
  | cons c t hc ih =>
    rw [List.mem_cons, not_or] at h
    have hreturn : (c == '\r') = false := beq_false_of_ne (Ne.symm h.1)
    rw [paired_cons hc, inlineRun, inlineRun, hreturn, Bool.false_and, Bool.false_and, ih h.2]
    simp only [Bool.false_eq_true, if_false]
    split
    · exact Cut.behind_paired (not_mem_singleton_of_ne hc) _
    · rw [← Cut.nothing_paired, paired_cons hc]

theorem nameRun_paired (t : Text) : nameRun (Text.paired t) = (nameRun t).paired := by
  fun_induction nameRun t with
  | case1 => rfl
  | case2 c rest hc ih =>
    have hfeed : '\n' ∉ [c] := not_mem_singleton_of_class isNameChar_lineFeed hc
    rw [paired_cons (Ne.symm (List.ne_of_not_mem_cons hfeed)), nameRun.eq_def]
    simp only [hc, if_true, ih]
    exact Cut.behind_paired hfeed _
  | case3 c hc hb =>
    obtain rfl : c = '\\' := by simpa using hb
    rfl
  | case4 c hc hb d more hd =>
    -- an escaped line end is none, paired or not
    obtain rfl : c = '\\' := by simpa using hb
    rw [paired_cons (by decide)]
    by_cases hfeed : d = '\n'
    · subst hfeed
      rfl
    · rw [paired_cons hfeed, nameRun.eq_def]
      simp [hc, hd, Cut.nothing, Cut.paired, paired_cons, hfeed]
  | case5 c hc hb d more hd ih =>
    have hescape : '\n' ∉ [c, d] := not_mem_escape hb (by simpa using hd)
    have hboth : '\n' ≠ c ∧ '\n' ≠ d := by simpa using hescape
    rw [paired_cons (Ne.symm hboth.1), paired_cons (Ne.symm hboth.2), nameRun.eq_def]
    simp only [hc, hb, hd, ih]
    exact Cut.behind_paired hescape _
  | case6 c rest hc hb =>
    by_cases hfeed : c = '\n'
    · subst hfeed
      rfl
    · rw [paired_cons hfeed, nameRun.eq_def]
      simp [hc, hb, Cut.nothing, Cut.paired, paired_cons hfeed]

/-- One step of the search for the end of an address or an interpolation. -/
theorem onThisLine?_cons (closing c : Char) (t : Text) :
    onThisLine? closing (c :: t) =
      if c == closing then some ⟨[c], t⟩
      else if c == '\n' then none
      else (onThisLine? closing t).map (Cut.behind [c]) := by
  unfold onThisLine?
  by_cases hclosing : c = closing
  · subst hclosing
    simp
  by_cases hfeed : c = '\n'
  · subst hfeed
    simp [hclosing]
  have hgo : (c != closing && c != '\n') = true := by simp [hclosing, hfeed]
  simp only [List.dropWhile_cons, List.takeWhile_cons, hgo, if_true, beq_false_of_ne hclosing,
    beq_false_of_ne hfeed]
  cases t.dropWhile fun c => c != closing && c != '\n' with
  | nil => rfl
  | cons d rest => cases hd : d == closing <;> simp [hd, Cut.behind]

/-- What has to come before the end of the line is looked for up to the carriage return instead. -/
theorem onThisLine?_paired {closing : Char} (hfeed : closing ≠ '\n') (hreturn : closing ≠ '\r')
    (t : Text) : onThisLine? closing (Text.paired t) = (onThisLine? closing t).map Cut.paired := by
  induction t using lineInduction with
  | nil => rfl
  | lineFeed t =>
    simp [onThisLine?_cons, beq_false_of_ne (Ne.symm hfeed), beq_false_of_ne (Ne.symm hreturn)]
  | cons c t hc ih =>
    have hone : '\n' ∉ [c] := not_mem_singleton_of_ne hc
    rw [paired_cons hc, onThisLine?_cons, onThisLine?_cons, ih, beq_false_of_ne hc]
    cases c == closing with
    | true => simp [Cut.paired, paired_of_not_mem hone]
    | false =>
      simp only [Bool.false_eq_true, if_false, Option.map_map]
      exact congrArg (Option.map · _) (funext (Cut.behind_paired hone))

theorem urlArgument?_paired (t : Text) :
    urlArgument? (Text.paired t) = (urlArgument? t).map Cut.paired := by
  have hblanks :=
    Cut.spanning_paired (p := fun c => c == ' ' || c == '\t') (by decide) (by decide) t
  unfold Cut.spanning Cut.paired at hblanks
  rw [Cut.mk.injEq] at hblanks
  unfold urlArgument?
  rw [hblanks.2, onThisLine?_paired (by decide) (by decide)]
  generalize t.dropWhile (fun c => c == ' ' || c == '\t') = rest
  cases rest with
  | nil => rfl
  | cons c rest =>
    by_cases hc : c = '\n'
    · subst hc
      rfl
    · rw [paired_cons hc]
      simp only
      split <;> rfl

theorem urlTail?_paired (t : Text) : urlTail? (Text.paired t) = (urlTail? t).map Cut.paired := by
  cases t using lineCases with
  | nil => rfl
  | lineFeed t => rfl
  | cons c t hc =>
    have hone : '\n' ∉ [c] := not_mem_singleton_of_ne hc
    rw [paired_cons hc, urlTail?, urlTail?, urlArgument?_paired]
    split
    · rw [Option.map_map, Option.map_map]
      exact congrArg (Option.map · _) (funext (Cut.behind_paired hone))
    · rfl

theorem unitRun_paired (t : Text) : unitRun (Text.paired t) = (unitRun t).paired := by
  have hident := startsIdent_paired t
  have hname := nameRun_paired t
  cases t using lineCases with
  | nil => rfl
  | lineFeed t =>
    have hnone : startsIdent ('\n' :: t) = false := by cases t <;> rfl
    rw [hnone, paired_lineFeed] at hident
    simp [unitRun, hnone, hident, Cut.nothing, Cut.paired]
  | cons c t hc =>
    have hone : '\n' ∉ [c] := not_mem_singleton_of_ne hc
    rw [paired_cons hc] at hident hname ⊢
    unfold unitRun
    simp only [hident, hname]
    split
    · rw [Cut.paired, paired_of_not_mem hone]
    · split
      · rfl
      · rw [← Cut.nothing_paired, paired_cons hc]

theorem fractionRun_paired (t : Text) : fractionRun (Text.paired t) = (fractionRun t).paired := by
  cases t using lineCases with
  | nil => rfl
  | lineFeed t => rfl
  | cons c t hc =>
    have hone : '\n' ∉ [c] := not_mem_singleton_of_ne hc
    rw [paired_cons hc]
    unfold fractionRun
    simp only [startsDigit_paired, Cut.spanning_paired isDigitLike_lineFeed (by decide)]
    split
    · exact Cut.behind_paired hone _
    · rw [← Cut.nothing_paired, paired_cons hc]

theorem numberTail_paired (c : Char) (t : Text) :
    numberTail c (Text.paired t) = (numberTail c t).paired := by
  have hdigits : (Cut.spanning isDigitLike t).OneLine := Cut.oneLine_spanning isDigitLike_lineFeed t
  unfold numberTail
  simp only
  rw [Cut.spanning_paired isDigitLike_lineFeed (by decide)]
  split
  · exact Cut.andThen_paired hdigits (unitRun_paired _)
  · rw [Cut.andThen_paired hdigits (fractionRun_paired _)]
    have hnumber := Cut.oneLine_andThen hdigits (oneLine_fractionRun _)
    exact Cut.andThen_paired hnumber (unitRun_paired _)

theorem nameTail_paired {c : Char} {t : Text} (h : startsIdent (c :: t) = true) :
    nameTail c (Text.paired t) = (nameTail c t).paired := by
  unfold nameTail
  split
  · rename_i hc
    obtain rfl : c = '\\' := by simpa using hc
    -- a backslash starts a name only in front of a character that ends no line
    cases t using lineCases with
    | nil => rfl
    | lineFeed t =>
      have hnone : startsIdent ('\\' :: '\n' :: t) = false := rfl
      simp [hnone] at h
    | cons d t hd =>
      rw [paired_cons hd]
      simp only [nameRun_paired]
      exact Cut.behind_paired (not_mem_singleton_of_ne hd) _
  · exact nameRun_paired t

theorem identTail_paired {c : Char} {t : Text} (h : startsIdent (c :: t) = true) :
    identTail c (Text.paired t) = ((identTail c t).1, (identTail c t).2.paired) := by
  have hone := oneLine_nameTail h
  unfold identTail
  rw [nameTail_paired h]
  simp only [Cut.paired, paired_of_not_mem hone, urlTail?_paired]
  split
  · cases urlTail? (nameTail c t).rest with
    | none => simp [paired_of_not_mem hone]
    | some k => exact congrArg (Prod.mk Kind.url) (Cut.behind_paired hone k)
  · simp [paired_of_not_mem hone]

theorem hashTail_paired (t : Text) :
    hashTail (Text.paired t) = ((hashTail t).1, (hashTail t).2.paired) := by
  have hname := Cut.spanning_paired isNameChar_lineFeed (by decide) t
  cases t using lineCases with
  | nil => rfl
  | lineFeed t => rfl
  | cons c t hc =>
    have hone : '\n' ∉ [c] := not_mem_singleton_of_ne hc
    rw [paired_cons hc] at hname ⊢
    unfold hashTail
    simp only [hname, onThisLine?_paired (show '}' ≠ '\n' by decide) (by decide)]
    split
    · cases onThisLine? '}' t with
      | none => simp [← Cut.nothing_paired, paired_cons hc]
      | some k => simp [Cut.behind_paired hone]
    · split
      · rfl
      · simp [← Cut.nothing_paired, paired_cons hc]

/-! ## 5. Comments and strings -/

/-- A comment may hold line ends; they are paired in it. -/
theorem commentEnd?_paired (t : Text) :
    commentEnd? (Text.paired t) = (commentEnd? t).map Cut.paired := by
  induction t using lineInduction with
  | nil => rfl
  | lineFeed t ih =>
    rw [paired_lineFeed, commentEnd?, commentEnd?, commentEnd?, ih]
    cases commentEnd? t <;> simp [Cut.behind, Cut.paired]
  | cons c t hc ih =>
    have hone : '\n' ∉ [c] := not_mem_singleton_of_ne hc
    rw [paired_cons hc, commentEnd?, commentEnd?, head?_paired (by decide) (by decide), ih]
    split
    · rename_i hend
      simp only [Bool.and_eq_true] at hend
      rw [eq_cons_tail_of_head? hend.2, paired_cons (by decide)]
      rfl
    · rw [Option.map_map, Option.map_map]
      exact congrArg (Option.map · _) (funext (Cut.behind_paired hone))

theorem commentTail_paired (t : Text) :
    commentTail (Text.paired t) = ((commentTail t).1, (commentTail t).2.paired) := by
  unfold commentTail
  rw [commentEnd?_paired, head?_paired (by decide) (by decide)]
  cases commentEnd? t with
  | none => rfl
  | some k =>
    have hempty : (k.paired.taken != ['*', '/']) = (k.taken != ['*', '/']) := by
      rw [Bool.eq_iff_iff, bne_iff_ne, bne_iff_ne]
      exact not_congr (Text.paired_eq_iff (by decide))
    simp only [Option.map_some, hempty]

theorem isQuote_lineFeed : isQuote '\n' = false := by decide

/-- In front of a line end a string stops. -/
theorem stringBody_lineEnd {quote c : Char} (hquote : isQuote quote = true)
    (hc : isLineEnd c = true) (t : Text) :
    stringBody quote (c :: t) = (.nothing (c :: t), false) := by
  have hne : (c == quote) = false := by
    refine beq_false_of_ne ?_
    rintro rfl
    rcases (by simpa [isLineEnd] using hc : c = '\n' ∨ c = '\r') with rfl | rfl
    · exact absurd hquote (by decide)
    · exact absurd hquote (by decide)
  rw [stringBody.eq_def]
  simp [hne, hc]

/-- A string that does not go on behind a line end. -/
theorem stringBody_paired {quote : Char} (hquote : isQuote quote = true) {t : Text}
    (h : (stringBody quote t).1.OneLine) :
    stringBody quote (Text.paired t) =
      ((stringBody quote t).1.paired, (stringBody quote t).2) := by
  fun_induction stringBody quote t with
  | case1 => rfl
  | case2 c rest hc =>
    have hone : '\n' ∉ [c] := h
    rw [paired_cons (Ne.symm (List.ne_of_not_mem_cons hone)), stringBody.eq_def]
    simp [hc, Cut.paired, paired_of_not_mem hone]
  | case3 c rest hc hl =>
    by_cases hfeed : c = '\n'
    · subst hfeed
      exact stringBody_lineEnd hquote (by decide) _
    · rw [paired_cons hfeed, stringBody_lineEnd hquote hl, ← Cut.nothing_paired, paired_cons hfeed]
  | case4 c hc hl hb =>
    obtain rfl : c = '\\' := by simpa using hb
    rw [paired_of_not_mem (by decide), stringBody.eq_def]
    simp only [hc, hl]
    rfl
  | case5 c hc hl hb d more ih =>
    have hfront : '\n' ∉ [c, d] := fun hm => h (List.mem_append_left _ hm)
    have hrest : (stringBody quote more).1.OneLine := fun hm => h (List.mem_append_right _ hm)
    have hboth : '\n' ≠ c ∧ '\n' ≠ d := by simpa using hfront
    rw [paired_cons (Ne.symm hboth.1), paired_cons (Ne.symm hboth.2), stringBody.eq_def]
    simp [hc, hl, hb, ih hrest, Cut.behind_paired hfront]
  | case6 c rest hc hl hb ih =>
    have hfront : '\n' ∉ [c] := fun hm => h (List.mem_append_left _ hm)
    have hrest : (stringBody quote rest).1.OneLine := fun hm => h (List.mem_append_right _ hm)
    rw [paired_cons (Ne.symm (List.ne_of_not_mem_cons hfront)), stringBody.eq_def]
    simp [hc, hl, hb, ih hrest, Cut.behind_paired hfront]

/-- With paired line ends no string goes on behind a line end. -/
theorem oneLine_stringBody_paired {quote : Char} (hquote : isQuote quote = true) (t : Text) :
    (stringBody quote (Text.paired t)).1.OneLine := by
  fun_induction stringBody quote t with
  | case1 => exact Cut.oneLine_nothing _
  | case2 c rest hc =>
    have hone : '\n' ∉ [c] := by
      obtain rfl : c = quote := by simpa using hc
      exact not_mem_singleton_of_class isQuote_lineFeed hquote
    rw [paired_cons (Ne.symm (List.ne_of_not_mem_cons hone)), stringBody.eq_def]
    simp only [hc, if_true]
    exact hone
  | case3 c rest hc hl =>
    by_cases hfeed : c = '\n'
    · subst hfeed
      rw [paired_lineFeed, stringBody_lineEnd hquote (by decide)]
      exact Cut.oneLine_nothing _
    · rw [paired_cons hfeed, stringBody_lineEnd hquote hl]
      exact Cut.oneLine_nothing _
  | case4 c hc hl hb =>
    obtain rfl : c = '\\' := by simpa using hb
    rw [paired_of_not_mem (by decide), stringBody.eq_def]
    simp only [hc, hl]
    exact (by decide : '\n' ∉ ['\\'])
  | case5 c hc hl hb d more ih =>
    obtain rfl : c = '\\' := by simpa using hb
    rw [paired_cons (by decide)]
    by_cases hfeed : d = '\n'
    · -- the carriage return is escaped, the line feed behind it is not
      subst hfeed
      rw [paired_lineFeed, stringBody.eq_def]
      simp only [hc, hl, stringBody_lineEnd hquote (show isLineEnd '\n' = true by decide)]
      exact Cut.oneLine_behind (by decide) (Cut.oneLine_nothing _)
    · rw [paired_cons hfeed, stringBody.eq_def]
      simp only [hc, hl]
      exact Cut.oneLine_behind (by simpa using Ne.symm hfeed) ih
  | case6 c rest hc hl hb ih =>
    have hone : '\n' ∉ [c] := by
      simp only [List.mem_singleton]
      rintro rfl
      exact hl (by decide)
    rw [paired_cons (Ne.symm (List.ne_of_not_mem_cons hone)), stringBody.eq_def]
    simp only [hc, hl, hb]
    exact Cut.oneLine_behind hone ih

/-- A string that keeps to its line is read alike. -/
theorem stringTail_paired {quote : Char} (hquote : isQuote quote = true) {t : Text}
    (h : (stringTail quote t).2.OneLine) :
    stringTail quote (Text.paired t) = ((stringTail quote t).1, (stringTail quote t).2.paired) := by
  unfold stringTail at h ⊢
  rw [stringBody_paired hquote h]

/-! ## 6. The first token -/

theorem next_of_isQuote {c : Char} (hc : isQuote c = true) (t : Text) :
    next c t = stringTail c t := by
  rcases (by simpa [isQuote] using hc : c = Text.doubleQuote ∨ c = Text.singleQuote) with rfl | rfl
  · rfl
  · rfl

/-- The first token is no string, or the string ends on the line where it starts. -/
def KeepsToLine (c : Char) (t : Text) : Prop := isQuote c = true → (next c t).2.OneLine

/-- The second token is the first one with paired line ends. -/
def Pairs (r r' : Kind × Cut) : Prop := r' = (r.1, r.2.paired)

/-- The first token of a text that does not start with a line feed. -/
theorem pairs_next {c : Char} {t : Text} (hfeed : c ≠ '\n') (hreturn : '\r' ∉ c :: t)
    (hstring : KeepsToLine c t) : Pairs (next c t) (next c (Text.paired t)) := by
  rw [List.mem_cons, not_or] at hreturn
  have hident : startsIdent (c :: Text.paired t) = startsIdent (c :: t) := by
    rw [← paired_cons hfeed, startsIdent_paired]
  have htail {p : Bool} {x : Char} (hx : (p && t.head? == some x) = true) (hne : x ≠ '\n') :
      (Text.paired t).tail = Text.paired t.tail := by
    rw [Bool.and_eq_true] at hx
    rw [eq_cons_tail_of_head? hx.2, paired_cons hne]
    rfl
  have hbody (hquote : isQuote c = true) : (stringTail c t).2.OneLine := by
    rw [← next_of_isQuote hquote]
    exact hstring hquote
  unfold next
  rw [head?_paired (x := '*') (by decide) (by decide),
    head?_paired (x := '/') (by decide) (by decide), startsIdent_paired, startsNumber_paired,
    hident, beq_false_of_ne (Ne.symm hreturn.1), Bool.false_and, Bool.false_and]
  refine rel_ite (fun h => absurd (by simpa using h) hfeed) fun _ => ?_
  refine rel_ite (fun h => absurd h (by simp)) fun _ => ?_
  refine rel_ite (fun _ => congrArg _ (inlineRun_paired hreturn.2)) fun _ => ?_
  refine rel_ite (fun h => ?_) fun _ => ?_
  · rw [htail h (by decide), commentTail_paired]
    exact congrArg _ (Cut.behind_paired (by decide) _)
  refine rel_ite (fun _ => congrArg _ (Cut.spanning_paired (by decide) (by decide) t)) fun _ => ?_
  refine rel_ite (fun h => stringTail_paired h (hbody h)) fun _ => ?_
  refine rel_ite (fun _ => congrArg _ (nameRun_paired t)) fun _ => ?_
  refine rel_ite (fun _ => hashTail_paired t) fun _ => ?_
  refine rel_ite (fun _ => congrArg _ (numberTail_paired c t)) fun _ => ?_
  exact rel_ite (fun h => identTail_paired h) fun _ => rfl

/-- A text starts with the same token when its line ends are paired. -/
theorem streamFrom_paired_cons (p : Position) {c : Char} {t : Text} (hreturn : '\r' ∉ c :: t)
    (hstring : KeepsToLine c t) :
    streamFrom p (Text.paired (c :: t)) =
      ⟨(next c t).1, Text.paired (c :: (next c t).2.taken), p⟩ ::
        streamFrom (p.after (Text.paired (c :: (next c t).2.taken)))
          (Text.paired (next c t).2.rest) := by
  by_cases hfeed : c = '\n'
  · subst hfeed
    rw [paired_lineFeed, streamFrom_cons]
    rfl
  · have hnext : next c (Text.paired t) = ((next c t).1, (next c t).2.paired) :=
      pairs_next hfeed hreturn hstring
    rw [paired_cons hfeed, streamFrom_cons, hnext, paired_cons hfeed]
    rfl

end Token

/-! ## 7. All tokens -/

def Position.SameSpot (p q : Position) : Prop := p.line = q.line ∧ p.column = q.column

/-- Pairing the line ends of a text does not change in which line and column it ends. -/
theorem Position.SameSpot.after_paired {p q : Position} (h : p.SameSpot q) (t : Text) :
    (p.after (Text.paired t)).SameSpot (q.after t) := by
  induction t using Text.lineInduction generalizing p q with
  | nil => exact h
  | lineFeed t ih =>
    rw [Text.paired_lineFeed, after_cons, after_cons, after_cons]
    exact ih ⟨congrArg (· + 1) h.1, rfl⟩
  | cons c t hc ih =>
    rw [Text.paired_cons hc, after_cons, after_cons]
    refine ih ?_
    simp only [SameSpot, next, beq_false_of_ne hc, Bool.false_eq_true, if_false]
    exact ⟨h.1, congrArg (· + 1) h.2⟩

namespace Token

/-- Two tokens say the same of texts that differ in their line ends: kind, place in lines and
columns, last line, and the lexeme but for its line ends. -/
structure Agrees (a b : Token) : Prop where
  kind : a.kind = b.kind
  line : a.line = b.line
  column : a.column = b.column
  endLine : a.endLine = b.endLine
  lexeme : Text.unpaired a.lexeme = b.lexeme

/-- If the token starts with a quote, it holds no line feed. -/
def InLine (t : Token) : Prop := t.lexeme.head?.any isQuote = true → '\n' ∉ t.lexeme

instance (t : Token) : Decidable t.InLine := inferInstanceAs (Decidable (_ → _))

/-- A token with paired line ends agrees with the original in all but the line ends of its text. -/
theorem agrees_paired {kind : Kind} {lexeme : Text} {p q : Position} (h : p.SameSpot q)
    (hreturn : '\r' ∉ lexeme) : Agrees ⟨kind, Text.paired lexeme, p⟩ ⟨kind, lexeme, q⟩ where
  kind := rfl
  line := h.1
  column := h.2
  endLine := by
    unfold endLine
    simp only [line, Text.lineFeeds_paired, h.1]
  lexeme := Text.unpaired_paired hreturn

/-- A token keeps to its line exactly if what is read of it does. -/
theorem inLine_iff {c : Char} {t : Text} {kind : Kind} {p : Position} :
    InLine ⟨kind, c :: (next c t).2.taken, p⟩ ↔ KeepsToLine c t := by
  have hmem (hquote : isQuote c = true) :
      '\n' ∉ c :: (next c t).2.taken ↔ (next c t).2.OneLine := by
    have hfeed : '\n' ≠ c := by
      rintro rfl
      exact absurd hquote (by decide)
    rw [List.mem_cons, not_or, and_iff_right hfeed]
    rfl
  exact forall_congr' hmem

/-- A string that goes on behind a line feed ends in front of it when line ends are paired. -/
theorem not_agrees_of_continued {c : Char} {t : Text} {p q : Position} (h : ¬KeepsToLine c t)
    (rest : List Token) :
    ¬List.Forall₂ Agrees (streamFrom p (Text.paired (c :: t)))
      (⟨(next c t).1, c :: (next c t).2.taken, q⟩ :: rest) := by
  unfold KeepsToLine at h
  rw [Classical.not_imp] at h
  obtain ⟨hquote, hcontinued⟩ := h
  have hfeed : c ≠ '\n' := by
    rintro rfl
    exact absurd hquote (by decide)
  have hone : '\n' ∉ (next c (Text.paired t)).2.taken := by
    rw [next_of_isQuote hquote]
    exact oneLine_stringBody_paired hquote t
  rw [Text.paired_cons hfeed, streamFrom_cons, List.forall₂_cons]
  rintro ⟨hfirst, -⟩
  have hmem : '\n' ∈ Text.unpaired (c :: (next c (Text.paired t)).2.taken) := by
    rw [hfirst.lexeme]
    exact List.mem_cons_of_mem _ (Classical.not_not.1 hcontinued)
  rcases List.mem_cons.1 (Text.mem_of_mem_unpaired hmem) with hc | htaken
  · exact hfeed hc.symm
  · exact hone htaken

/-- Token by token: the tokens of a text are those of the text with paired line ends as long as no
string goes on behind a line feed. -/
theorem agrees_streamFrom_paired {p q : Position} (h : p.SameSpot q) {t : Text}
    (hreturn : '\r' ∉ t) :
    List.Forall₂ Agrees (streamFrom p (Text.paired t)) (streamFrom q t) ↔
      ∀ token ∈ streamFrom q t, token.InLine := by
  induction q, t using streamFrom.induct generalizing p with
  | case1 => simp
  | case2 q c t lexeme =>
    rename_i ih
    have hsplit : c :: (next c t).2.taken ++ (next c t).2.rest = c :: t :=
      congrArg (c :: ·) (splits_next c t)
    rw [streamFrom_cons, List.forall_mem_cons, inLine_iff]
    by_cases hstring : KeepsToLine c t
    · rw [streamFrom_paired_cons p hreturn hstring, List.forall₂_cons]
      rw [← hsplit, List.mem_append, not_or] at hreturn
      rw [ih (h.after_paired _) hreturn.2]
      exact and_congr (iff_of_true (agrees_paired h hreturn.1) hstring) Iff.rfl
    · exact iff_of_false (not_agrees_of_continued hstring _) fun hall => hstring hall.1

end Token

/-- **Line ends do not matter, but in a string that goes on behind one.** Take a text without
carriage returns, and put one in front of every line feed. The tokens of the two texts agree in
number and, one by one, in kind, line, column, last line and in the lexeme but for its line ends,
if and only if no string of the text holds a line feed. A string can hold one only behind a
backslash; with paired line ends the backslash takes the carriage return alone, and the string ends
in front of the line feed. -/
theorem tokenize_paired (t : Text) (h : '\r' ∉ t) :
    List.Forall₂ Token.Agrees (tokenize (Text.paired t)) (tokenize t) ↔
      ∀ token ∈ tokenize t, token.InLine :=
  Token.agrees_streamFrom_paired ⟨rfl, rfl⟩ h

/-- Blanks, comments and an open string: nothing here goes on behind a line end but a comment. -/
theorem tokenize_paired_comment :
    '\r' ∉ "a \\\n/* b\n */ 'c\n".toList ∧
      List.Forall₂ Token.Agrees (tokenize (Text.paired "a \\\n/* b\n */ 'c\n".toList))
        (tokenize "a \\\n/* b\n */ 'c\n".toList) := by
  have hreturn : '\r' ∉ "a \\\n/* b\n */ 'c\n".toList := by decide
  exact ⟨hreturn, (tokenize_paired _ hreturn).2 (by decide +kernel)⟩

/-- A string with an escaped line feed is one token; with a carriage return in front of the line
feed it is broken off. -/
theorem continued_string_lost :
    '\r' ∉ "\"a\\\nb\"".toList ∧
      ¬List.Forall₂ Token.Agrees (tokenize (Text.paired "\"a\\\nb\"".toList))
        (tokenize "\"a\\\nb\"".toList) := by
  refine ⟨by decide, fun h => ?_⟩
  exact absurd h.length_eq (by decide +kernel)

end HouseStyle
