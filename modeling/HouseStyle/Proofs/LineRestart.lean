/-
HouseStyle.Proofs.LineRestart — behind a line end, reading starts afresh.

What a reader takes from the end of a text must not depend on a line feed that follows there, nor on
anything behind that line feed (`Cut.followedBy`). Names, numbers, blanks, addresses and
interpolations stop in front of a line feed anyway, and their lookahead takes it for the end of the
text. Comments and strings go on behind it, but only those that are never closed. A carriage return
at the end of the text is the one other exception: it would become part of the line break.

So the tokens of a text, a line feed and another text are the tokens of the first, a line break, and
the tokens of the second at the place where the line break has led (`tokenize_append_lineFeed`).

## How the proof goes

There is one lemma for each reader, named after it, and `persists_next` collects them along the
dispatch of `next`. `streamFrom_append` is the induction on the tokens of the first text: the last
of them is where the exceptions matter, all others have something left behind them that stops their
reader. The tokens of the second text are then moved as a whole (`streamFrom_moved`).
-/
import HouseStyle.Proofs.LineFeeds
import HouseStyle.Token.Stream
import Mathlib.Data.List.Basic
import Mathlib.Data.List.TakeWhile

namespace HouseStyle

namespace Token

/-! ## 1. Cuts of a text that goes on -/

/-- The same cut of a text that goes on behind its end. -/
def Cut.followedBy (k : Cut) (more : Text) : Cut := ⟨k.taken, k.rest ++ more⟩

theorem Cut.behind_followedBy (front : Text) (k : Cut) (more : Text) :
    (k.followedBy more).behind front = (k.behind front).followedBy more := rfl

/-- Cutting in two steps does not change if the text goes on, provided neither step does. -/
theorem Cut.andThen_followedBy {k : Cut} {f : Text → Cut} {more : Text}
    (hf : f (k.rest ++ more) = (f k.rest).followedBy more) :
    (k.followedBy more).andThen f = (k.andThen f).followedBy more := by
  unfold andThen
  rw [← behind_followedBy, ← hf]
  rfl

/-- A run of characters ends in front of a line feed that is none of them. -/
theorem Cut.spanning_append {p : Char → Bool} (hp : p '\n' = false) (t b : Text) :
    Cut.spanning p (t ++ '\n' :: b) = (Cut.spanning p t).followedBy ('\n' :: b) := by
  induction t with
  | nil => simp [Cut.spanning, Cut.followedBy, hp]
  | cons c t ih =>
    unfold Cut.spanning Cut.followedBy at ih ⊢
    rw [Cut.mk.injEq] at ih
    cases hc : p c with
    | true => simp [hc, ih.1, ih.2]
    | false => simp [hc]

/-! ## 2. Lookahead -/

theorem head?_append_lineFeed {x : Char} (hx : x ≠ '\n') (t b : Text) :
    ((t ++ '\n' :: b).head? == some x) = (t.head? == some x) := by
  cases t with
  | nil => simpa using Ne.symm hx
  | cons c t => rfl

/-- Whether a name starts is settled within the line. -/
theorem startsIdent_append (t b : Text) : startsIdent (t ++ '\n' :: b) = startsIdent t := by
  match t with
  | [] => cases b <;> simp [startsIdent, isBeyondAscii]
  | [c] => simp [startsIdent, isLineEnd, isBeyondAscii]
  | c :: d :: t => simp [startsIdent]

theorem startsDigit_append (t b : Text) : startsDigit (t ++ '\n' :: b) = startsDigit t := by
  cases t with
  | nil => exact isDigitLike_lineFeed
  | cons c t => rfl

theorem startsNumber_append (c : Char) (t b : Text) :
    startsNumber c (t ++ '\n' :: b) = startsNumber c t := by
  unfold startsNumber
  rw [startsDigit_append]
  cases t with
  | nil => simp
  | cons d t =>
    by_cases hd : d = '.'
    · subst hd
      simp [startsDigit_append]
    · simp [hd]

/-! ## 3. Readers that stop in front of a line feed -/

theorem inlineRun_append {t : Text} (ht : t.getLast? ≠ some '\r') (b : Text) :
    inlineRun (t ++ '\n' :: b) = (inlineRun t).followedBy ('\n' :: b) := by
  induction t with
  | nil => simp [inlineRun, isInlineSpace, Cut.nothing, Cut.followedBy]
  | cons c t ih =>
    have hlast : t.getLast? ≠ some '\r' := by
      intro h
      apply ht
      simp [List.getLast?_cons, h]
    have hreturn : (c == '\r' && (t ++ '\n' :: b).head? == some '\n') =
        (c == '\r' && t.head? == some '\n') := by
      cases t with
      | nil =>
        have hc : c ≠ '\r' := by simpa using ht
        simp [hc]
      | cons d t => rfl
    rw [List.cons_append, inlineRun, inlineRun, hreturn, ih hlast]
    split
    · rfl
    · split <;> rfl

/-- A name ends with its line, whatever comes on the next one. -/
theorem nameRun_append (t b : Text) :
    nameRun (t ++ '\n' :: b) = (nameRun t).followedBy ('\n' :: b) := by
  fun_induction nameRun t with
  | case1 =>
    rw [List.nil_append, nameRun.eq_def]
    simp [isNameChar_lineFeed, Cut.nothing, Cut.followedBy]
  | case2 c rest hc ih =>
    rw [List.cons_append, nameRun.eq_def]
    simp only [hc, if_true, ih]
    rfl
  | case3 c hc hb =>
    -- a backslash at the end of the text escapes no line feed either
    rw [List.cons_append, nameRun.eq_def]
    simp [hc, hb, isLineEnd, Cut.nothing, Cut.followedBy]
  | case4 c hc hb d more hd =>
    rw [List.cons_append, List.cons_append, nameRun.eq_def]
    simp [hc, hb, hd, Cut.nothing, Cut.followedBy]
  | case5 c hc hb d more hd ih =>
    rw [List.cons_append, List.cons_append, nameRun.eq_def]
    simp [hc, hb, hd, ih, Cut.behind, Cut.followedBy]
  | case6 c rest hc hb =>
    rw [List.cons_append, nameRun.eq_def]
    simp [hc, hb, Cut.nothing, Cut.followedBy]

theorem onThisLine?_append {closing : Char} (hc : closing ≠ '\n') (t b : Text) :
    onThisLine? closing (t ++ '\n' :: b) =
      (onThisLine? closing t).map (Cut.followedBy · ('\n' :: b)) := by
  have hs := Cut.spanning_append (p := fun c => c != closing && c != '\n') (by simp) t b
  unfold Cut.spanning Cut.followedBy at hs
  rw [Cut.mk.injEq] at hs
  unfold onThisLine?
  simp only [hs.1, hs.2]
  cases hd : t.dropWhile fun c => c != closing && c != '\n' with
  | nil => simp [Ne.symm hc]
  | cons c rest =>
    cases hcc : c == closing with
    | true => simp [hcc, Cut.followedBy]
    | false => simp [hcc]

theorem urlArgument?_append (t b : Text) :
    urlArgument? (t ++ '\n' :: b) = (urlArgument? t).map (Cut.followedBy · ('\n' :: b)) := by
  have hs := Cut.spanning_append (p := fun c => c == ' ' || c == '\t') (by decide) t b
  unfold Cut.spanning Cut.followedBy at hs
  rw [Cut.mk.injEq] at hs
  unfold urlArgument?
  simp only [hs.2, onThisLine?_append (show ')' ≠ '\n' by decide)]
  cases hd : t.dropWhile fun c => c == ' ' || c == '\t' with
  | nil =>
    -- an argument of blanks is not closed on this line
    have hblank : onThisLine? ')' t = none := by
      have hall := List.dropWhile_eq_nil_iff.1 hd
      unfold onThisLine?
      simp only
      rw [List.dropWhile_eq_nil_iff.2]
      intro c hc
      rcases (by simpa using hall c hc : c = ' ' ∨ c = '\t') with rfl | rfl <;> decide
    simp [hblank, isQuote]
  | cons c rest =>
    cases hq : isQuote c <;> simp [hq]

/-- Whether an address is complete is settled within the line. -/
theorem urlTail?_append (t b : Text) :
    urlTail? (t ++ '\n' :: b) = (urlTail? t).map (Cut.followedBy · ('\n' :: b)) := by
  cases t with
  | nil => simp [urlTail?]
  | cons c t =>
    rw [List.cons_append, urlTail?, urlTail?, urlArgument?_append]
    cases hc : c == '(' <;> simp [Function.comp_def, Cut.behind_followedBy]

theorem unitRun_append (t b : Text) :
    unitRun (t ++ '\n' :: b) = (unitRun t).followedBy ('\n' :: b) := by
  have hi := startsIdent_append t b
  have hn := nameRun_append t b
  cases t with
  | nil =>
    have hnone : startsIdent ('\n' :: b) = false := hi
    simp [unitRun, hnone, Cut.nothing, Cut.followedBy]
  | cons c t =>
    rw [List.cons_append] at hi hn
    unfold unitRun
    simp only [List.cons_append, hi, hn]
    split
    · rfl
    · split <;> rfl

theorem fractionRun_append (t b : Text) :
    fractionRun (t ++ '\n' :: b) = (fractionRun t).followedBy ('\n' :: b) := by
  cases t with
  | nil => simp [fractionRun, Cut.nothing, Cut.followedBy]
  | cons c t =>
    unfold fractionRun
    simp only [List.cons_append]
    rw [startsDigit_append, Cut.spanning_append isDigitLike_lineFeed]
    split <;> rfl

theorem numberTail_append (c : Char) (t b : Text) :
    numberTail c (t ++ '\n' :: b) = (numberTail c t).followedBy ('\n' :: b) := by
  unfold numberTail
  simp only
  rw [Cut.spanning_append isDigitLike_lineFeed]
  split
  · exact Cut.andThen_followedBy (unitRun_append _ b)
  · rw [Cut.andThen_followedBy (fractionRun_append _ b)]
    exact Cut.andThen_followedBy (unitRun_append _ b)

theorem nameTail_append {c : Char} {t : Text} (h : startsIdent (c :: t) = true) (b : Text) :
    nameTail c (t ++ '\n' :: b) = (nameTail c t).followedBy ('\n' :: b) := by
  unfold nameTail
  split
  · rename_i hc
    cases t with
    | nil =>
      -- a backslash alone starts no name
      have hc' : c = '\\' := by simpa using hc
      subst hc'
      exact absurd h (by decide)
    | cons d more =>
      simp only [List.cons_append, nameRun_append]
      rfl
  · exact nameRun_append t b

theorem identTail_append {c : Char} {t : Text} (h : startsIdent (c :: t) = true) (b : Text) :
    identTail c (t ++ '\n' :: b) =
      ((identTail c t).1, (identTail c t).2.followedBy ('\n' :: b)) := by
  unfold identTail
  rw [nameTail_append h]
  simp only [Cut.followedBy, urlTail?_append]
  split
  · cases urlTail? (nameTail c t).rest <;> rfl
  · rfl

theorem hashTail_append (t b : Text) :
    hashTail (t ++ '\n' :: b) = ((hashTail t).1, (hashTail t).2.followedBy ('\n' :: b)) := by
  have hn := Cut.spanning_append isNameChar_lineFeed t b
  cases t with
  | nil => simp [hashTail, isNameChar_lineFeed, Cut.nothing, Cut.followedBy]
  | cons c t =>
    rw [List.cons_append] at hn
    unfold hashTail
    simp only [List.cons_append, hn, onThisLine?_append (show '}' ≠ '\n' by decide)]
    split
    · cases onThisLine? '}' t <;> rfl
    · split <;> rfl

/-! ## 4. Readers that go on behind a line feed -/

/-- A comment that is closed ends at the same mark, whatever follows. -/
theorem commentEnd?_append {t : Text} {k : Cut} (h : commentEnd? t = some k) (more : Text) :
    commentEnd? (t ++ more) = some (k.followedBy more) := by
  induction t generalizing k with
  | nil => simp [commentEnd?] at h
  | cons c t ih =>
    have hne : t ≠ [] := by
      rintro rfl
      simp [commentEnd?] at h
    rw [commentEnd?] at h
    rw [List.cons_append, commentEnd?, List.head?_append_of_ne_nil t hne]
    split at h
    · rename_i hc
      rw [Option.some.injEq] at h
      subst h
      rw [if_pos hc, List.tail_append_of_ne_nil hne]
      rfl
    · rename_i hc
      obtain ⟨k', hk, rfl⟩ := Option.map_eq_some_iff.1 h
      rw [if_neg hc, ih hk]
      rfl

/-- A comment that is closed stays the same when the text goes on. -/
theorem commentTail_append {t : Text} (h : (commentTail t).1 ≠ .malformed) (more : Text) :
    commentTail (t ++ more) = ((commentTail t).1, (commentTail t).2.followedBy more) := by
  unfold commentTail at h ⊢
  cases hk : commentEnd? t with
  | none => simp [hk] at h
  | some k =>
    have hhead : (t ++ more).head? = t.head? := by
      cases t with
      | nil => simp [commentEnd?] at hk
      | cons c t => rfl
    rw [commentEnd?_append hk, hhead]
    rfl

/-- A string that is closed, or broken off at a line end, ends at the same place. -/
theorem stringBody_append {quote : Char} {t : Text}
    (h : (stringBody quote t).2 = true ∨ (stringBody quote t).1.rest ≠ []) (more : Text) :
    stringBody quote (t ++ more) =
      ((stringBody quote t).1.followedBy more, (stringBody quote t).2) := by
  fun_induction stringBody quote t with
  | case1 => simp [Cut.nothing] at h
  | case2 c rest hc =>
    rw [List.cons_append, stringBody.eq_def]
    simp [hc, Cut.followedBy]
  | case3 c rest hc hl =>
    rw [List.cons_append, stringBody.eq_def]
    simp [hc, hl, Cut.nothing, Cut.followedBy]
  | case4 => simp at h
  | case5 c hc hl hb d more' ih =>
    rw [List.cons_append, List.cons_append, stringBody.eq_def]
    simp [hc, hl, hb, ih h, Cut.behind, Cut.followedBy]
  | case6 c rest hc hl hb ih =>
    rw [List.cons_append, stringBody.eq_def]
    simp [hc, hl, hb, ih h, Cut.behind, Cut.followedBy]

/-- The reader of a token is done in front of the end of the text: the token is closed, or something
is left behind it. -/
def Done (r : Kind × Cut) : Prop := r.1 ≠ .malformed ∨ r.2.rest ≠ []

/-- A string that is done stays the same when the text goes on. -/
theorem stringTail_append {quote : Char} {t : Text} (h : Done (stringTail quote t)) (more : Text) :
    stringTail quote (t ++ more) =
      ((stringTail quote t).1, (stringTail quote t).2.followedBy more) := by
  unfold stringTail
  rw [stringBody_append _ more]
  refine h.imp_left fun hk => ?_
  cases hb : (stringBody quote t).2 with
  | true => rfl
  | false => simp [stringTail, hb] at hk

/-- A comment that is never closed takes the whole text. -/
theorem Done.comment {t : Text}
    (h : Done ((commentTail t).1, (commentTail t).2.behind ['*'])) :
    (commentTail t).1 ≠ .malformed := by
  refine h.elim id fun hr hm => ?_
  unfold commentTail at hr hm
  cases hk : commentEnd? t with
  | none => simp [hk, Cut.behind, Cut.everything] at hr
  | some k =>
    rw [hk] at hm
    simp only at hm
    split at hm <;> cases hm

/-! ## 5. The first token -/

/-- A relation between two choices that are made alike. -/
theorem rel_ite {α : Type} {R : α → α → Prop} {p : Prop} [Decidable p] {a b a' b' : α}
    (pos : p → R a a') (neg : ¬ p → R b b') : R (if p then a else b) (if p then a' else b') := by
  split
  · exact pos (by assumption)
  · exact neg (by assumption)

/-- What a reader takes when it is done does not change when the text goes on. -/
def Persists (more : Text) (r r' : Kind × Cut) : Prop :=
  Done r → r' = (r.1, r.2.followedBy more)

/-- The first token of a text does not depend on what follows behind a line feed. -/
theorem persists_next {c : Char} {t : Text} (hr : (c :: t).getLast? ≠ some '\r') (b : Text) :
    Persists ('\n' :: b) (next c t) (next c (t ++ '\n' :: b)) := by
  have hreturn : (c == '\r' && (t ++ '\n' :: b).head? == some '\n') =
      (c == '\r' && t.head? == some '\n') := by
    cases t with
    | nil =>
      have hc : c ≠ '\r' := by simpa using hr
      simp [hc]
    | cons d t => rfl
  have hlast : t.getLast? ≠ some '\r' := by
    intro h
    apply hr
    simp [List.getLast?_cons, h]
  have hident : startsIdent (c :: (t ++ '\n' :: b)) = startsIdent (c :: t) :=
    startsIdent_append (c :: t) b
  have htail {p : Bool} {x : Char} (hx : (p && t.head? == some x) = true) :
      (t ++ '\n' :: b).tail = t.tail ++ '\n' :: b := by
    refine List.tail_append_of_ne_nil fun he => ?_
    simp [he] at hx
  unfold next
  rw [hreturn, head?_append_lineFeed (x := '*') (by decide),
    head?_append_lineFeed (x := '/') (by decide), startsIdent_append, startsNumber_append, hident]
  refine rel_ite (fun _ _ => rfl) fun _ => ?_
  refine rel_ite (fun h _ => ?_) fun _ => ?_
  · rw [htail h]
    rfl
  refine rel_ite (fun _ _ => by rw [inlineRun_append hlast]) fun _ => ?_
  refine rel_ite (fun h hd => ?_) fun _ => ?_
  · rw [htail h, commentTail_append hd.comment]
    rfl
  refine rel_ite (fun _ _ => by rw [Cut.spanning_append (by decide)]) fun _ => ?_
  refine rel_ite (fun _ hd => stringTail_append hd _) fun _ => ?_
  refine rel_ite (fun _ _ => by rw [nameRun_append]) fun _ => ?_
  refine rel_ite (fun _ _ => hashTail_append t b) fun _ => ?_
  refine rel_ite (fun _ _ => by rw [numberTail_append]) fun _ => ?_
  exact rel_ite (fun h _ => identTail_append h b) fun _ _ => rfl

/-! ## 6. All tokens -/

/-- The tokens in front of a line feed, the line break, and the tokens behind it. -/
theorem streamFrom_append (p : Position) {a : Text} (hr : a.getLast? ≠ some '\r')
    (hm : ∀ t ∈ (streamFrom p a).getLast?, t.kind ≠ .malformed) (b : Text) :
    streamFrom p (a ++ '\n' :: b) =
      streamFrom p a ++ ⟨.newline, ['\n'], p.after a⟩ :: streamFrom ((p.after a).next '\n') b := by
  fun_induction streamFrom p a with
  | case1 p =>
    rw [List.nil_append, streamFrom_cons]
    rfl
  | case2 p c t lexeme ih =>
    have hsplit : (next c t).2.taken ++ (next c t).2.rest = t := splits_next c t
    have hplace : p.after (c :: t) = (p.after lexeme).after (next c t).2.rest := by
      rw [← Position.after_append, List.cons_append, hsplit]
    -- only the last token of the text can be one that is never closed
    have hdone : Done (next c t) := by
      by_cases hrest : (next c t).2.rest = []
      · left
        refine hm ⟨(next c t).1, lexeme, p⟩ ?_
        rw [hrest, streamFrom_nil]
        rfl
      · exact .inr hrest
    have hr' : (next c t).2.rest.getLast? ≠ some '\r' := by
      intro h
      apply hr
      rw [← hsplit, ← List.cons_append, List.getLast?_append, h]
      rfl
    have hm' : ∀ u ∈ (streamFrom (p.after lexeme) (next c t).2.rest).getLast?,
        u.kind ≠ .malformed := by
      intro u hu
      apply hm
      rw [List.getLast?_cons, hu]
      rfl
    rw [List.cons_append, streamFrom_cons, persists_next hr b hdone, hplace]
    exact congrArg _ (ih hr' hm')

end Token

/-! ## 7. Tokens further down -/

/-- The place, some characters and some lines further down. -/
def Position.moved (characters lines : Nat) (p : Position) : Position :=
  ⟨p.offset + characters, p.line + lines, p.column⟩

/-- Moving a place and passing a text can be done in either order. -/
theorem Position.after_moved (characters lines : Nat) (p : Position) (t : Text) :
    (p.moved characters lines).after t = (p.after t).moved characters lines := by
  induction t generalizing p with
  | nil => rfl
  | cons c t ih =>
    have hnext : (p.moved characters lines).next c = (p.next c).moved characters lines := by
      unfold next moved
      split <;> simp <;> omega
    rw [after_cons, after_cons, hnext, ih]

def Token.moved (characters lines : Nat) (t : Token) : Token :=
  { t with place := t.place.moved characters lines }

/-- Tokens do not depend on where their text starts, but for their places. -/
theorem Token.streamFrom_moved (characters lines : Nat) (p : Position) (t : Text) :
    streamFrom (p.moved characters lines) t =
      (streamFrom p t).map (Token.moved characters lines) := by
  fun_induction streamFrom p t with
  | case1 => simp
  | case2 p c t lexeme ih =>
    rw [streamFrom_cons, Position.after_moved, List.map_cons]
    exact congrArg _ ih

/-- **Behind a line end, reading starts afresh**: unless the text in front of a line feed ends with
a carriage return or with a string or comment that is never closed, its tokens are what they are
without the rest, the line feed is a line break, and the rest has the tokens that it has alone, as
many characters and lines further down as stand in front of it and in the same columns. -/
theorem tokenize_append_lineFeed (a b : Text) (hreturn : a.getLast? ≠ some '\r')
    (hclosed : ∀ t ∈ (tokenize a).getLast?, t.kind ≠ .malformed) :
    tokenize (a ++ '\n' :: b) =
      tokenize a ++ ⟨.newline, ['\n'], ({} : Position).after a⟩ ::
        (tokenize b).map (Token.moved (a.length + 1) (a.lineFeeds + 1)) := by
  have hoffset : (({} : Position).after a).offset = a.length := by
    rw [Position.offset_after, Nat.zero_add]
  have hline : (({} : Position).after a).line = 1 + a.lineFeeds := Position.line_after {} a
  have hplace : (({} : Position).after a).next '\n' =
      ({} : Position).moved (a.length + 1) (a.lineFeeds + 1) := by
    simp only [Position.next, Position.moved, beq_self_eq_true, if_true, hoffset, hline,
      Position.mk.injEq]
    exact ⟨(Nat.zero_add _).symm, Nat.add_assoc 1 _ 1, trivial⟩
  unfold tokenize
  rw [Token.streamFrom_append {} hreturn hclosed, hplace, Token.streamFrom_moved]

/-- An address that is open at the line end takes nothing of the next line. -/
theorem tokenize_append_lineFeed_address :
    "url(x".toList.getLast? ≠ some '\r' ∧
    (∀ t ∈ (tokenize "url(x".toList).getLast?, t.kind ≠ .malformed) ∧
    tokenize ("url(x".toList ++ '\n' :: "y) \"z".toList) =
      tokenize "url(x".toList ++ ⟨.newline, ['\n'], ({} : Position).after "url(x".toList⟩ ::
        (tokenize "y) \"z".toList).map (Token.moved 6 1) := by
  have hreturn : "url(x".toList.getLast? ≠ some '\r' := by decide
  have hclosed : ∀ t ∈ (tokenize "url(x".toList).getLast?, t.kind ≠ .malformed := by
    decide +kernel
  exact ⟨hreturn, hclosed, tokenize_append_lineFeed _ _ hreturn hclosed⟩

end HouseStyle
