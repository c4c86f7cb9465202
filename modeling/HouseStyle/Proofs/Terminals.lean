/-
HouseStyle.Proofs.Terminals — the reader of terminals and their words.

What is read from the front of a text is a word of the terminal that is reported (`Starts`). The
converse needs that the reader stops where the word ends, which is a matter of what follows it:
behind a simple selector and behind a combinator only some characters can come (`Follows`), and none
of them goes on with the word before. Words that end in a bracket, a parenthesis or a percent sign
end there in any case.

## How the proof goes

The first half is soundness, one `starts_*` lemma per reader. The second half is completeness: a
reader that meets `w ++ rest`, where `w` is a word of its language, takes `w`. The two are put
together in `nextTerminal?_eq_some` and `nextTerminal?_append`; for the latter a terminal is found
by its first character (`Terminal.opens`), so that only one branch of the reader is left.
-/
import HouseStyle.Proofs.Grammar
import HouseStyle.Proofs.Texts
import Mathlib.Data.Bool.AllAny

namespace HouseStyle.Selector

open Computability

/-! ## 1. Words at the front of a text -/

/-- A word of the language, of this length, stands at the front of the text. -/
def Starts (L : Language Char) (t : Text) (n : Nat) : Prop :=
  ∃ w rest, w ∈ L ∧ t = w ++ rest ∧ n = w.length

namespace Starts

variable {L M : Language Char} {t : Text} {n m : Nat}

theorem mono (hle : ∀ w ∈ L, w ∈ M) (h : Starts L t n) : Starts M t n := by
  obtain ⟨w, rest, hw, ht, hn⟩ := h
  exact ⟨w, rest, hle w hw, ht, hn⟩

/-- Words that stand one behind the other make up a word of the product. -/
theorem append (h : Starts L t n) (h' : Starts M (t.drop n) m) : Starts (L * M) t (n + m) := by
  obtain ⟨w, rest, hw, rfl, rfl⟩ := h
  rw [List.drop_left] at h'
  obtain ⟨v, rest, hv, rfl, rfl⟩ := h'
  exact ⟨w ++ v, rest, Language.append_mem_mul hw hv, (List.append_assoc _ _ _).symm,
    List.length_append.symm⟩

theorem one (c : Char) (t : Text) : Starts (char c) (c :: t) 1 :=
  ⟨[c], t, mem_char.2 rfl, rfl, rfl⟩

theorem cons {p : Char → Bool} {c : Char} (hc : p c = true) (h : Starts L t n) :
    Starts (single p * L) (c :: t) (n + 1) := by
  obtain ⟨w, rest, hw, rfl, rfl⟩ := h
  exact ⟨c :: w, rest, cons_mem_single_mul hc hw, rfl, rfl⟩

theorem char_cons (c : Char) (h : Starts L t n) : Starts (char c * L) (c :: t) (n + 1) :=
  cons (beq_self_eq_true c) h

theorem none (h : Starts M t n) : Starts (optional L * M) t n :=
  h.mono fun _ hw => mem_optional_mul.2 (.inl hw)

theorem once (h : Starts (L * M) t n) : Starts (optional L * M) t n :=
  h.mono fun _ hw => mem_optional_mul.2 (.inr hw)

theorem star_nil (h : Starts M t n) : Starts (L∗ * M) t n :=
  h.mono fun _ hw => Language.append_mem_mul (Language.nil_mem_kstar _) hw

/-- A word of `L`, of whatever kind, in front of words of `L` is one more of them. -/
theorem star_cons {N : Language Char} (hN : ∀ w ∈ N, w ∈ L) (h : Starts (N * (L∗ * M)) t n) :
    Starts (L∗ * M) t n := by
  refine h.mono fun w hw => ?_
  rw [← mul_assoc] at hw
  obtain ⟨u, hu, v, hv, rfl⟩ := Language.mem_mul.1 hw
  obtain ⟨x, hx, y, hy, rfl⟩ := Language.mem_mul.1 hu
  exact Language.append_mem_mul (append_mem_star (hN x hx) hy) hv

/-- The characters at the front that pass a test are a row of such characters. -/
theorem takeWhile (p : Char → Bool) (t : Text) :
    Starts (single p)∗ t (t.takeWhile p).length := by
  refine ⟨t.takeWhile p, t.dropWhile p, mem_star_single.2 fun c hc => ?_,
    List.takeWhile_append_dropWhile.symm, rfl⟩
  exact List.mem_takeWhile_imp hc

theorem takeWhile_many {p : Char → Bool} (h : (t.takeWhile p).isEmpty = false) :
    Starts (many (single p)) t (t.takeWhile p).length := by
  refine ⟨t.takeWhile p, t.dropWhile p, mem_many_single.2 ⟨?_, fun c hc => ?_⟩,
    List.takeWhile_append_dropWhile.symm, rfl⟩
  · exact List.isEmpty_eq_false_iff.1 h
  · exact List.mem_takeWhile_imp hc

end Starts

theorem drop_length_takeWhile (p : Char → Bool) (t : Text) :
    t.drop (t.takeWhile p).length = t.dropWhile p := by
  calc t.drop (t.takeWhile p).length
      = (t.takeWhile p ++ t.dropWhile p).drop (t.takeWhile p).length := by
        rw [List.takeWhile_append_dropWhile]
    _ = t.dropWhile p := List.drop_left

/-! ## 2. What is read is a word -/

theorem starts_name {start : Char → Bool} {t : Text} {n : Nat}
    (h : nameLength? start t = some n) : Starts (name start) t n := by
  unfold nameLength? at h
  split at h
  · cases h
  · rename_i c rest
    split at h
    · rename_i hstart
      obtain rfl := Option.some.inj h
      rw [Nat.add_comm]
      exact .none (.cons hstart (.takeWhile _ _))
    · split at h
      · rename_i hhyphen
        split at h
        · cases h
        · rename_i d more
          split at h
          · rename_i hstart
            obtain rfl := Option.some.inj h
            rw [Nat.add_comm]
            exact .once (.cons hhyphen (.cons hstart (.takeWhile _ _)))
          · cases h
      · cases h

theorem starts_percentage {t : Text} {n : Nat} (h : percentageLength? t = some n) :
    Starts (digits * (optional (char '.' * digits) * char '%')) t n := by
  unfold percentageLength? at h
  dsimp only at h
  split at h
  · cases h
  · rename_i hwhole
    have hdigits : Starts digits t _ := .takeWhile_many (Bool.eq_false_iff.2 hwhole)
    split at h
    · rename_i rest hrest
      obtain rfl := Option.some.inj h
      refine hdigits.append ?_
      rw [drop_length_takeWhile, hrest]
      exact .none (.one '%' rest)
    · rename_i more hrest
      split at h
      · rename_i rest hsign
        split at h
        · cases h
        · rename_i hfraction
          obtain rfl := Option.some.inj h
          have hfraction : Starts digits more _ := .takeWhile_many (Bool.eq_false_iff.2 hfraction)
          rw [Nat.add_assoc]
          refine hdigits.append ?_
          rw [drop_length_takeWhile, hrest]
          refine .once ?_
          rw [mul_assoc]
          refine .char_cons '.' (hfraction.append ?_)
          rw [drop_length_takeWhile, hsign]
          exact .one '%' rest
      · cases h
    · cases h

/-- The reader of attributes, outside quotes and inside them. -/
theorem starts_attribute (t : Text) :
    (∀ n, attributeLength? none t = some n → Starts (attributeBody * char ']') t n) ∧
      ∀ quote, quote = Text.doubleQuote ∨ quote = Text.singleQuote → ∀ n,
        attributeLength? (some quote) t = some n →
        Starts ((single (· != quote))∗ * (char quote * (attributeBody * char ']'))) t n := by
  induction t with
  | nil => exact ⟨fun _ h => (by cases h), fun _ _ _ h => (by cases h)⟩
  | cons c rest ih =>
    obtain ⟨ihOutside, ihInside⟩ := ih
    constructor
    · intro n h
      rw [attributeLength?] at h
      split at h
      · rename_i hclose
        obtain rfl := Option.some.inj h
        rw [eq_of_beq hclose]
        exact .star_nil (.one ']' rest)
      · rename_i hclose
        split at h
        · rename_i hquote
          obtain ⟨m, hm, rfl⟩ := Option.map_eq_some_iff.1 h
          have hc : c = Text.doubleQuote ∨ c = Text.singleQuote := by simpa using hquote
          have hread := (ihInside c hc m hm).char_cons c
          rw [← mul_assoc, ← mul_assoc, mul_assoc (char c)] at hread
          refine .star_cons (fun w hw => .inr ?_) hread
          rcases hc with rfl | rfl
          · exact .inl hw
          · exact .inr hw
        · rename_i hquote
          obtain ⟨m, hm, rfl⟩ := Option.map_eq_some_iff.1 h
          have hplain : isPlain c = true := by
            simp only [isPlain, bne, Bool.and_eq_true, Bool.not_eq_true']
            simp only [Bool.or_eq_true, not_or, Bool.not_eq_true] at hclose hquote
            exact ⟨⟨hclose, hquote.1⟩, hquote.2⟩
          exact .star_cons (fun w hw => .inl hw) ((ihOutside m hm).cons hplain)
    · intro quote hquote n h
      rw [attributeLength?] at h
      obtain ⟨m, hm, rfl⟩ := Option.map_eq_some_iff.1 h
      by_cases hc : c = quote
      · subst hc
        rw [if_pos (beq_self_eq_true c)] at hm
        exact .star_nil ((ihOutside m hm).char_cons c)
      · rw [if_neg (by simpa using hc)] at hm
        exact .star_cons (fun w hw => hw) ((ihInside quote hquote m hm).cons (by simpa using hc))

/-- The reader of arguments, outside inner parentheses and inside them. -/
theorem starts_argument (t : Text) :
    (∀ n, argumentLength? false t = some n → Starts (argumentBody * char ')') t n) ∧
      ∀ n, argumentLength? true t = some n →
        Starts ((single isNoParenthesis)∗ * (char ')' * (argumentBody * char ')'))) t n := by
  induction t with
  | nil => exact ⟨fun _ h => (by cases h), fun _ h => (by cases h)⟩
  | cons c rest ih =>
    obtain ⟨ihOutside, ihInside⟩ := ih
    have hplain (hopen : ¬(c == '(') = true) (hclose : ¬(c == ')') = true) :
        isNoParenthesis c = true := by
      simp [isNoParenthesis, bne, hopen, hclose]
    constructor
    · intro n h
      rw [argumentLength?] at h
      split at h
      · rename_i hopen
        rw [if_neg Bool.false_ne_true] at h
        obtain ⟨m, hm, rfl⟩ := Option.map_eq_some_iff.1 h
        rw [eq_of_beq hopen]
        have hread := (ihInside m hm).char_cons '('
        rw [← mul_assoc, ← mul_assoc, mul_assoc (char '(')] at hread
        exact .star_cons (fun w hw => .inr hw) hread
      · rename_i hopen
        split at h
        · rename_i hclose
          rw [if_neg Bool.false_ne_true] at h
          obtain rfl := Option.some.inj h
          rw [eq_of_beq hclose]
          exact .star_nil (.one ')' rest)
        · rename_i hclose
          obtain ⟨m, hm, rfl⟩ := Option.map_eq_some_iff.1 h
          exact .star_cons (fun w hw => .inl hw) ((ihOutside m hm).cons (hplain hopen hclose))
    · intro n h
      rw [argumentLength?] at h
      split at h
      · cases h
      · rename_i hopen
        split at h
        · rename_i hclose
          rw [if_pos rfl] at h
          obtain ⟨m, hm, rfl⟩ := Option.map_eq_some_iff.1 h
          rw [eq_of_beq hclose]
          exact .star_nil ((ihOutside m hm).char_cons ')')
        · rename_i hclose
          obtain ⟨m, hm, rfl⟩ := Option.map_eq_some_iff.1 h
          exact .star_cons (fun w hw => hw) ((ihInside m hm).cons (hplain hopen hclose))

theorem starts_optionalArgument (t : Text) :
    Starts (optional (char '(' * (argumentBody * char ')'))) t (optionalArgument t) := by
  have hnone : Starts (optional (char '(' * (argumentBody * char ')'))) t 0 :=
    ⟨[], t, mem_optional.2 (.inl rfl), rfl, rfl⟩
  unfold optionalArgument
  split
  · rename_i rest
    split
    · rename_i n hn
      have hread := ((starts_argument rest).1 n hn).char_cons '('
      exact hread.mono fun w hw => mem_optional.2 (.inr hw)
    · exact hnone
  · exact hnone

/-- The reader of a pseudo-class takes a word of its language. -/
theorem starts_pseudo {t : Text} {n : Nat} (h : pseudoLength? t = some n) : Starts pseudo t n := by
  unfold pseudoLength? at h
  split at h
  · rename_i m hm
    obtain rfl := Option.some.inj h
    exact (starts_name hm).append (starts_optionalArgument _)
  · cases h

/-- The reader of an element takes a word of the terminal that it gives. -/
theorem starts_element {t : Text} {T : Terminal} {n : Nat} (h : element? t = some (T, n)) :
    T.isHead = true ∧ Starts T.language t n := by
  unfold element? at h
  split at h
  · cases h
  · rename_i c rest
    split at h
    · rename_i hc
      cases h
      rw [eq_of_beq hc]
      exact ⟨rfl, .one '*' rest⟩
    · split at h
      · rename_i hc
        cases h
        rw [eq_of_beq hc, Nat.add_comm]
        exact ⟨rfl, .char_cons '&' (.takeWhile _ _)⟩
      · split at h
        · rename_i hc
          dsimp only at h
          split at h
          · cases h
          · rename_i hsome
            cases h
            rw [eq_of_beq hc, Nat.add_comm]
            refine ⟨rfl, .char_cons '%' (.takeWhile_many ?_)⟩
            rw [List.isEmpty_eq_false_iff]
            exact fun hnil => hsome (congrArg List.length hnil)
        · split at h
          · rename_i m hm
            cases h
            exact ⟨rfl, starts_name hm⟩
          · obtain ⟨m, hm, he⟩ := Option.map_eq_some_iff.1 h
            cases he
            exact ⟨rfl, starts_percentage hm⟩

/-- The reader of a simple selector takes a word of the terminal that it gives. -/
theorem starts_simple {t : Text} {T : Terminal} {n : Nat} (h : simple? t = some (T, n)) :
    T.isTail = true ∧ Starts T.language t n := by
  unfold simple? at h
  split at h
  · cases h
  · rename_i c rest
    split at h
    · rename_i hc
      obtain ⟨m, hm, he⟩ := Option.map_eq_some_iff.1 h
      cases he
      rw [eq_of_beq hc]
      exact ⟨rfl, (starts_name hm).char_cons '.'⟩
    · split at h
      · rename_i hc
        obtain ⟨m, hm, he⟩ := Option.map_eq_some_iff.1 h
        cases he
        rw [eq_of_beq hc]
        exact ⟨rfl, (starts_name hm).char_cons '#'⟩
      · split at h
        · rename_i hc
          obtain ⟨m, hm, he⟩ := Option.map_eq_some_iff.1 h
          cases he
          rw [eq_of_beq hc]
          exact ⟨rfl, ((starts_attribute rest).1 m hm).char_cons '['⟩
        · split at h
          · rename_i hc
            rw [eq_of_beq hc]
            split at h
            · obtain ⟨m, hm, he⟩ := Option.map_eq_some_iff.1 h
              cases he
              exact ⟨rfl, ((starts_pseudo hm).char_cons ':').char_cons ':'⟩
            · obtain ⟨m, hm, he⟩ := Option.map_eq_some_iff.1 h
              cases he
              exact ⟨rfl, (starts_pseudo hm).char_cons ':'⟩
          · cases h

theorem starts_space (t : Text) : Starts (optional (char ' ')) t (spaceLength t) := by
  unfold spaceLength
  split
  · rename_i hspace
    obtain ⟨rest, rfl⟩ := List.head?_eq_some_iff.1 (eq_of_beq hspace)
    exact (Starts.one ' ' rest).mono fun w hw => mem_optional.2 (.inr hw)
  · exact ⟨[], t, mem_optional.2 (.inl rfl), rfl, rfl⟩

/-- The reader of a combinator takes a word of the terminal that it gives. -/
theorem starts_combinator {t : Text} {T : Terminal} {n : Nat}
    (h : combinator? t = some (T, n)) : T.isCombinator = true ∧ Starts T.language t n := by
  have hspaced (c : Char) (rest : Text) (hdrop : t.drop (spaceLength t) = c :: rest) :
      Starts (spaced c) t (spaceLength t + 1 + spaceLength rest) := by
    rw [Nat.add_assoc, Nat.add_comm 1]
    refine (starts_space t).append ?_
    rw [hdrop]
    exact .char_cons c (starts_space rest)
  have hspace (hfront : ¬spaceLength t = 0) : Starts (char ' ') t 1 := by
    unfold spaceLength at hfront
    split at hfront
    · rename_i hhead
      obtain ⟨rest, rfl⟩ := List.head?_eq_some_iff.1 (eq_of_beq hhead)
      exact .one ' ' rest
    · exact absurd rfl hfront
  unfold combinator? at h
  dsimp only at h
  split at h
  · split at h
    · cases h
    · rename_i hfront
      cases h
      exact ⟨rfl, hspace hfront⟩
  · rename_i c rest hdrop
    split at h
    · rename_i sign hsign
      cases h
      refine ⟨rfl, ?_⟩
      unfold signCombinator? at hsign
      split at hsign <;> cases hsign <;> exact hspaced _ rest hdrop
    · split at h
      · cases h
      · rename_i hfront
        cases h
        exact ⟨rfl, hspace hfront⟩

/-- What is read is a word of a terminal that may come. -/
theorem nextTerminal?_eq_some {begun : Bool} {t : Text} {T : Terminal} {n : Nat}
    (h : nextTerminal? begun t = some (T, n)) :
    T.mayCome begun = true ∧ Starts T.language t n := by
  unfold nextTerminal? at h
  split at h
  · rename_i found hfound
    cases h
    obtain ⟨htail, hword⟩ := starts_simple hfound
    refine ⟨?_, hword⟩
    cases begun
    · exact Terminal.mayCome_false.2 (.inr htail)
    · exact Terminal.mayCome_true.2 (.inl htail)
  · cases begun
    · obtain ⟨hhead, hword⟩ := starts_element h
      exact ⟨Terminal.mayCome_false.2 (.inl hhead), hword⟩
    · obtain ⟨hcombinator, hword⟩ := starts_combinator h
      exact ⟨Terminal.mayCome_true.2 (.inr hcombinator), hword⟩

/-! ## 3. Where a word ends -/

/-- The character may be the first one where a compound has begun, or where none has. -/
def mayFollow (begun : Bool) (c : Char) : Bool :=
  if begun then ".#[: >+~".toList.contains c else !" >+~".toList.contains c

/-- The text is at its end, or goes on with a character that may come here. -/
def Follows (begun : Bool) (rest : Text) : Prop := ∀ c ∈ rest.head?, mayFollow begun c = true

/-- Behind a simple selector neither a name nor a pseudo-class goes on. -/
theorem Follows.stop {rest : Text} (h : Follows true rest) :
    ∀ c ∈ rest.head?, isNamePart c = false ∧ c ≠ '(' := by
  intro c hc
  have hmem : c ∈ ".#[: >+~".toList := by simpa [mayFollow] using h c hc
  have hall : ∀ c ∈ ".#[: >+~".toList, isNamePart c = false ∧ c ≠ '(' := by
    rw [← List.all_iff_forall_prop]
    decide
  exact hall c hmem

/-- Behind a combinator no other combinator comes. -/
theorem Follows.not_sign {rest : Text} (h : Follows false rest) :
    ∀ c ∈ rest.head?, c ≠ ' ' ∧ signCombinator? c = none := by
  intro c hc
  have hno : c ∉ " >+~".toList := by simpa [mayFollow] using h c hc
  constructor
  · rintro rfl
    exact hno (by decide)
  · unfold signCombinator?
    split
    · exact absurd (by decide) hno
    · exact absurd (by decide) hno
    · exact absurd (by decide) hno
    · rfl

/-! ## 4. A word is what is read -/

theorem nameLength?_append {start : Char → Bool} (hstart : start '-' = false) {w rest : Text}
    (hw : w ∈ name start) (hrest : ∀ c ∈ rest.head?, isNamePart c = false) :
    nameLength? start (w ++ rest) = some w.length := by
  have hparts {v : Text} (hv : v ∈ (single isNamePart)∗) :
      ((v ++ rest).takeWhile isNamePart).length = v.length := by
    rw [Text.takeWhile_append_stop (mem_star_single.1 hv) hrest]
  rcases mem_optional_mul.1 hw with hw | hw
  · obtain ⟨c, v, hc, hv, rfl⟩ := mem_single_mul.1 hw
    simp [nameLength?, hc, hparts hv, Nat.add_comm]
  · obtain ⟨u, hu, rfl⟩ := mem_char_mul.1 hw
    obtain ⟨c, v, hc, hv, rfl⟩ := mem_single_mul.1 hu
    simp [nameLength?, hstart, hc, hparts hv]
    omega

theorem percentageLength?_append {w : Text}
    (hw : w ∈ digits * (optional (char '.' * digits) * char '%')) (rest : Text) :
    percentageLength? (w ++ rest) = some w.length := by
  obtain ⟨whole, hwhole, behind, hbehind, rfl⟩ := Language.mem_mul.1 hw
  obtain ⟨hne, hdigits⟩ := mem_many_single.1 hwhole
  have hsign (t : Text) : ∀ c ∈ ('%' :: t).head?, isDecimalDigit c = false := by
    rintro _ ⟨⟩
    decide
  rw [List.append_assoc]
  unfold percentageLength?
  rcases mem_optional_mul.1 hbehind with hbehind | hbehind
  · obtain rfl := mem_char.1 hbehind
    simp [Text.takeWhile_append_stop hdigits (hsign rest),
      Text.dropWhile_append_stop hdigits (hsign rest), hne]
  · rw [mul_assoc] at hbehind
    obtain ⟨more, hmore, rfl⟩ := mem_char_mul.1 hbehind
    obtain ⟨fraction, hfraction, sign, hpercent, rfl⟩ := Language.mem_mul.1 hmore
    obtain rfl := mem_char.1 hpercent
    obtain ⟨hne', hdigits'⟩ := mem_many_single.1 hfraction
    have hdot : ∀ c ∈ ('.' :: (fraction ++ '%' :: rest)).head?, isDecimalDigit c = false := by
      rintro _ ⟨⟩
      decide
    simp [Text.takeWhile_append_stop hdigits hdot, Text.dropWhile_append_stop hdigits hdot, hne,
      Text.takeWhile_append_stop hdigits' (hsign rest),
      Text.dropWhile_append_stop hdigits' (hsign rest), hne']
    omega

/-- A quotation is read up to its end. -/
theorem attributeLength?_quoted {quote : Char} {v : Text} (hv : v ∈ (single (· != quote))∗)
    (t : Text) :
    attributeLength? (some quote) (v ++ quote :: t) =
      (attributeLength? none t).map (· + (v.length + 1)) := by
  have hall := mem_star_single.1 hv
  clear hv
  induction v with
  | nil => simp [attributeLength?]
  | cons c v ih =>
    obtain ⟨hc, hv⟩ := List.forall_mem_cons.1 hall
    have hne : ¬c = quote := by simpa using hc
    simp [attributeLength?, hne, ih hv, Option.map_map, Function.comp_def, Nat.add_assoc]

/-- The reader of an attribute stops at the bracket that closes it; brackets in quotes do not
count. -/
theorem attributeLength?_append {w : Text} (hw : w ∈ attributeBody) (rest : Text) :
    attributeLength? none (w ++ ']' :: rest) = some (w.length + 1) := by
  refine star_induction
    (C := fun w => attributeLength? none (w ++ ']' :: rest) = some (w.length + 1)) ?_ ?_ hw
  · simp [attributeLength?]
  · intro u v hu _ hv
    have hquoted {quote : Char} (hq : quote = Text.doubleQuote ∨ quote = Text.singleQuote)
        (hu : u ∈ quotation quote) :
        attributeLength? none ((u ++ v) ++ ']' :: rest) = some ((u ++ v).length + 1) := by
      obtain ⟨u', hu', rfl⟩ := mem_char_mul.1 hu
      obtain ⟨x, hx, y, hy, rfl⟩ := Language.mem_mul.1 hu'
      obtain rfl := mem_char.1 hy
      have hopen : attributeLength? none (quote :: (x ++ quote :: (v ++ ']' :: rest))) =
          (attributeLength? (some quote) (x ++ quote :: (v ++ ']' :: rest))).map (· + 1) := by
        rw [attributeLength?]
        rcases hq with rfl | rfl <;> rfl
      have happend : ((quote :: (x ++ [quote])) ++ v) ++ ']' :: rest =
          quote :: (x ++ quote :: (v ++ ']' :: rest)) := by simp
      rw [happend, hopen, attributeLength?_quoted hx, hv]
      simp
      omega
    rcases hu with ⟨c, hc, rfl⟩ | hu | hu
    · simp only [isPlain, bne, Bool.and_eq_true, Bool.not_eq_true'] at hc
      simp [attributeLength?, hc, hv]
    · exact hquoted (.inl rfl) hu
    · exact hquoted (.inr rfl) hu

/-- Inner parentheses are read up to their end. -/
theorem argumentLength?_inner {v : Text} (hv : v ∈ (single isNoParenthesis)∗) (t : Text) :
    argumentLength? true (v ++ ')' :: t) =
      (argumentLength? false t).map (· + (v.length + 1)) := by
  have hall := mem_star_single.1 hv
  clear hv
  induction v with
  | nil => simp [argumentLength?]
  | cons c v ih =>
    obtain ⟨hc, hv⟩ := List.forall_mem_cons.1 hall
    simp only [isNoParenthesis, bne, Bool.and_eq_true, Bool.not_eq_true'] at hc
    simp [argumentLength?, hc, ih hv, Option.map_map, Function.comp_def, Nat.add_assoc]

/-- The reader of an argument stops at the parenthesis that closes it. -/
theorem argumentLength?_append {w : Text} (hw : w ∈ argumentBody) (rest : Text) :
    argumentLength? false (w ++ ')' :: rest) = some (w.length + 1) := by
  refine star_induction
    (C := fun w => argumentLength? false (w ++ ')' :: rest) = some (w.length + 1)) ?_ ?_ hw
  · simp [argumentLength?]
  · intro u v hu _ hv
    rcases hu with ⟨c, hc, rfl⟩ | hu
    · simp only [isNoParenthesis, bne, Bool.and_eq_true, Bool.not_eq_true'] at hc
      simp [argumentLength?, hc, hv]
    · obtain ⟨u', hu', rfl⟩ := mem_char_mul.1 hu
      obtain ⟨x, hx, y, hy, rfl⟩ := Language.mem_mul.1 hu'
      obtain rfl := mem_char.1 hy
      have happend : (('(' :: (x ++ [')'])) ++ v) ++ ')' :: rest =
          '(' :: (x ++ ')' :: (v ++ ')' :: rest)) := by simp
      rw [happend, argumentLength?, if_pos (beq_self_eq_true _), if_neg Bool.false_ne_true,
        argumentLength?_inner hx, hv]
      simp
      omega

/-- The reader of a pseudo-class finds all of it if what follows can follow a compound. -/
theorem pseudoLength?_append {w rest : Text} (hw : w ∈ pseudo) (hrest : Follows true rest) :
    pseudoLength? (w ++ rest) = some w.length := by
  obtain ⟨u, hu, v, hv, rfl⟩ := Language.mem_mul.1 hw
  have harg : optionalArgument (v ++ rest) = v.length := by
    rcases mem_optional.1 hv with rfl | hv
    · cases rest with
      | nil => rfl
      | cons c rest =>
        have hc := (hrest.stop c rfl).2
        simp [optionalArgument, hc]
    · obtain ⟨v', hv', rfl⟩ := mem_char_mul.1 hv
      obtain ⟨x, hx, y, hy, rfl⟩ := Language.mem_mul.1 hv'
      obtain rfl := mem_char.1 hy
      simp [optionalArgument, argumentLength?_append hx]
  have hhead : ∀ c ∈ (v ++ rest).head?, isNamePart c = false := by
    rcases mem_optional.1 hv with rfl | hv
    · exact fun c hc => (hrest.stop c hc).1
    · obtain ⟨v', -, rfl⟩ := mem_char_mul.1 hv
      intro c hc
      cases hc
      decide
  unfold pseudoLength?
  rw [List.append_assoc, nameLength?_append (by decide) hu hhead]
  simp [harg]

/-! ## 5. Terminals by their first characters -/

/-- A word of the terminal may start with the character. -/
def Terminal.opens : Terminal → Char → Bool
  | .typeName, c => isNameStart c || c == '-'
  | .universal, c => c == '*'
  | .parentRef, c => c == '&'
  | .placeholder, c => c == '%'
  | .percentage, c => isDecimalDigit c
  | .className, c => c == '.'
  | .id, c => c == '#'
  | .attribute, c => c == '['
  | .pseudoElement, c => c == ':'
  | .pseudoClass, c => c == ':'
  | .combinator .child, c => c == ' ' || c == '>'
  | .combinator .nextSibling, c => c == ' ' || c == '+'
  | .combinator .subsequentSibling, c => c == ' ' || c == '~'
  | .combinator .descendant, c => c == ' '

theorem exists_cons_of_mem_name {start : Char → Bool} {w : Text} (hw : w ∈ name start) :
    ∃ c v, w = c :: v ∧ (start c || c == '-') = true := by
  rcases mem_optional_mul.1 hw with hw | hw
  · obtain ⟨c, v, hc, -, rfl⟩ := mem_single_mul.1 hw
    exact ⟨c, v, rfl, by simp [hc]⟩
  · obtain ⟨v, -, rfl⟩ := mem_char_mul.1 hw
    exact ⟨'-', v, rfl, by simp⟩

theorem exists_cons_of_mem_spaced {sign : Char} {w : Text} (hw : w ∈ spaced sign) :
    ∃ c v, w = c :: v ∧ (c == ' ' || c == sign) = true := by
  rcases mem_optional_mul.1 hw with hw | hw
  · obtain ⟨v, -, rfl⟩ := mem_char_mul.1 hw
    exact ⟨sign, v, rfl, by simp⟩
  · obtain ⟨v, -, rfl⟩ := mem_char_mul.1 hw
    exact ⟨' ', v, rfl, by simp⟩

theorem exists_cons_of_mem_char_mul {c : Char} {L : Language Char} {w : Text}
    (hw : w ∈ char c * L) : ∃ d v, w = d :: v ∧ (d == c) = true := by
  obtain ⟨v, -, rfl⟩ := mem_char_mul.1 hw
  exact ⟨c, v, rfl, beq_self_eq_true c⟩

theorem exists_cons_of_mem_char {c : Char} {w : Text} (hw : w ∈ char c) :
    ∃ d v, w = d :: v ∧ (d == c) = true := by
  obtain rfl := mem_char.1 hw
  exact ⟨c, [], rfl, beq_self_eq_true c⟩

/-- The words of a terminal are not empty, and their first characters are those that open it. -/
theorem Terminal.exists_cons_of_mem {T : Terminal} {w : Text} (hw : w ∈ T.language) :
    ∃ c v, w = c :: v ∧ T.opens c = true := by
  cases T with
  | typeName => exact exists_cons_of_mem_name hw
  | universal => exact exists_cons_of_mem_char hw
  | percentage =>
    obtain ⟨u, hu, v, -, rfl⟩ := Language.mem_mul.1 hw
    obtain ⟨c, u', hc, -, rfl⟩ := mem_single_mul.1 hu
    exact ⟨c, u' ++ v, rfl, hc⟩
  | combinator sign =>
    cases sign with
    | descendant => exact exists_cons_of_mem_char hw
    | _ => exact exists_cons_of_mem_spaced hw
  | _ => exact exists_cons_of_mem_char_mul hw

/-- A terminal that may come opens with a character that may come. -/
theorem Terminal.mayFollow_of_opens {begun : Bool} {T : Terminal} {c : Char}
    (hcome : T.mayCome begun = true) (hc : T.opens c = true) : mayFollow begun c = true := by
  cases begun with
  | true =>
    cases T with
    | typeName | universal | parentRef | placeholder | percentage => cases hcome
    | combinator sign =>
      cases sign with
      | descendant =>
        obtain rfl := eq_of_beq hc
        decide
      | _ =>
        rcases Bool.or_eq_true_iff.1 hc with hc | hc <;> obtain rfl := eq_of_beq hc <;> decide
    | _ =>
      obtain rfl := eq_of_beq hc
      decide
  | false =>
    have hno : ∀ c ∈ " >+~".toList, T.opens c = false := by
      rw [← List.all_iff_forall_prop]
      rcases mayCome_false.1 hcome with h | h <;> cases T <;> cases h <;> decide
    rw [mayFollow, if_neg Bool.false_ne_true, Bool.not_eq_true', List.contains_eq_mem,
      decide_eq_false_iff_not]
    intro hmem
    rw [hno c hmem] at hc
    cases hc

theorem Terminal.ne_of_opens {T : Terminal} {c d : Char} (hc : T.opens c = true)
    (hd : T.opens d = false) : ¬(c == d) = true := by
  intro he
  rw [eq_of_beq he, hd] at hc
  cases hc

/-- Where an element or a combinator opens, no other simple selector is read. -/
theorem simple?_eq_none {T : Terminal} (hT : T.isTail = false) {c : Char}
    (hc : T.opens c = true) (t : Text) : simple? (c :: t) = none := by
  have hno : ∀ d ∈ ['.', '#', '[', ':'], T.opens d = false := by
    rw [← List.all_iff_forall_prop]
    cases T with
    | combinator C => cases C <;> decide
    | _ => first | decide | cases hT
  have hne {d : Char} (hd : d ∈ ['.', '#', '[', ':']) : ¬(c == d) = true :=
    Terminal.ne_of_opens hc (hno d hd)
  unfold simple?
  dsimp only
  rw [if_neg (hne (by decide)), if_neg (hne (by decide)), if_neg (hne (by decide)),
    if_neg (hne (by decide))]

/-! ## 6. A terminal that may come is read -/

/-- The reader of a simple selector finds all of it if what follows can follow a compound. -/
theorem simple?_append {T : Terminal} (hT : T.isTail = true) {w rest : Text}
    (hw : w ∈ T.language) (hrest : Follows true rest) :
    simple? (w ++ rest) = some (T, w.length) := by
  have hname {w : Text} (hw : w ∈ name isNameStart) :
      nameLength? isNameStart (w ++ rest) = some w.length :=
    nameLength?_append (by decide) hw fun c hc => (hrest.stop c hc).1
  cases T with
  | className =>
    obtain ⟨v, hv, rfl⟩ := mem_char_mul.1 hw
    simp [simple?, hname hv]
  | id =>
    obtain ⟨v, hv, rfl⟩ := mem_char_mul.1 hw
    simp [simple?, hname hv]
  | «attribute» =>
    obtain ⟨v, hv, rfl⟩ := mem_char_mul.1 hw
    obtain ⟨u, hu, sign, hsign, rfl⟩ := Language.mem_mul.1 hv
    obtain rfl := mem_char.1 hsign
    simp [simple?, attributeLength?_append hu]
  | pseudoElement =>
    obtain ⟨v, hv, rfl⟩ := mem_char_mul.1 hw
    obtain ⟨u, hu, rfl⟩ := mem_char_mul.1 hv
    simp [simple?, pseudoLength?_append hu hrest]
  | pseudoClass =>
    obtain ⟨v, hv, rfl⟩ := mem_char_mul.1 hw
    -- a second colon would make it a pseudo-element, but no name starts with one
    have hcolon : ∀ t, v ++ rest ≠ ':' :: t := by
      intro t he
      obtain ⟨u, hu, x, -, rfl⟩ := Language.mem_mul.1 hv
      obtain ⟨c, u', rfl, hc⟩ := exists_cons_of_mem_name hu
      obtain rfl : c = ':' := (List.cons.inj he).1
      revert hc
      decide
    have hread := pseudoLength?_append hv hrest
    rw [List.cons_append, simple?, if_neg (by decide), if_neg (by decide), if_neg (by decide),
      if_pos (by decide), hread]
    · rfl
    · exact hcolon
  | _ => cases hT

theorem isNameStart_of_isDecimalDigit {c : Char} (h : isDecimalDigit c = true) :
    isNameStart c = false := by
  by_contra hstart
  have hclasses : ((c.isUpper || c.isLower) || c == '_') = true := Bool.not_eq_false _ ▸ hstart
  have hlow : c.toNat < 128 ∧ ¬(48 ≤ c.toNat ∧ c.toNat ≤ 57) := by
    rcases Bool.or_eq_true_iff.1 hclasses with hletter | hline
    · rcases Bool.or_eq_true_iff.1 hletter with hupper | hlower
      · obtain ⟨hlo, hhi⟩ : 65 ≤ c.toNat ∧ c.toNat ≤ 90 := of_decide_eq_true hupper
        omega
      · obtain ⟨hlo, hhi⟩ := Bool.and_eq_true_iff.1 hlower
        have hbound : 97 ≤ c.toNat := of_decide_eq_true hlo
        have hlimit : c.toNat ≤ 122 := of_decide_eq_true hhi
        omega
    · obtain rfl := beq_iff_eq.1 hline
      decide
  rw [isDecimalDigit, digitValue?] at h
  simp [hlow.1, hlow.2] at h

/-- The reader of an element finds all of it if what follows can follow a compound. -/
theorem element?_append {T : Terminal} (hT : T.isHead = true) {w rest : Text}
    (hw : w ∈ T.language) (hrest : Follows true rest) :
    element? (w ++ rest) = some (T, w.length) := by
  have hstop : ∀ c ∈ rest.head?, isNamePart c = false := fun c hc => (hrest.stop c hc).1
  cases T with
  | typeName =>
    obtain ⟨c, v, rfl, hc⟩ := Terminal.exists_cons_of_mem hw
    have hread := nameLength?_append (by decide) hw hstop
    rw [List.cons_append] at hread ⊢
    rw [element?, if_neg (Terminal.ne_of_opens hc (by decide)),
      if_neg (Terminal.ne_of_opens hc (by decide)), if_neg (Terminal.ne_of_opens hc (by decide)),
      hread]
  | universal =>
    obtain rfl := mem_char.1 hw
    simp [element?]
  | parentRef =>
    obtain ⟨v, hv, rfl⟩ := mem_char_mul.1 hw
    have hlength : ((v ++ rest).takeWhile isNamePart).length = v.length := by
      rw [Text.takeWhile_append_stop (mem_star_single.1 hv) hstop]
    simp [element?, hlength, Nat.add_comm]
  | placeholder =>
    obtain ⟨v, hv, rfl⟩ := mem_char_mul.1 hw
    obtain ⟨hne, hall⟩ := mem_many_single.1 hv
    have hlength : ((v ++ rest).takeWhile isNamePart).length = v.length := by
      rw [Text.takeWhile_append_stop hall hstop]
    simp [element?, hlength, hne, Nat.add_comm]
  | percentage =>
    obtain ⟨c, v, rfl, hc⟩ := Terminal.exists_cons_of_mem hw
    have hread := percentageLength?_append hw rest
    have hname (t : Text) : nameLength? isNameStart (c :: t) = none := by
      have hstart : isNameStart c = false := isNameStart_of_isDecimalDigit hc
      have hhyphen : ¬(c == '-') = true := Terminal.ne_of_opens hc (by decide)
      rw [nameLength?.eq_def]
      simp [hstart, hhyphen]
    rw [List.cons_append] at hread ⊢
    rw [element?, if_neg (Terminal.ne_of_opens hc (by decide)),
      if_neg (Terminal.ne_of_opens hc (by decide)), if_neg (Terminal.ne_of_opens hc (by decide)),
      hname, hread]
    rfl
  | _ => cases hT

theorem spaceLength_append {w rest : Text} (hw : w ∈ optional (char ' '))
    (hrest : ∀ c ∈ rest.head?, c ≠ ' ') : spaceLength (w ++ rest) = w.length := by
  rcases mem_optional.1 hw with rfl | hw
  · cases rest with
    | nil => rfl
    | cons c rest =>
      have hc := hrest c rfl
      simp [spaceLength, hc]
  · obtain rfl := mem_char.1 hw
    simp [spaceLength]

theorem combinator?_spaced {sign : Char} {C : Combinator} (hsign : signCombinator? sign = some C)
    {w rest : Text} (hw : w ∈ spaced sign) (hrest : Follows false rest) :
    combinator? (w ++ rest) = some (.combinator C, w.length) := by
  have hspace : sign ≠ ' ' := by
    rintro rfl
    cases hsign
  obtain ⟨front, hfront, v, hv, rfl⟩ := Language.mem_mul.1 hw
  obtain ⟨back, hback, rfl⟩ := mem_char_mul.1 hv
  have hlength : spaceLength (front ++ sign :: (back ++ rest)) = front.length :=
    spaceLength_append hfront (by rintro _ ⟨⟩; exact hspace)
  have hlength' : spaceLength (back ++ rest) = back.length :=
    spaceLength_append hback fun c hc => (hrest.not_sign c hc).1
  have happend : front ++ sign :: back ++ rest = front ++ sign :: (back ++ rest) := by simp
  rw [happend]
  unfold combinator?
  simp [hlength, hlength', hsign]
  omega

/-- The reader of a combinator finds all of it, spaces included, if a compound can follow. -/
theorem combinator?_append {C : Combinator} {w rest : Text}
    (hw : w ∈ (Terminal.combinator C).language) (hrest : Follows false rest) :
    combinator? (w ++ rest) = some (.combinator C, w.length) := by
  cases C with
  | child => exact combinator?_spaced rfl hw hrest
  | nextSibling => exact combinator?_spaced rfl hw hrest
  | subsequentSibling => exact combinator?_spaced rfl hw hrest
  | descendant =>
    obtain rfl := mem_char.1 hw
    cases rest with
    | nil => rfl
    | cons c rest =>
      have hc := (hrest.not_sign c rfl).2
      simp [combinator?, spaceLength, hc]

/-- Where a terminal may come, its word is read, provided that the text goes on with what may come
behind it. -/
theorem nextTerminal?_append {begun : Bool} {T : Terminal} (hcome : T.mayCome begun = true)
    {w rest : Text} (hw : w ∈ T.language) (hrest : Follows T.begins rest) :
    nextTerminal? begun (w ++ rest) = some (T, w.length) := by
  have hsimple (hT : T.isTail = false) : simple? (w ++ rest) = none := by
    obtain ⟨c, v, rfl, hc⟩ := Terminal.exists_cons_of_mem hw
    exact simple?_eq_none hT hc (v ++ rest)
  have htail (hT : T.isTail = true) : nextTerminal? begun (w ++ rest) = some (T, w.length) := by
    rw [Terminal.begins_of_isTail hT] at hrest
    rw [nextTerminal?, simple?_append hT hw hrest]
  cases begun with
  | false =>
    rcases Terminal.mayCome_false.1 hcome with hT | hT
    · rw [Terminal.begins_of_isHead hT] at hrest
      have hother : T.isTail = false := by cases T <;> cases hT <;> rfl
      rw [nextTerminal?, hsimple hother]
      exact element?_append hT hw hrest
    · exact htail hT
  | true =>
    rcases Terminal.mayCome_true.1 hcome with hT | hT
    · exact htail hT
    · cases T with
      | combinator C =>
        rw [nextTerminal?, hsimple rfl]
        exact combinator?_append hw hrest
      | _ => cases hT

end HouseStyle.Selector
