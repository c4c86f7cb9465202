/-
HouseStyle.Proofs.Blanks — blanks and line breaks among the tokens of a text.

The first character of a token says whether it is a line break, a run of blanks, or something that
can be seen (`Token.Opening`). So runs of blanks are as long as they can be and never stand next to
each other, what follows a line break stands on a later line, and what can be seen starts with a
character that ends no line.
-/
import HouseStyle.Proofs.Standing
import Mathlib.Data.List.Chain

namespace HouseStyle.Token

/-! ## 1. The first character -/

theorem commentTail_ne_whitespace (t : Text) : (commentTail t).1 ≠ .whitespace :=
  ne_of_mem_of_not_mem (kind_commentTail t) (by decide)

theorem stringTail_ne_whitespace (quote : Char) (t : Text) :
    (stringTail quote t).1 ≠ .whitespace :=
  ne_of_mem_of_not_mem (kind_stringTail quote t) (by decide)

theorem hashTail_ne_whitespace (t : Text) : (hashTail t).1 ≠ .whitespace :=
  ne_of_mem_of_not_mem (kind_hashTail t) (by decide)

theorem identTail_ne_whitespace (c : Char) (t : Text) : (identTail c t).1 ≠ .whitespace :=
  ne_of_mem_of_not_mem (kind_identTail c t) (by decide)

theorem singleKind_ne_whitespace (c : Char) : singleKind c ≠ .whitespace :=
  ne_of_mem_of_not_mem (kind_singleKind c) (by decide)

/-- The carriage return belongs to the line break that follows. -/
def ReturnsToFeed (c : Char) (t : Text) : Prop := c = '\r' ∧ t.head? = some '\n'

/-- How a token that starts with `c` in front of `t` begins: as a line break, as a run of blanks, or
with something that can be seen. -/
inductive Opening (c : Char) (t : Text) (r : Kind × Cut) : Prop where
  | lineBreak (kind : r.1 = .newline) (feed : '\n' ∈ c :: r.2.taken)
      (first : c = '\n' ∨ ReturnsToFeed c t)
  | blank (kind : r.1 = .whitespace) (run : r.2 = inlineRun t) (first : isInlineSpace c = true)
      (inside : ¬ ReturnsToFeed c t)
  | visible (kind : r.1 ≠ .newline) (visible : r.1 ≠ .whitespace) (first : c ≠ '\n')
      (ink : isInlineSpace c = false)

/-- Every token begins in one of these ways: the cases follow the branches of the reader. -/
theorem opening_next (c : Char) (t : Text) : Opening c t (next c t) := by
  unfold next
  refine iteInduction (fun h => ?_) fun hfeed => ?_
  · rw [beq_iff_eq] at h
    exact .lineBreak rfl (by simp [h]) (.inl h)
  refine iteInduction (fun h => ?_) fun hreturn => ?_
  · simp only [Bool.and_eq_true, beq_iff_eq] at h
    exact .lineBreak rfl (by simp) (.inr h)
  have hfeed' : c ≠ '\n' := by simpa using hfeed
  have hreturn' : ¬ ReturnsToFeed c t := by
    simpa only [ReturnsToFeed, Bool.and_eq_true, beq_iff_eq] using hreturn
  refine iteInduction (fun h => .blank rfl rfl h hreturn') fun hink => ?_
  have hvisible {r : Kind × Cut} (hnewline : r.1 ≠ .newline) (hblank : r.1 ≠ .whitespace) :
      Opening c t r := .visible hnewline hblank hfeed' (by simpa using hink)
  refine iteInduction (fun _ => ?_) fun _ => ?_
  · exact hvisible (commentTail_kind _) (commentTail_ne_whitespace _)
  refine iteInduction (fun _ => hvisible (by simp) (by simp)) fun _ => ?_
  refine iteInduction (fun _ => ?_) fun _ => ?_
  · exact hvisible (stringTail_kind c t) (stringTail_ne_whitespace c t)
  refine iteInduction (fun _ => hvisible (by simp) (by simp)) fun _ => ?_
  refine iteInduction (fun _ => hvisible (hashTail_kind t) (hashTail_ne_whitespace t)) fun _ => ?_
  refine iteInduction (fun _ => hvisible (by simp) (by simp)) fun _ => ?_
  refine iteInduction (fun _ => ?_) fun _ => ?_
  · exact hvisible (identTail_kind c t) (identTail_ne_whitespace c t)
  · exact hvisible (singleKind_ne_newline c) (singleKind_ne_whitespace c)

/-- A run of blanks ends in front of what is no blank, or of a carriage return that belongs to a
line break. -/
theorem rest_inlineRun {t : Text} {d : Char} {more : Text} (h : (inlineRun t).rest = d :: more) :
    isInlineSpace d = false ∨ ReturnsToFeed d more := by
  induction t with
  | nil => cases h
  | cons c rest ih =>
    rw [inlineRun] at h
    split at h
    · rename_i hreturn
      simp only [Bool.and_eq_true, beq_iff_eq] at hreturn
      cases h
      exact .inr hreturn
    · split at h
      · exact ih h
      · rename_i hink
        cases h
        exact .inl (by simpa using hink)

theorem isBlank_of_isInlineSpace {c : Char} (h : isInlineSpace c = true) : isBlank c = true := by
  simp only [isInlineSpace, Bool.or_eq_true, beq_iff_eq] at h
  rcases h with ((rfl | rfl) | rfl) | rfl <;> decide

/-- A run of blanks inside a line holds nothing but blanks, a carriage return among them. -/
theorem all_isBlank_inlineRun (t : Text) : (inlineRun t).taken.all isBlank = true := by
  fun_induction inlineRun t with
  | case1 => rfl
  | case2 => rfl
  | case3 c rest _ hspace ih => simpa [Cut.behind, isBlank_of_isInlineSpace hspace] using ih
  | case4 => rfl

/-- What cannot be seen is blank. -/
theorem all_isBlank_next {c : Char} {t : Text}
    (h : (next c t).1 = .whitespace ∨ (next c t).1 = .newline) :
    (c :: (next c t).2.taken).all isBlank = true := by
  rcases h with hspace | hnewline
  · cases opening_next c t with
    | lineBreak kind =>
      rw [hspace] at kind
      cases kind
    | blank _ run first =>
      rw [run, List.all_cons, isBlank_of_isInlineSpace first, all_isBlank_inlineRun]
      rfl
    | visible _ visible => exact absurd hspace visible
  · cases ending_next c t with
    | lineFeed _ first taken =>
      rw [taken, first]
      decide
    | carriageReturn _ first taken =>
      rw [taken, first]
      decide
    | malformed kind =>
      rw [hnewline] at kind
      cases kind
    | inLine kind => exact absurd hnewline kind

/-! ## 2. Tokens of a text -/

variable {text : Text} {t : Token}

/-- How a token of a text begins. -/
theorem exists_opening (ht : t ∈ tokenize text) :
    ∃ c rest, ∃ r : Kind × Cut, Opening c rest r ∧ t.kind = r.1 ∧ t.lexeme = c :: r.2.taken := by
  obtain ⟨c, rest, place, rfl⟩ := exists_next_of_mem ht
  exact ⟨c, rest, next c rest, opening_next c rest, rfl, rfl⟩

/-- What can be seen starts with a character that ends no line. -/
theorem isLineEnd_of_isVisible (ht : t ∈ tokenize text) (hvisible : t.isVisible = true) :
    ∃ c more, t.lexeme = c :: more ∧ isLineEnd c = false := by
  obtain ⟨c, rest, r, hopening, hkind, hlexeme⟩ := exists_opening ht
  refine ⟨c, r.2.taken, hlexeme, ?_⟩
  unfold isVisible at hvisible
  cases hopening with
  | lineBreak kind => simp [hkind, kind] at hvisible
  | blank kind => simp [hkind, kind] at hvisible
  | visible _ _ first ink =>
    simp only [isInlineSpace, Bool.or_eq_false_iff] at ink
    simp [isLineEnd, first, ink.2]

/-- A line break has a line feed. -/
theorem mem_lexeme_of_newline (ht : t ∈ tokenize text) (hkind : t.kind = .newline) :
    '\n' ∈ t.lexeme := by
  obtain ⟨c, rest, r, hopening, hkind', hlexeme⟩ := exists_opening ht
  rw [hkind'] at hkind
  rw [hlexeme]
  cases hopening with
  | lineBreak _ feed => exact feed
  | blank kind =>
    rw [kind] at hkind
    cases hkind
  | visible kind => exact absurd hkind kind

/-- A run of blanks has none. -/
theorem not_mem_lexeme_of_whitespace (ht : t ∈ tokenize text) (hkind : t.kind = .whitespace) :
    '\n' ∉ t.lexeme := by
  obtain ⟨c, rest, r, hopening, hkind', hlexeme⟩ := exists_opening ht
  rw [hkind'] at hkind
  rw [hlexeme]
  cases hopening with
  | lineBreak kind =>
    rw [kind] at hkind
    cases hkind
  | blank _ run first =>
    rw [run, List.mem_cons, not_or]
    refine ⟨?_, oneLine_inlineRun rest⟩
    rintro rfl
    simp [isInlineSpace] at first
  | visible _ visible => exact absurd hkind visible

/-- What follows a line break stands on a later line. -/
theorem line_lt_of_newline {before after : List Token} {u : Token}
    (hs : tokenize text = before ++ t :: after) (hkind : t.kind = .newline) (hu : u ∈ after) :
    t.line < u.line := by
  obtain ⟨mid, back, rfl⟩ := List.append_of_mem hu
  have hmem : t ∈ tokenize text := by
    rw [hs]
    exact List.mem_append_right _ List.mem_cons_self
  have hfeed : 0 < t.lexeme.lineFeeds := List.count_pos_iff.2 (mem_lexeme_of_newline hmem hkind)
  have hs' : tokenize text = (before ++ t :: mid) ++ u :: back := by
    rw [hs, List.append_assoc]
    rfl
  have hsource : source (before ++ t :: mid) = source before ++ (t.lexeme ++ source mid) := by
    simp [source]
  rw [line, line, place_eq_after hs, place_eq_after hs', hsource, Position.line_after,
    Position.line_after]
  simp only [Text.lineFeeds, List.count_append] at hfeed ⊢
  omega

/-- No two runs of blanks stand next to each other. -/
theorem isChain_blank (text : Text) :
    (tokenize text).IsChain fun a b => a.kind = .whitespace → b.kind ≠ .whitespace := by
  show (streamFrom {} text).IsChain _
  generalize ({} : Position) = p
  fun_induction streamFrom p text with
  | case1 => exact List.IsChain.nil
  | case2 p c t lexeme ih =>
    refine List.isChain_cons.2 ⟨?_, ih⟩
    intro b hb hblank
    cases hrest : (next c t).2.rest with
    | nil =>
      rw [hrest] at hb
      simp at hb
    | cons d more =>
      rw [hrest, streamFrom_cons] at hb
      obtain rfl := Option.some.inj hb
      have hend : isInlineSpace d = false ∨ ReturnsToFeed d more := by
        cases opening_next c t with
        | lineBreak kind =>
          rw [kind] at hblank
          cases hblank
        | blank _ run =>
          rw [run] at hrest
          exact rest_inlineRun hrest
        | visible _ visible => exact absurd hblank visible
      cases opening_next d more with
      | lineBreak kind => simp [kind]
      | blank _ _ first inside =>
        rcases hend with hink | hreturn
        · simp [hink] at first
        · exact absurd hreturn inside
      | visible _ visible => exact visible

end HouseStyle.Token
