/-
HouseStyle.Proofs.Grammar — the grammar of selectors.

Nothing here says how a selector is read. The words of a terminal are a regular language of
characters (`Terminal.language`), and the rows of terminals that are selectors are a regular
language of terminals (`start`). Only the last section prepares for reading: membership of a row in
`start` is decided from left to right by one bit, whether a compound has begun (`accepts`,
`mem_start_iff`).
-/
import HouseStyle.Selector.Reader
import Mathlib.Computability.Language

namespace HouseStyle.Selector

open Computability

/-! ## 1. Languages -/

section Languages

variable {α : Type} {p : α → Bool} {L M : Language α} {w : List α}

/-- The words of one letter that passes a test. -/
def single (p : α → Bool) : Language α := {w | ∃ a, p a = true ∧ w = [a]}

def optional (L : Language α) : Language α := 1 + L

def many (L : Language α) : Language α := L * L∗

theorem mem_single : w ∈ single p ↔ ∃ a, p a = true ∧ w = [a] := Iff.rfl

theorem mem_single_mul : w ∈ single p * L ↔ ∃ a v, p a = true ∧ v ∈ L ∧ w = a :: v := by
  rw [Language.mem_mul]
  constructor
  · rintro ⟨_, ⟨a, ha, rfl⟩, v, hv, rfl⟩
    exact ⟨a, v, ha, hv, rfl⟩
  · rintro ⟨a, v, ha, hv, rfl⟩
    exact ⟨[a], ⟨a, ha, rfl⟩, v, hv, rfl⟩

theorem cons_mem_single_mul {a : α} (ha : p a = true) (hw : w ∈ L) : a :: w ∈ single p * L :=
  mem_single_mul.2 ⟨a, w, ha, hw, rfl⟩

theorem mem_optional : w ∈ optional L ↔ w = [] ∨ w ∈ L := by
  rw [optional, Language.mem_add, Language.mem_one]

theorem mem_optional_mul : w ∈ optional L * M ↔ w ∈ M ∨ w ∈ L * M := by
  rw [optional, add_mul, one_mul, Language.mem_add]

theorem append_mem_star {u v : List α} (hu : u ∈ L) (hv : v ∈ L∗) : u ++ v ∈ L∗ := by
  obtain ⟨parts, rfl, hparts⟩ := Language.mem_kstar.1 hv
  exact Language.join_mem_kstar (L := u :: parts) (List.forall_mem_cons.2 ⟨hu, hparts⟩)

/-- What holds of the empty word and is kept by putting a word of `L` in front holds of all words
of `L∗`. -/
theorem star_induction {C : List α → Prop} (nil : C [])
    (append : ∀ u v, u ∈ L → v ∈ L∗ → C v → C (u ++ v)) (hw : w ∈ L∗) : C w := by
  obtain ⟨parts, rfl, hparts⟩ := Language.mem_kstar.1 hw
  induction parts with
  | nil => exact nil
  | cons u parts ih =>
    obtain ⟨hu, hrest⟩ := List.forall_mem_cons.1 hparts
    have hv := Language.join_mem_kstar hrest
    exact append u _ hu hv (ih hrest hv)

/-- A row of single letters is any word of such letters. -/
theorem mem_star_single : w ∈ (single p)∗ ↔ ∀ a ∈ w, p a = true := by
  constructor
  · intro hw
    refine star_induction (C := fun w => ∀ a ∈ w, p a = true) (by simp) ?_ hw
    rintro _ v ⟨a, ha, rfl⟩ - hv
    exact List.forall_mem_cons.2 ⟨ha, hv⟩
  · intro hw
    induction w with
    | nil => exact Language.nil_mem_kstar _
    | cons a w ih =>
      obtain ⟨ha, hw⟩ := List.forall_mem_cons.1 hw
      exact append_mem_star (mem_single.2 ⟨a, ha, rfl⟩) (ih hw)

theorem mem_many_single : w ∈ many (single p) ↔ w ≠ [] ∧ ∀ a ∈ w, p a = true := by
  rw [many, mem_single_mul]
  constructor
  · rintro ⟨a, v, ha, hv, rfl⟩
    exact ⟨List.cons_ne_nil _ _, List.forall_mem_cons.2 ⟨ha, mem_star_single.1 hv⟩⟩
  · rintro ⟨hne, hw⟩
    cases w with
    | nil => exact absurd rfl hne
    | cons a v =>
      obtain ⟨ha, hv⟩ := List.forall_mem_cons.1 hw
      exact ⟨a, v, ha, mem_star_single.2 hv, rfl⟩

end Languages

def char (c : Char) : Language Char := single (· == c)

theorem mem_char {c : Char} {w : Text} : w ∈ char c ↔ w = [c] := by
  simp [char, mem_single]

theorem mem_char_mul {c : Char} {L : Language Char} {w : Text} :
    w ∈ char c * L ↔ ∃ v ∈ L, w = c :: v := by
  simp [char, mem_single_mul]

/-! ## 2. The words of the terminals -/

def name (start : Char → Bool) : Language Char :=
  optional (char '-') * (single start * (single isNamePart)∗)

def digits : Language Char := many (single isDecimalDigit)

def quotation (quote : Char) : Language Char := char quote * ((single (· != quote))∗ * char quote)

/-- A character that stands for itself in an attribute. -/
def isPlain (c : Char) : Bool := c != ']' && c != Text.doubleQuote && c != Text.singleQuote

def attributeBody : Language Char :=
  (single isPlain + (quotation Text.doubleQuote + quotation Text.singleQuote))∗

/-- A character that is no parenthesis. -/
def isNoParenthesis (c : Char) : Bool := c != '(' && c != ')'

def argumentBody : Language Char :=
  (single isNoParenthesis + char '(' * ((single isNoParenthesis)∗ * char ')'))∗

/-- The name of a pseudo-class with its argument, if it has one. -/
def pseudo : Language Char := name Char.isAlpha * optional (char '(' * (argumentBody * char ')'))

/-- The sign of a combinator, with a space on either side or without. -/
def spaced (sign : Char) : Language Char :=
  optional (char ' ') * (char sign * optional (char ' '))

/-- The words of a terminal. -/
def Terminal.language : Terminal → Language Char
  | .typeName => name isNameStart
  | .universal => char '*'
  | .parentRef => char '&' * (single isNamePart)∗
  | .placeholder => char '%' * many (single isNamePart)
  | .percentage => digits * (optional (char '.' * digits) * char '%')
  | .className => char '.' * name isNameStart
  | .id => char '#' * name isNameStart
  | .attribute => char '[' * (attributeBody * char ']')
  | .pseudoElement => char ':' * (char ':' * pseudo)
  | .pseudoClass => char ':' * pseudo
  | .combinator .child => spaced '>'
  | .combinator .nextSibling => spaced '+'
  | .combinator .subsequentSibling => spaced '~'
  | .combinator .descendant => char ' '

/-! ## 3. The rows of terminals -/

namespace Terminal

/-- The terminal is an element, which only the front of a compound can be. -/
def isHead : Terminal → Bool
  | .typeName | .universal | .parentRef | .placeholder | .percentage => true
  | _ => false

/-- The terminal is a simple selector other than an element. -/
def isTail : Terminal → Bool
  | .className | .id | .attribute | .pseudoElement | .pseudoClass => true
  | _ => false

/-- The terminal is a combinator. -/
def isCombinator : Terminal → Bool
  | .combinator _ => true
  | _ => false

end Terminal

/-- A compound: an element with what may follow it, or what may follow one alone. -/
def compound : Language Terminal :=
  single Terminal.isHead * (single Terminal.isTail)∗ + many (single Terminal.isTail)

/-- Compounds, from the second on, with the combinators in front of them. -/
def continuation : Language Terminal := (single Terminal.isCombinator * compound)∗

def start : Language Terminal := compound * continuation

/-! ## 4. From left to right -/

namespace Terminal

/-- The terminal may come where a compound has begun, or where none has. -/
def mayCome (begun : Bool) (t : Terminal) : Bool := if begun then !t.isHead else !t.isCombinator

/-- Behind a compound that has begun comes another part of it, or a combinator. -/
theorem mayCome_true {t : Terminal} :
    t.mayCome true = true ↔ t.isTail = true ∨ t.isCombinator = true := by
  cases t <;> simp [mayCome, isHead, isTail, isCombinator]

/-- A compound begins with an element or with any other simple selector. -/
theorem mayCome_false {t : Terminal} :
    t.mayCome false = true ↔ t.isHead = true ∨ t.isTail = true := by
  cases t <;> simp [mayCome, isHead, isTail, isCombinator]

theorem begins_of_isHead {t : Terminal} (h : t.isHead = true) : t.begins = true := by
  cases t <;> first | rfl | cases h

theorem begins_of_isTail {t : Terminal} (h : t.isTail = true) : t.begins = true := by
  cases t <;> first | rfl | cases h

theorem begins_eq_not_isCombinator (t : Terminal) : t.begins = !t.isCombinator := by
  cases t <;> rfl

end Terminal

/-- The row completes a selector, of whose last compound something or nothing has been seen. -/
def accepts : Bool → List Terminal → Bool
  | begun, [] => begun
  | begun, t :: rest => t.mayCome begun && accepts t.begins rest

/-- A row completes a selector if its first terminal may come and the others complete what that has
begun. -/
theorem accepts_cons {begun : Bool} {t : Terminal} {rest : List Terminal} :
    accepts begun (t :: rest) = true ↔ t.mayCome begun = true ∧ accepts t.begins rest = true :=
  Bool.and_eq_true_iff

/-- A row that is accepted from the start is a compound and its continuation; behind the beginning
of a compound it is the rest of one and its continuation. -/
theorem mem_of_accepts (row : List Terminal) :
    (accepts false row = true → row ∈ compound * continuation) ∧
      (accepts true row = true → row ∈ (single Terminal.isTail)∗ * continuation) := by
  induction row with
  | nil =>
    refine ⟨fun h => (by cases h), fun _ => ?_⟩
    exact Language.append_mem_mul (Language.nil_mem_kstar _) (Language.nil_mem_kstar _)
  | cons t rest ih =>
    refine ⟨fun h => ?_, fun h => ?_⟩
    · obtain ⟨hcome, hrest⟩ := accepts_cons.1 h
      rcases Terminal.mayCome_false.1 hcome with hhead | htail
      · rw [Terminal.begins_of_isHead hhead] at hrest
        obtain ⟨u, hu, v, hv, rfl⟩ := Language.mem_mul.1 (ih.2 hrest)
        exact Language.append_mem_mul (a := t :: u) (.inl (cons_mem_single_mul hhead hu)) hv
      · rw [Terminal.begins_of_isTail htail] at hrest
        obtain ⟨u, hu, v, hv, rfl⟩ := Language.mem_mul.1 (ih.2 hrest)
        exact Language.append_mem_mul (a := t :: u) (.inr (cons_mem_single_mul htail hu)) hv
    · obtain ⟨hcome, hrest⟩ := accepts_cons.1 h
      rcases Terminal.mayCome_true.1 hcome with htail | hcombinator
      · rw [Terminal.begins_of_isTail htail] at hrest
        obtain ⟨u, hu, v, hv, rfl⟩ := Language.mem_mul.1 (ih.2 hrest)
        have htails := append_mem_star (mem_single.2 ⟨t, htail, rfl⟩) hu
        exact Language.append_mem_mul (a := t :: u) htails hv
      · rw [Terminal.begins_eq_not_isCombinator, hcombinator] at hrest
        obtain ⟨u, hu, v, hv, rfl⟩ := Language.mem_mul.1 (ih.1 hrest)
        exact Language.append_mem_mul (a := []) (Language.nil_mem_kstar _)
          (append_mem_star (u := t :: u) (cons_mem_single_mul hcombinator hu) hv)

theorem accepts_tails {u v : List Terminal} (hu : u ∈ (single Terminal.isTail)∗)
    (hv : accepts true v = true) : accepts true (u ++ v) = true := by
  have hall := mem_star_single.1 hu
  clear hu
  induction u with
  | nil => exact hv
  | cons t u ih =>
    obtain ⟨ht, hu⟩ := List.forall_mem_cons.1 hall
    refine accepts_cons.2 ⟨Terminal.mayCome_true.2 (.inl ht), ?_⟩
    rw [Terminal.begins_of_isTail ht]
    exact ih hu

/-- A compound in front of what may follow one completes a selector from its start. -/
theorem accepts_compound {u v : List Terminal} (hu : u ∈ compound)
    (hv : accepts true v = true) : accepts false (u ++ v) = true := by
  rcases hu with hu | hu
  · obtain ⟨t, tails, ht, htails, rfl⟩ := mem_single_mul.1 hu
    refine accepts_cons.2 ⟨Terminal.mayCome_false.2 (.inl ht), ?_⟩
    rw [Terminal.begins_of_isHead ht]
    exact accepts_tails htails hv
  · obtain ⟨t, tails, ht, htails, rfl⟩ := mem_single_mul.1 hu
    refine accepts_cons.2 ⟨Terminal.mayCome_false.2 (.inr ht), ?_⟩
    rw [Terminal.begins_of_isTail ht]
    exact accepts_tails htails hv

/-- Compounds behind combinators complete a selector of which one compound has been read. -/
theorem accepts_continuation {v : List Terminal} (hv : v ∈ continuation) :
    accepts true v = true := by
  refine star_induction (C := fun v => accepts true v = true) rfl ?_ hv
  intro u v hu _ hv
  obtain ⟨t, u', ht, hu', rfl⟩ := mem_single_mul.1 hu
  refine accepts_cons.2 ⟨Terminal.mayCome_true.2 (.inr ht), ?_⟩
  rw [Terminal.begins_eq_not_isCombinator, ht]
  exact accepts_compound hu' hv

/-- The selectors are the rows that are accepted from the start. -/
theorem mem_start_iff {row : List Terminal} : row ∈ start ↔ accepts false row = true := by
  constructor
  · intro h
    obtain ⟨u, hu, v, hv, rfl⟩ := Language.mem_mul.1 h
    exact accepts_compound hu (accepts_continuation hv)
  · exact (mem_of_accepts row).1

end HouseStyle.Selector
