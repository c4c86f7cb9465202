/-
HouseStyle.Proofs.Brackets — rows of tokens in brackets.

A selector list is cut at the commas outside parentheses and brackets, the arguments of a call at
those outside inner parentheses. What "outside" means is said here without a counter or a stack: a
row is balanced if every opening token in it is followed, behind a balanced row, by the token that
closes it (`Balanced`), two tokens match if they go around a balanced row (`Matched`), and what
stands between two tokens that match is enclosed by them (`Enclosed`).
-/
import HouseStyle.Token
import Mathlib.Data.List.Basic

namespace HouseStyle

namespace Token.Kind

/-- Opening kinds with the kinds that close them: parentheses only. -/
def parentheses : List (Kind × Kind) := [(leftParen, rightParen)]

/-- Opening kinds with the kinds that close them: parentheses and brackets. -/
def brackets : List (Kind × Kind) := [(leftParen, rightParen), (leftBracket, rightBracket)]

def IsNeutral (pairs : List (Kind × Kind)) (k : Kind) : Prop := ∀ p ∈ pairs, k ≠ p.1 ∧ k ≠ p.2

instance (pairs : List (Kind × Kind)) (k : Kind) : Decidable (k.IsNeutral pairs) :=
  inferInstanceAs (Decidable (∀ p ∈ pairs, k ≠ p.1 ∧ k ≠ p.2))

@[simp] theorem mem_parentheses {opening closing : Kind} :
    (opening, closing) ∈ parentheses ↔ opening = leftParen ∧ closing = rightParen := by
  simp [parentheses]

@[simp] theorem mem_brackets {opening closing : Kind} :
    (opening, closing) ∈ brackets ↔ opening = leftParen ∧ closing = rightParen ∨
      opening = leftBracket ∧ closing = rightBracket := by
  simp [brackets]

@[simp] theorem isNeutral_parentheses {k : Kind} :
    k.IsNeutral parentheses ↔ k ≠ leftParen ∧ k ≠ rightParen := by
  simp [IsNeutral, parentheses]

end Token.Kind

section

variable (pairs : List (Token.Kind × Token.Kind))

/-- Everything that opens in the row is closed in it, by a token of the right kind, and everything
that closes was opened in it. -/
inductive Balanced : List Token → Prop where
  | nil : Balanced []
  | neutral {t : Token} {rest : List Token} (kind : t.kind.IsNeutral pairs)
      (behind : Balanced rest) : Balanced (t :: rest)
  | group {opening closing : Token} {inner rest : List Token}
      (closes : (opening.kind, closing.kind) ∈ pairs) (inside : Balanced inner)
      (behind : Balanced rest) : Balanced (opening :: (inner ++ closing :: rest))

/-- The tokens with these numbers open and close a balanced row. -/
def Matched (row : List Token) (i j : Nat) : Prop :=
  ∃ front opening inner closing back,
    row = front ++ opening :: (inner ++ closing :: back) ∧
    (opening.kind, closing.kind) ∈ pairs ∧ Balanced pairs inner ∧
    i = front.length ∧ j = i + inner.length + 1

/-- The token with this number stands between two that match. -/
def Enclosed (row : List Token) (k : Nat) : Prop := ∃ i j, Matched pairs row i j ∧ i < k ∧ k < j

end

section

variable {pairs : List (Token.Kind × Token.Kind)} {row more : List Token} {i j k : Nat}

/-- Balanced rows behind each other are balanced. -/
theorem Balanced.append (h : Balanced pairs row) (hmore : Balanced pairs more) :
    Balanced pairs (row ++ more) := by
  induction h with
  | nil => exact hmore
  | neutral kind _ ih => exact .neutral kind ih
  | group closes inside _ _ ih =>
    rw [List.cons_append, List.append_assoc, List.cons_append]
    exact .group closes inside ih

/-- A row between two tokens of which the second closes the first. -/
theorem Balanced.around (h : Balanced pairs row) {opening closing : Token}
    (closes : (opening.kind, closing.kind) ∈ pairs) :
    Balanced pairs (opening :: (row ++ [closing])) :=
  .group closes h .nil

/-- Without anything that opens or closes there is nothing to match. -/
theorem balanced_of_neutral (h : ∀ t ∈ row, t.kind.IsNeutral pairs) :
    Balanced pairs row := by
  induction row with
  | nil => exact .nil
  | cons t row ih =>
    obtain ⟨ht, hrow⟩ := List.forall_mem_cons.1 h
    exact .neutral ht (ih hrow)

/-- Tokens in front of a row move its matches and change none. -/
theorem Matched.append_left (h : Matched pairs row i j) (more : List Token) :
    Matched pairs (more ++ row) (more.length + i) (more.length + j) := by
  obtain ⟨front, opening, inner, closing, back, rfl, closes, inside, rfl, rfl⟩ := h
  refine ⟨more ++ front, opening, inner, closing, back, ?_, closes, inside, ?_, ?_⟩
  · rw [List.append_assoc]
  · rw [List.length_append]
  · simp only [Nat.add_assoc]

theorem Enclosed.append_left (h : Enclosed pairs row k) (more : List Token) :
    Enclosed pairs (more ++ row) (more.length + k) := by
  obtain ⟨i, j, hmatched, hi, hj⟩ := h
  exact ⟨_, _, hmatched.append_left more, by omega, by omega⟩

/-- In front of a token that is enclosed stands an opening one, and what lies between the two is the
front of a balanced row. -/
theorem Enclosed.exists_within {front back : List Token} (h : Enclosed pairs row front.length)
    (hrow : row = front ++ back) :
    ∃ before, ∃ opening closing : Token, ∃ within beyond,
      front = before ++ opening :: within ∧ (opening.kind, closing.kind) ∈ pairs ∧
        Balanced pairs (within ++ beyond) := by
  obtain ⟨i, j, ⟨before, opening, inner, closing, after, hsplit, closes, inside, rfl, rfl⟩,
    hi, hj⟩ := h
  rw [hrow] at hsplit
  rcases List.append_eq_append_iff.1 hsplit with ⟨rest, rfl, -⟩ | ⟨rest, rfl, hrest⟩
  · rw [List.length_append] at hi
    omega
  · cases rest with
    | nil => simp at hi
    | cons u within =>
      obtain ⟨rfl, hwithin⟩ := List.cons.inj hrest
      rcases List.append_eq_append_iff.1 hwithin with ⟨rest, rfl, -⟩ | ⟨beyond, rfl, -⟩
      · simp only [List.length_append, List.length_cons] at hj
        omega
      · exact ⟨before, opening, closing, within, beyond, rfl, closes, inside⟩

end

end HouseStyle
