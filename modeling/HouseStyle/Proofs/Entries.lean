/-
HouseStyle.Proofs.Entries — rows that are cut at commas.

A row of tokens and its entries belong together if the row is the entries with a comma behind each
but the last (`Nesting.Separated`); which of its commas the row is cut at is left open. Selector
lists are cut at the commas where the depth of brackets is zero, and the arguments of a call at
those outside its inner parentheses, so both give entries of this kind.

A list is read token by token from the front (`entries_of_comma`, `entries_cons`), the arguments of
a call grow at the end (`Separated.extend`, `Separated.separate`).
-/
import HouseStyle.Stylesheet.Nesting
import Mathlib.Data.List.Basic

namespace HouseStyle.Nesting

/-! ## 1. The entries of a selector list -/

/-- The depth of brackets behind a token of this kind, in a selector list. -/
def depthBehind (depth : Nat) : Token.Kind → Nat
  | .leftParen | .leftBracket => depth + 1
  | .rightParen | .rightBracket => depth - 1
  | _ => depth

theorem entries_of_comma {t : Token} (kind : t.kind = .comma) (rest : List Token) :
    entries 0 (t :: rest) = [] :: entries 0 rest := by
  rw [entries]
  simp [kind]

/-- A token that does not cut the list goes in front of the first entry of the rest. -/
theorem entries_cons {depth : Nat} {t : Token} (h : ¬(t.kind = .comma ∧ depth = 0))
    (rest : List Token) :
    entries depth (t :: rest) = consFirst t (entries (depthBehind depth t.kind) rest) := by
  rw [entries]
  split
  case h_5 kind =>
    rw [if_neg fun hdepth => h ⟨kind, hdepth⟩, kind]
    rfl
  case h_6 =>
    have hdepth : depthBehind depth t.kind = depth := by
      unfold depthBehind
      split <;> first | contradiction | rfl
    rw [hdepth]
  all_goals
    rename_i kind
    rw [kind]
    rfl

theorem consFirst_append {es : List (List Token)} (h : es ≠ []) (t : Token)
    (more : List (List Token)) : consFirst t (es ++ more) = consFirst t es ++ more := by
  cases es with
  | nil => exact absurd rfl h
  | cons entry es => rfl

theorem consFirst_eq_cons {es more : List (List Token)} {t : Token} {entry : List Token}
    (hne : es ≠ []) (h : consFirst t es = entry :: more) :
    ∃ first, entry = t :: first ∧ es = first :: more := by
  cases es with
  | nil => exact absurd rfl hne
  | cons first es =>
    obtain ⟨rfl, rfl⟩ := List.cons.inj h
    exact ⟨first, rfl, rfl⟩

/-! ## 2. Rows and their entries -/

/-- The row cut into entries, with a comma behind each but the last. -/
inductive Separated : List Token → List (List Token) → Prop where
  | last (entry : List Token) : Separated entry [entry]
  | comma (entry : List Token) {t : Token} {rest : List Token} {more : List (List Token)}
      (kind : t.kind = .comma) (h : Separated rest more) :
      Separated (entry ++ t :: rest) (entry :: more)

variable {row entry : List Token} {es : List (List Token)} {t : Token}

theorem Separated.ne_nil (h : Separated row es) : es ≠ [] := by
  cases h <;> simp

theorem Separated.consFirst (h : Separated row es) (t : Token) :
    Separated (t :: row) (consFirst t es) := by
  cases h with
  | last => exact .last _
  | comma entry kind h => exact .comma (t :: entry) kind h

/-- Cutting loses nothing but commas: the entries with a comma between any two are the row. -/
theorem separated_entries (depth : Nat) (row : List Token) :
    Separated row (entries depth row) := by
  induction row generalizing depth with
  | nil => exact .last []
  | cons t rest ih =>
    by_cases hcut : t.kind = .comma ∧ depth = 0
    · obtain ⟨kind, rfl⟩ := hcut
      rw [entries_of_comma kind]
      exact .comma [] kind (ih 0)
    · rw [entries_cons hcut]
      exact (ih _).consFirst t

theorem entries_ne_nil (depth : Nat) (row : List Token) : entries depth row ≠ [] :=
  (separated_entries depth row).ne_nil

/-- An entry goes up to a comma or to the end of the row. -/
theorem Separated.exists_append (h : Separated row es) (he : entry ∈ es) :
    ∃ front back, row = front ++ (entry ++ back) ∧ ∀ t ∈ back.head?, t.kind = .comma := by
  induction h with
  | last e =>
    obtain rfl := List.mem_singleton.1 he
    exact ⟨[], [], by simp, by simp⟩
  | @comma e t rest more kind h ih =>
    rcases List.mem_cons.1 he with rfl | he
    · exact ⟨[], t :: rest, rfl, by simpa using kind⟩
    · obtain ⟨front, back, rfl, hback⟩ := ih he
      exact ⟨e ++ t :: front, back, by simp, hback⟩

/-- The entries of a selector list consist of its tokens. -/
theorem mem_of_mem_entries {depth : Nat} {u : Token} (he : entry ∈ entries depth row)
    (hu : u ∈ entry) : u ∈ row := by
  obtain ⟨front, back, rfl, -⟩ := (separated_entries depth row).exists_append he
  exact List.mem_append_right _ (List.mem_append_left _ hu)

/-- The first token of a row either is the comma behind an empty entry or belongs to the first
entry. -/
theorem Separated.of_cons (h : Separated (t :: row) es) :
    (∃ more, es = [] :: more ∧ Separated row more) ∨
      ∃ first more, es = (t :: first) :: more ∧ Separated row (first :: more) := by
  generalize hrow : t :: row = whole at h
  cases h with
  | last =>
    subst hrow
    exact .inr ⟨row, [], rfl, .last row⟩
  | @comma entry u rest more kind h =>
    cases entry with
    | nil =>
      obtain ⟨-, rfl⟩ := List.cons.inj hrow
      exact .inl ⟨more, rfl, h⟩
    | cons v entry =>
      obtain ⟨rfl, rfl⟩ := List.cons.inj hrow
      exact .inr ⟨entry, more, rfl, .comma entry kind h⟩

theorem Separated.of_nil (h : Separated [] es) : es = [[]] := by
  generalize hrow : ([] : List Token) = row at h
  cases h with
  | last => rw [← hrow]
  | comma => simp at hrow

/-! ## 3. Rows that grow -/

/-- The last entry of a row goes on. -/
theorem Separated.extend {current : List Token} {complete : List (List Token)}
    (h : Separated row (complete ++ [current])) (piece : List Token) :
    Separated (row ++ piece) (complete ++ [current ++ piece]) := by
  generalize hes : complete ++ [current] = es at h
  induction h generalizing complete with
  | last entry =>
    cases complete with
    | nil =>
      obtain rfl := List.singleton_injective hes
      exact .last _
    | cons e complete => simp at hes
  | @comma entry t rest more kind h ih =>
    cases complete with
    | nil =>
      obtain ⟨-, rfl⟩ := List.cons.inj hes
      exact absurd rfl h.ne_nil
    | cons e complete =>
      obtain ⟨rfl, hmore⟩ := List.cons.inj hes
      rw [List.append_assoc]
      exact .comma e kind (ih hmore)

/-- A comma behind a row ends its last entry. -/
theorem Separated.separate (h : Separated row es) (kind : t.kind = .comma) :
    Separated (row ++ [t]) (es ++ [[]]) := by
  induction h with
  | last entry => exact .comma entry kind (.last [])
  | comma entry kind' _ ih =>
    rw [List.append_assoc]
    exact .comma entry kind' ih

end HouseStyle.Nesting
