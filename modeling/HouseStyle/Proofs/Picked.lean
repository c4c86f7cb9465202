/-
HouseStyle.Proofs.Picked — what the statements of a row give, one after the other.

The nodes, the declarations and the values of a row are listed in one way: a walk over the
statements counts the tokens passed, and each statement gives one thing or nothing. `Picked` says
so of a list and leaves open what else the walk carries along. So the induction over the statements
is done here, once: whatever is in such a list was given by a statement, behind the tokens of those
in front of it (`Picked.exists_split`), and what keeps to its statement comes in the order of the
text (`Picked.pairwise`, `Picked.sublist_places`).
-/
import HouseStyle.Stylesheet.Statement

namespace HouseStyle.Nesting

/-! ## 1. Tokens passed -/

/-- The statements of a row cover this many tokens. -/
def covered (statements : List Statement) : Nat :=
  (statements.flatMap Statement.tokens).length

theorem covered_cons (st : Statement) (rest : List Statement) :
    covered (st :: rest) = st.tokens.length + covered rest := by
  rw [covered, List.flatMap_cons, List.length_append]
  rfl

theorem covered_append (front back : List Statement) :
    covered (front ++ back) = covered front + covered back := by
  simp [covered]

/-! ## 2. What is given -/

/-- Behind `passed` tokens a row of statements gives these things, each statement one or nothing. -/
inductive Picked {β : Type} (gives : Nat → Statement → Option β → Prop) :
    Nat → List Statement → List β → Prop where
  | nil (passed : Nat) : Picked gives passed [] []
  | cons {passed : Nat} {st : Statement} {rest : List Statement} {pick : Option β}
      {picked : List β} (first : gives passed st pick)
      (behind : Picked gives (passed + st.tokens.length) rest picked) :
      Picked gives passed (st :: rest) (pick.toList ++ picked)

namespace Picked

variable {β : Type} {gives : Nat → Statement → Option β → Prop} {passed : Nat}
  {statements : List Statement} {picked : List β} {b : β}

/-- Whatever is picked was given by a statement, behind the tokens of those in front of it. -/
theorem exists_split (h : Picked gives passed statements picked) (hb : b ∈ picked) :
    ∃ before st after, statements = before ++ st :: after ∧
      gives (passed + covered before) st (some b) := by
  induction h with
  | nil => cases hb
  | @cons passed st rest pick picked first behind ih =>
    rcases List.mem_append.1 hb with hb | hb
    · obtain rfl := Option.mem_toList.1 hb
      exact ⟨[], st, rest, rfl, first⟩
    · obtain ⟨before, st', after, rfl, hgives⟩ := ih hb
      refine ⟨st :: before, st', after, rfl, ?_⟩
      rwa [covered_cons, ← Nat.add_assoc]

/-- What keeps to its statement comes in order: each thing stops where the next one starts, or in
front of it. -/
theorem pairwise (h : Picked gives passed statements picked) (start stop : β → Nat)
    (inside : ∀ {passed : Nat} {st : Statement} {b : β}, gives passed st (some b) →
      passed ≤ start b ∧ stop b ≤ passed + st.tokens.length) :
    picked.Pairwise fun a b => stop a ≤ start b := by
  induction h with
  | nil => exact List.Pairwise.nil
  | @cons passed st rest pick picked first behind ih =>
    refine List.pairwise_append.2 ⟨?_, ih, fun a ha b hb => ?_⟩
    · cases pick with
      | none => exact List.Pairwise.nil
      | some b => exact List.pairwise_singleton _ _
    · obtain rfl := Option.mem_toList.1 ha
      obtain ⟨before, st', after, -, hgives⟩ := behind.exists_split hb
      have hfirst := (inside first).2
      have hbehind := (inside hgives).1
      omega

/-- What stands at a token of its statement stands in the order of the tokens. -/
theorem sublist_places (h : Picked gives passed statements picked) {place : β → Nat × Nat}
    (stands : ∀ {passed : Nat} {st : Statement} {b : β}, gives passed st (some b) →
      ∃ t ∈ st.tokens, place b = (t.line, t.column)) :
    (picked.map place).Sublist
      ((statements.flatMap Statement.tokens).map fun t => (t.line, t.column)) := by
  induction h with
  | nil => exact List.Sublist.refl _
  | @cons passed st rest pick picked first behind ih =>
    rw [List.flatMap_cons, List.map_append, List.map_append]
    refine List.Sublist.append ?_ ih
    cases pick with
    | none => exact List.nil_sublist _
    | some b =>
      obtain ⟨t, ht, hplace⟩ := stands first
      exact List.singleton_sublist.2 (List.mem_map.2 ⟨t, ht, hplace.symm⟩)

end Picked

end HouseStyle.Nesting
