/-
HouseStyle.Proofs.Inherited — the class that `&` stands for, from above and from below.

The check of class names carries the class that `&` stands for down the forest (`inherited`). It is
the class that a walk up from the node finds: from ruleset to ruleset around it, at-rules left out
(`trailingClass`). The two agree node by node (`inherited_nodes`), by the induction on the forest
that also gives a node its owners.
-/
import HouseStyle.Proofs.Owners
import HouseStyle.Rule.ClassNaming

namespace HouseStyle

open ClassNaming

def rulesetsAmong (owners : List Node) : List Node := owners.filter (·.isRuleset)

/-- What a node hands on to its children is what its children find around them. -/
theorem trailingClass_cons (m : Node) (owners : List Node) :
    trailingClass (rulesetsAmong (m :: owners)) =
      if m.isRuleset then classInside m.selectors (trailingClass (rulesetsAmong owners))
      else trailingClass (rulesetsAmong owners) := by
  unfold rulesetsAmong
  rw [List.filter_cons]
  split
  · rfl
  · rfl

/-- The class is the one that the owners of the node give to it. -/
def HasClass (nodes : List Node) (n : Node) (outer : Option Text) : Prop :=
  n ∈ nodes ∧ ∃ owners, Owners nodes n owners ∧ outer = trailingClass (rulesetsAmong owners)

/-- The classes handed down in one pass over a forest are those that the owners of each node
give. -/
theorem Forest.inherited_number {nodes : List Node} (owners : List Node) (index : Nat) (f : Forest)
    (listed : ∀ n ∈ f.number (Scope.ofOwners owners) index, n ∈ nodes)
    (around : ∀ n : Node, n.index ∈ f.roots index → Owners nodes n owners) :
    List.Forall₂ (HasClass nodes) (f.number (Scope.ofOwners owners) index)
      (inherited (trailingClass (rulesetsAmong owners)) f) := by
  induction f generalizing owners index with
  | nil => exact .nil
  | node b children siblings ihc ihs =>
    let n : Node := ⟨index, b, Scope.ofOwners owners, children.roots (index + 1)⟩
    have hn : n ∈ nodes := listed n List.mem_cons_self
    have hown : Owners nodes n owners := around n List.mem_cons_self
    have hscope : (Scope.ofOwners owners).inside index b = Scope.ofOwners (n :: owners) :=
      (Scope.ofOwners_cons n owners).symm
    have hclass : (if b.isRuleset then
          classInside b.selectors (trailingClass (rulesetsAmong owners))
        else trailingClass (rulesetsAmong owners)) =
          trailingClass (rulesetsAmong (n :: owners)) :=
      (trailingClass_cons n owners).symm
    rw [number] at listed ⊢
    rw [inherited]
    rw [hscope] at listed ⊢
    simp only [hclass]
    refine .cons ⟨hn, owners, hown, rfl⟩ (List.rel_append ?_ ?_)
    · refine ihc (n :: owners) (index + 1) (fun m hm => ?_) (fun m hm => .inside hn hm hown)
      exact listed m (List.mem_cons_of_mem _ (List.mem_append_left _ hm))
    · refine ihs owners _ (fun m hm => ?_) (fun m hm => around m (List.mem_cons_of_mem _ hm))
      exact listed m (List.mem_cons_of_mem _ (List.mem_append_right _ hm))

/-- The class that is carried down to a node is the one that its owners give to it. -/
theorem inherited_nodes (s : Stylesheet) :
    List.Forall₂ (HasClass s.nodes) s.nodes (inherited none s.forest) := by
  have heq := s.nodes_eq
  have hlisted : ∀ n ∈ s.forest.number (Scope.ofOwners []) 0, n ∈ s.nodes := by
    intro n hn
    rw [heq]
    exact hn
  have h := s.forest.inherited_number [] 0 hlisted fun n hn =>
    .top fun m hm => Stylesheet.not_mem_children_of_topLevel hn hm
  rw [show Scope.ofOwners [] = {} from rfl, ← heq] at h
  exact h

/-- The innermost ruleset around a node, with the owners around that. -/
theorem Owners.of_find? {nodes : List Node} {n p : Node} {owners : List Node}
    (h : Owners nodes n owners) (hp : owners.find? (·.isRuleset) = some p) :
    ∃ outer, Owners nodes p outer ∧ p ∈ nodes ∧
      rulesetsAmong owners = p :: rulesetsAmong outer := by
  induction h with
  | top => cases hp
  | @inside n m owners listed child around ih =>
    rw [List.find?_cons] at hp
    unfold rulesetsAmong
    cases hm : m.isRuleset with
    | true =>
      rw [hm] at hp
      obtain rfl := Option.some.inj hp
      exact ⟨owners, around, listed, by rw [List.filter_cons_of_pos hm]⟩
    | false =>
      rw [hm] at hp
      obtain ⟨outer, houter, hmem, he⟩ := ih hp
      exact ⟨outer, houter, hmem, by rw [List.filter_cons_of_neg (by simp [hm])]; exact he⟩

theorem rulesetsAmong_of_find?_none {owners : List Node}
    (h : owners.find? (·.isRuleset) = none) : rulesetsAmong owners = [] :=
  List.filter_eq_nil_iff.2 (List.find?_eq_none.1 h)

end HouseStyle
