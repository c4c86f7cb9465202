/-
HouseStyle.Proofs.Preorder — numbered nodes are a forest in preorder.

Rules see the nodes of a stylesheet as a flat list and go from one to another by number. What they
rely on is said here without the forest behind the list: a depth-first walk that starts at the
numbers of the top level and follows the children of each node (`Visits`) meets the nodes in the
order of their numbers.

Every statement is proved for the part of the list that one row of siblings fills, at whatever
number it starts; the induction is on the forest, one case for the end of a row and one for a node
with its children and the siblings behind it.
-/
import HouseStyle.Stylesheet

namespace HouseStyle

/-! ## 1. Walking by number -/

/-- The depth-first walk over numbered nodes: the numbers that are still to be visited, and all
that are visited from there on, in order. A node is visited before its children, and these before
what was waiting. -/
inductive Visits (nodes : List Node) : List Nat → List Nat → Prop where
  | done : Visits nodes [] []
  | visit {index : Nat} {n : Node} {waiting visited : List Nat} (found : nodes[index]? = some n)
      (onward : Visits nodes (n.children ++ waiting) visited) :
      Visits nodes (index :: waiting) (index :: visited)

/-- A walk has only one course. -/
theorem Visits.unique {nodes : List Node} {waiting visited other : List Nat}
    (h : Visits nodes waiting visited) (h' : Visits nodes waiting other) : visited = other := by
  induction h generalizing other with
  | done =>
    cases h'
    rfl
  | visit found onward ih =>
    cases h' with
    | visit found' onward' =>
      rw [found, Option.some.injEq] at found'
      subst found'
      rw [ih onward']

/-! ## 2. Numbers of a row -/

namespace Forest

theorem length_number (s : Scope) (index : Nat) (f : Forest) :
    (f.number s index).length = f.size := by
  induction f generalizing s index with
  | nil => rfl
  | node b children siblings ihc ihs =>
    rw [number, List.length_cons, List.length_append, ihc, ihs, size]
    omega

/-- The numbers that a node with its children and siblings takes. -/
theorem range'_size_node (index : Nat) (b : Block) (children siblings : Forest) :
    List.range' index (node b children siblings).size =
      index :: (List.range' (index + 1) children.size ++
        List.range' (index + 1 + children.size) siblings.size) := by
  rw [size, Nat.add_assoc 1, Nat.add_comm 1, List.range'_succ, List.range'_append_1]

/-- Nodes are numbered one after another. -/
theorem map_index_number (s : Scope) (index : Nat) (f : Forest) :
    (f.number s index).map (·.index) = List.range' index f.size := by
  induction f generalizing s index with
  | nil => rfl
  | node b children siblings ihc ihs =>
    rw [number, List.map_cons, List.map_append, ihc, ihs, range'_size_node]

/-- The siblings of a row have numbers of that row. -/
theorem bounds_of_mem_roots {index : Nat} {f : Forest} {r : Nat} (h : r ∈ f.roots index) :
    index ≤ r ∧ r < index + f.size := by
  induction f generalizing index with
  | nil => cases h
  | node b children siblings _ ihs =>
    rw [size]
    rcases List.mem_cons.1 h with rfl | h
    · omega
    · have := ihs h
      omega

/-- The numbers of siblings increase. -/
theorem pairwise_roots (index : Nat) (f : Forest) : (f.roots index).Pairwise (· < ·) := by
  induction f generalizing index with
  | nil => exact List.Pairwise.nil
  | node b children siblings _ ihs =>
    refine List.Pairwise.cons (fun r hr => ?_) (ihs _)
    have := bounds_of_mem_roots hr
    omega

/-- The children of a node are a row that starts right behind it. -/
theorem children_of_mem_number {s : Scope} {index : Nat} {f : Forest} {n : Node}
    (h : n ∈ f.number s index) : ∃ g : Forest, n.children = g.roots (n.index + 1) := by
  induction f generalizing s index with
  | nil => cases h
  | node b children siblings ihc ihs =>
    rcases List.mem_cons.1 h with rfl | h
    · exact ⟨children, rfl⟩
    · rcases List.mem_append.1 h with h | h
      · exact ihc h
      · exact ihs h

/-- Every number of a row belongs to one list: the row itself, or the children of one node. -/
theorem perm_roots_children (s : Scope) (index : Nat) (f : Forest) :
    (f.roots index ++ (f.number s index).flatMap (·.children)).Perm
      (List.range' index f.size) := by
  induction f generalizing s index with
  | nil => exact List.Perm.refl _
  | node b children siblings ihc ihs =>
    have hc := ihc (s.inside index b) (index + 1)
    have hs := ihs s (index + 1 + children.size)
    rw [range'_size_node]
    refine List.Perm.trans ?_ ((hc.append hs).cons index)
    simp only [roots, number, List.flatMap_cons, List.flatMap_append, List.cons_append]
    refine List.Perm.cons index ?_
    -- the row of the siblings is listed before the children of the first node, and numbered behind
    rw [← List.append_assoc (children.roots _)]
    exact List.perm_append_comm_assoc _ _ _

/-- A walk over a row visits it in order and goes on behind it. -/
theorem visits_roots {nodes : List Node} (front back : List Node) (s : Scope) (f : Forest)
    {waiting visited : List Nat} (hn : nodes = front ++ (f.number s front.length ++ back))
    (h : Visits nodes waiting visited) :
    Visits nodes (f.roots front.length ++ waiting)
      (List.range' front.length f.size ++ visited) := by
  induction f generalizing front back s waiting visited with
  | nil => exact h
  | node b children siblings ihc ihs =>
    let first : Node := ⟨front.length, b, s, children.roots (front.length + 1)⟩
    let inner := children.number (s.inside front.length b) (front.length + 1)
    let outer := siblings.number s (front.length + 1 + children.size)
    have hrow : nodes = front ++ (first :: (inner ++ outer) ++ back) := hn
    have hfound : nodes[front.length]? = some first := by
      rw [hrow, List.getElem?_append_right (Nat.le_refl _), Nat.sub_self]
      rfl
    have hsiblings : Visits nodes (siblings.roots (front.length + 1 + children.size) ++ waiting)
        (List.range' (front.length + 1 + children.size) siblings.size ++ visited) := by
      have hlen : (front ++ first :: inner).length = front.length + 1 + children.size := by
        simp only [List.length_append, List.length_cons, inner, length_number]
        omega
      rw [← hlen]
      refine ihs _ back s ?_ h
      rw [hlen, hrow]
      simp [outer]
    have hchildren := ihc (front ++ [first]) (outer ++ back) (s.inside front.length b)
      (by rw [hrow]; simp [inner]) hsiblings
    rw [List.length_append, List.length_singleton] at hchildren
    rw [range'_size_node, List.cons_append, List.append_assoc]
    exact Visits.visit hfound hchildren

end Forest

/-! ## 3. Numbers of a stylesheet -/

namespace Stylesheet

/-- The numbers of siblings: those of the top level, then the children of each node. -/
def rows (s : Stylesheet) : List (List Nat) := s.topLevel :: s.nodes.map (·.children)

theorem length_nodes (s : Stylesheet) : s.nodes.length = s.forest.size := by
  rw [s.nodes_eq, Forest.length_number]

/-- The number of a node is its place in the list. -/
theorem map_index_nodes (s : Stylesheet) :
    s.nodes.map (·.index) = List.range s.nodes.length := by
  rw [length_nodes, s.nodes_eq, Forest.map_index_number, List.range_eq_range']

/-- Going through the top level, each node before its children, visits all nodes in order of their
numbers. -/
theorem visits_topLevel (s : Stylesheet) :
    Visits s.nodes s.topLevel (List.range s.nodes.length) := by
  have hnodes : s.nodes = [] ++ (s.forest.number {} 0 ++ []) := by simpa using s.nodes_eq
  have h := Forest.visits_roots [] [] {} s.forest hnodes Visits.done
  rw [List.append_nil, List.append_nil] at h
  rw [length_nodes, List.range_eq_range']
  exact h

/-- Every node is in one row, once. -/
theorem perm_rows (s : Stylesheet) : s.rows.flatten.Perm (List.range s.nodes.length) := by
  have h := Forest.perm_roots_children {} 0 s.forest
  rw [← s.nodes_eq, ← length_nodes, ← List.range_eq_range'] at h
  exact h

/-- The children of a node are numbered behind it. -/
theorem lt_of_mem_children {s : Stylesheet} {n : Node} (hn : n ∈ s.nodes) {c : Nat}
    (hc : c ∈ n.children) : n.index < c := by
  rw [s.nodes_eq] at hn
  obtain ⟨g, hg⟩ := Forest.children_of_mem_number hn
  rw [hg] at hc
  exact (Forest.bounds_of_mem_roots hc).1

/-- Siblings stand in the order of their numbers. -/
theorem pairwise_of_mem_rows {s : Stylesheet} {row : List Nat} (h : row ∈ s.rows) :
    row.Pairwise (· < ·) := by
  rcases List.mem_cons.1 h with rfl | h
  · exact Forest.pairwise_roots 0 s.forest
  · obtain ⟨n, hn, rfl⟩ := List.mem_map.1 h
    rw [s.nodes_eq] at hn
    obtain ⟨g, hg⟩ := Forest.children_of_mem_number hn
    rw [hg]
    exact Forest.pairwise_roots _ g

/-- A number leads back to its node. -/
theorem getElem?_index {s : Stylesheet} {n : Node} (h : n ∈ s.nodes) :
    s.nodes[n.index]? = some n := by
  obtain ⟨k, hk, rfl⟩ := List.getElem_of_mem h
  have hindex : (s.nodes[k]).index = k := by
    have hmap : (s.nodes.map (·.index))[k]? = some (s.nodes[k]).index := by simp [hk]
    rw [s.map_index_nodes] at hmap
    simpa [hk] using hmap.symm
  rw [hindex, List.getElem?_eq_getElem hk]

/-- No node stands in two rows of siblings, or twice in one. -/
theorem nodup_rows (s : Stylesheet) : s.rows.flatten.Nodup :=
  s.perm_rows.nodup_iff.2 List.nodup_range

/-- A node of the top level is among the children of none. -/
theorem not_mem_children_of_topLevel {s : Stylesheet} {index : Nat} (h : index ∈ s.topLevel)
    {m : Node} (hm : m ∈ s.nodes) : index ∉ m.children := by
  have hnodup := s.nodup_rows
  rw [rows, List.flatten_cons, List.nodup_append] at hnodup
  intro hc
  exact hnodup.2.2 index h index (List.mem_flatten.2 ⟨_, List.mem_map.2 ⟨m, hm, rfl⟩, hc⟩) rfl

/-- A node is among the children of one node only. -/
theorem owner_unique {s : Stylesheet} {m m' : Node} (hm : m ∈ s.nodes) (hm' : m' ∈ s.nodes)
    {index : Nat} (hc : index ∈ m.children) (hc' : index ∈ m'.children) : m = m' := by
  have hnodup := s.nodup_rows
  rw [rows, List.flatten_cons, List.nodup_append, ← List.flatMap_def] at hnodup
  have hpair := (List.pairwise_flatMap.1 hnodup.2.1).2
  refine List.Pairwise.forall_of_forall_of_flip
    (R := fun a b : Node => index ∈ a.children → index ∈ b.children → a = b)
    (fun _ _ _ _ => rfl) ?_ ?_ hm hm' hc hc'
  · exact hpair.imp fun h ha hb => absurd rfl (h index ha index hb)
  · exact hpair.imp fun h hb ha => absurd rfl (h index ha index hb)

/-- The number of the node that has a number among its children. -/
def ownerOf? (s : Stylesheet) (index : Nat) : Option Nat :=
  (s.nodes.find? fun m => m.children.contains index).map (·.index)

theorem ownerOf?_topLevel {s : Stylesheet} {index : Nat} (h : index ∈ s.topLevel) :
    s.ownerOf? index = none := by
  rw [ownerOf?, Option.map_eq_none_iff, List.find?_eq_none]
  intro m hm
  simpa using not_mem_children_of_topLevel h hm

/-- A child names the node among whose children it stands as its owner. -/
theorem ownerOf?_child {s : Stylesheet} {n : Node} (hn : n ∈ s.nodes) {index : Nat}
    (h : index ∈ n.children) : s.ownerOf? index = some n.index := by
  rw [ownerOf?, Option.map_eq_some_iff]
  refine ⟨n, ?_, rfl⟩
  cases hf : s.nodes.find? (fun m => m.children.contains index) with
  | none => exact absurd h (by simpa using List.find?_eq_none.1 hf n hn)
  | some m =>
    have hm : index ∈ m.children := by simpa using List.find?_some hf
    rw [owner_unique (List.mem_of_find?_eq_some hf) hn hm h]

end Stylesheet

end HouseStyle
