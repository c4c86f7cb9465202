/-
HouseStyle.Proofs.Owners — depth, parent and at-rule of a node are those of the blocks around it.

A node carries what its place in the forest gives it, so that rules need not walk: the number of
rulesets around it, the nearest of them, and the nearest at-rule. Here the blocks around a node are
found the long way, from the numbers alone: the owner of a node is the node that lists it among its
children, then the owner of that one, and so on (`Owners`). The two agree (`scope_of_owners`):
at-rule blocks between rulesets add no depth and hide no parent, rulesets between at-rules hide no
at-rule.

The induction is on the forest, for a row whose owners are known. The node that is numbered first
becomes the first owner of the row of its children, and `Scope.inside` is what `Scope.ofOwners` does
for one owner more (`Scope.ofOwners_cons`).
-/
import HouseStyle.Proofs.Entries
import HouseStyle.Proofs.Outline
import HouseStyle.Proofs.TokenPlaces
import HouseStyle.Proofs.Trimming
import HouseStyle.Rule.Blocks
import Mathlib.Data.List.Nodup

namespace HouseStyle

/-! ## 1. Owners -/

/-- The blocks around a node, from the inside out: the node that has it among its children, with
the blocks around that one. A node of the top level is among the children of none. -/
inductive Owners (nodes : List Node) : Node → List Node → Prop where
  | top {n : Node} (free : ∀ m ∈ nodes, n.index ∉ m.children) : Owners nodes n []
  | inside {n m : Node} {owners : List Node} (listed : m ∈ nodes) (child : n.index ∈ m.children)
      (around : Owners nodes m owners) : Owners nodes n (m :: owners)

def Scope.ofOwners (owners : List Node) : Scope where
  depth := owners.countP (·.isRuleset)
  parent := (owners.find? (·.isRuleset)).map (·.index)
  atRule := (owners.find? fun m => !m.isRuleset).map (·.index)

/-- Each owner hands on what it was given, with its own part added. -/
theorem Scope.ofOwners_cons (m : Node) (owners : List Node) :
    Scope.ofOwners (m :: owners) = (Scope.ofOwners owners).inside m.index m.block := by
  unfold Scope.inside
  split
  · rename_i h
    have hm : m.isRuleset = true := h
    simp [Scope.ofOwners, hm]
  · rename_i h
    have hm : m.isRuleset = false := by simpa [Node.isRuleset] using h
    simp [Scope.ofOwners, hm]

theorem Owners.mem {nodes owners : List Node} {n m : Node} (h : Owners nodes n owners)
    (hm : m ∈ owners) : m ∈ nodes := by
  induction h with
  | top => cases hm
  | inside listed _ _ ih =>
    rcases List.mem_cons.1 hm with rfl | hm
    · exact listed
    · exact ih hm

/-- The nodes of a row whose owners are known have owners too, and their scopes follow. -/
theorem Forest.owners_of_mem_number {nodes : List Node} (owners : List Node) (index : Nat)
    (f : Forest) (listed : ∀ n ∈ f.number (Scope.ofOwners owners) index, n ∈ nodes)
    (around : ∀ n : Node, n.index ∈ f.roots index → Owners nodes n owners) :
    ∀ n ∈ f.number (Scope.ofOwners owners) index,
      ∃ own, Owners nodes n own ∧ n.scope = Scope.ofOwners own := by
  induction f generalizing owners index with
  | nil =>
    intro n hn
    cases hn
  | node b children siblings ihc ihs =>
    let first : Node := ⟨index, b, Scope.ofOwners owners, children.roots (index + 1)⟩
    have hscope : (Scope.ofOwners owners).inside index b = Scope.ofOwners (first :: owners) :=
      (Scope.ofOwners_cons first owners).symm
    have hfirst : Owners nodes first owners := around first List.mem_cons_self
    rw [number, hscope] at listed ⊢
    intro n hn
    rcases List.mem_cons.1 hn with rfl | hn
    · exact ⟨owners, hfirst, rfl⟩
    · rcases List.mem_append.1 hn with hn | hn
      · refine ihc _ _ (fun m hm => listed m ?_) (fun m hm => ?_) n hn
        · exact List.mem_cons_of_mem _ (List.mem_append_left _ hm)
        · exact .inside (listed first List.mem_cons_self) hm hfirst
      · refine ihs _ _ (fun m hm => listed m ?_) (fun m hm => ?_) n hn
        · exact List.mem_cons_of_mem _ (List.mem_append_right _ hm)
        · exact around m (List.mem_cons_of_mem _ hm)

/-! ## 2. Owners in a stylesheet -/

namespace Stylesheet

/-- A node has only one row of owners. -/
theorem owners_unique {s : Stylesheet} {n : Node} {owners other : List Node}
    (h : Owners s.nodes n owners) (h' : Owners s.nodes n other) : owners = other := by
  induction h generalizing other with
  | top free =>
    cases h' with
    | top => rfl
    | inside listed child => exact absurd child (free _ listed)
  | inside listed child _ ih =>
    cases h' with
    | top free => exact absurd child (free _ listed)
    | inside listed' child' around' =>
      obtain rfl := owner_unique listed listed' child child'
      rw [ih around']

/-- Every node has owners, and its scope is what they give it. -/
theorem exists_owners {s : Stylesheet} {n : Node} (h : n ∈ s.nodes) :
    ∃ owners, Owners s.nodes n owners ∧ n.scope = Scope.ofOwners owners := by
  have heq := s.nodes_eq
  refine Forest.owners_of_mem_number [] 0 s.forest (fun m hm => ?_) (fun m hm => ?_) n (heq ▸ h)
  · rw [heq]
    exact hm
  · exact .top fun m' hm' => not_mem_children_of_topLevel hm hm'

/-- The ruleset around a node is the nearest ruleset among its owners. -/
theorem parentOf_eq {s : Stylesheet} {n : Node} {owners : List Node}
    (h : Owners s.nodes n owners) (hs : n.scope = Scope.ofOwners owners) :
    s.parentOf n = owners.find? (·.isRuleset) := by
  unfold parentOf parentAmong
  rw [hs, Scope.ofOwners]
  cases hp : owners.find? (·.isRuleset) with
  | none => rfl
  | some p =>
    have hr : p.isRuleset = true := by simpa using List.find?_some hp
    simp [getElem?_index (h.mem (List.mem_of_find?_eq_some hp)), hr]

end Stylesheet

/-! ## 3. Places of nodes -/

namespace Nesting

/-- A selector stands at a token of its list that is no trivia. -/
theorem exists_token_of_mem_selectorsOf {tokens : List Token} {selector : Selector}
    (h : selector ∈ selectorsOf tokens) :
    ∃ t ∈ tokens, t.isTrivia = false ∧ selector.line = t.line ∧ selector.column = t.column := by
  obtain ⟨entry, he, hs⟩ := List.mem_filterMap.1 h
  unfold selectorOf? at hs
  split at hs
  · cases hs
  · rename_i t rest htrim
    obtain rfl := Option.some.inj hs
    refine ⟨t, mem_of_mem_entries he (Token.mem_of_mem_trimTrivia ?_), ?_, rfl, rfl⟩
    · rw [htrim]
      exact List.mem_cons_self
    · exact Token.isTrivia_of_trimTrivia htrim

/-- A node stands at a token of the statement that begins it. -/
theorem place_of_beginning? {passed : Nat} {owner : Option Nat} {st : Statement} {b : Beginning}
    (h : beginning? passed owner st = some b) :
    ∃ t ∈ st.tokens, b.heading.line = t.line ∧ b.heading.column = t.column := by
  cases st with
  | opening prelude brace =>
    simp only [beginning?, Option.some.injEq] at h
    subst h
    cases hs : selectorsOf prelude with
    | nil => exact ⟨brace, by simp [Statement.tokens], by simp [rulesetHeading, hs]⟩
    | cons selector more =>
      obtain ⟨t, ht, -, hplace⟩ := exists_token_of_mem_selectorsOf (hs ▸ List.mem_cons_self)
      exact ⟨t, List.mem_append_left _ ht, by simpa [rulesetHeading, hs] using hplace⟩
  | atRule keyword prelude ending =>
    simp only [beginning?, Option.some.injEq] at h
    subst h
    exact ⟨keyword, List.mem_cons_self, rfl, rfl⟩
  | _ => cases h

/-- The places of the nodes are among the places of the tokens, in order. -/
theorem sublist_places_outline (passed count : Nat) (opened : List Nat)
    (statements : List Statement) :
    ((outline passed count opened statements).map fun b =>
        (b.heading.line, b.heading.column)).Sublist
      ((statements.flatMap Statement.tokens).map fun t => (t.line, t.column)) := by
  refine (picked_outline passed count opened statements).sublist_places fun h => ?_
  obtain ⟨owner, hbegins⟩ := h
  obtain ⟨t, ht, hline, hcolumn⟩ := place_of_beginning? hbegins
  exact ⟨t, ht, Prod.ext hline hcolumn⟩

end Nesting

/-- No two nodes of a text stand at the same place. -/
theorem Stylesheet.nodup_places_nodes (file : String) (text : Text) :
    ((ofText file text).1.nodes.map fun n => (n.line, n.column)).Nodup := by
  have hsub := Nesting.sublist_places_outline 0 0 [] (Statement.all (tokenize text))
  rw [Statement.tokens_all, ← outline_parse file, List.map_map] at hsub
  exact hsub.nodup (Token.nodup_places text)

/-! ## 4. Nesting -/

namespace Blocks

def isAt (n : Node) (d : Diagnostic) : Bool := d.line = n.line ∧ d.column = n.column

/-- The rule about nesting reports nodes of the stylesheet, each at its own place. -/
theorem mem_checkDepth {s : Stylesheet} {o : Options} {d : Diagnostic} (h : d ∈ checkDepth s o) :
    d.rule = .excessiveNesting ∧ ∃ n ∈ s.nodes, isAt n d = true := by
  obtain ⟨n, hn, rfl⟩ := List.mem_map.1 h
  have hmem : n ∈ s.nodes := (List.mem_filter.1 (List.mem_filter.1 hn).1).1
  exact ⟨rfl, n, hmem, by simp [isAt, Stylesheet.finding]⟩

/-- If no two nodes share a place, a node has one finding at its place if it is a ruleset that is
too deep, and none otherwise. -/
theorem countP_isAt_checkDepth {s : Stylesheet} {o : Options} {n : Node} (hn : n ∈ s.nodes)
    (hplaces : (s.nodes.map fun n => (n.line, n.column)).Nodup) :
    (checkDepth s o).countP (isAt n) =
      if n.isRuleset && isTooDeep o n then 1 else 0 := by
  let place (m : Node) : Nat × Nat := (m.line, m.column)
  let deep := s.rulesets.filter (isTooDeep o)
  have hsub : deep.Sublist s.nodes := List.filter_sublist.trans List.filter_sublist
  have hcount : (checkDepth s o).countP (isAt n) = (deep.map place).count (place n) := by
    rw [checkDepth, List.countP_map, List.count, List.countP_map]
    refine List.countP_congr fun m _ => ?_
    simp only [Function.comp_apply, isAt, place, Stylesheet.finding, decide_eq_true_eq, beq_iff_eq,
      Prod.mk.injEq]
    omega
  have hmem : place n ∈ deep.map place ↔ n ∈ deep := by
    refine ⟨fun h => ?_, List.mem_map_of_mem⟩
    obtain ⟨m, hm, he⟩ := List.mem_map.1 h
    exact List.inj_on_of_nodup_map hplaces (hsub.subset hm) hn he ▸ hm
  have hdeep : n ∈ deep ↔ (n.isRuleset && isTooDeep o n) = true := by
    simp [deep, Stylesheet.rulesets, hn, and_comm]
  rw [hcount, ((hsub.map place).nodup hplaces).count]
  simp only [hmem, hdeep]

end Blocks

/-- **Depth, parent and at-rule of a node are those of the blocks around it**, for every node of
every text. So the parent of a node, if it has one, is a ruleset, and a check of the nesting depth
reports every ruleset with at least as many rulesets around it as are allowed, once, and no other
node. -/
theorem scope_of_owners (file : String) (text : Text) :
    let s := (Stylesheet.ofText file text).1
    (∀ n ∈ s.nodes, ∃ owners, (∀ own, Owners s.nodes n own ↔ own = owners) ∧
      n.scope.parent = (owners.find? (·.isRuleset)).map (·.index) ∧
      n.scope.atRule = (owners.find? fun m => !m.isRuleset).map (·.index) ∧
      n.scope.depth = owners.countP (·.isRuleset) ∧
      ∀ index, n.scope.parent = some index →
        ∃ p, s.parentOf n = some p ∧ p.index = index ∧ p.isRuleset = true) ∧
    (∀ o : Options,
      (∀ d ∈ Blocks.checkDepth s o,
        d.rule = .excessiveNesting ∧ ∃ n ∈ s.nodes, Blocks.isAt n d = true) ∧
      ∀ n ∈ s.nodes, ∀ owners, Owners s.nodes n owners →
        (Blocks.checkDepth s o).countP (Blocks.isAt n) =
          if n.isRuleset ∧ o.maxNestingDepth ≤ owners.countP (·.isRuleset) then 1 else 0) := by
  intro s
  refine ⟨fun n hn => ?_, fun o => ⟨fun d hd => Blocks.mem_checkDepth hd, fun n hn own h => ?_⟩⟩
  · obtain ⟨owners, h, hs⟩ := Stylesheet.exists_owners hn
    refine ⟨owners, fun own => ⟨fun h' => Stylesheet.owners_unique h' h, fun he => he ▸ h⟩, ?_⟩
    rw [hs]
    refine ⟨rfl, rfl, rfl, fun index hp => ?_⟩
    obtain ⟨p, hfind, rfl⟩ := Option.map_eq_some_iff.1 hp
    refine ⟨p, ?_, rfl, by simpa using List.find?_some hfind⟩
    rw [Stylesheet.parentOf_eq h hs, hfind]
  · obtain ⟨owners, h', hs⟩ := Stylesheet.exists_owners hn
    obtain rfl := Stylesheet.owners_unique h h'
    rw [Blocks.countP_isAt_checkDepth hn (Stylesheet.nodup_places_nodes file text)]
    have hdepth : n.scope.depth = own.countP (·.isRuleset) := by rw [hs]; rfl
    simp only [Blocks.isTooDeep, Node.level, hdepth, Nat.lt_succ_iff, Bool.and_eq_true,
      decide_eq_true_eq]

end HouseStyle
