/-
HouseStyle.Proofs.Suffixes — what a suffix behind `&` is glued onto.

Which class `&` stands for inside a ruleset is said by two rules (`StandsFor`): a ruleset with one
selector that ends in a class stands for that class, and one that is nothing but `&` with a suffix
stands for what the ruleset around it stands for, with the suffix added. Where neither rule applies
there is no such class.

The same class is found in three ways, and `suffixes_resolved` says that they agree. The check of
class names carries it down the forest (`ClassNaming.inherited`); the recursion over the rulesets
around a node finds it from the outside in (`ClassNaming.trailingClass`); and a walk up from a
ruleset meets the suffixes from the inside out, keeps them in a list and turns the list around when
it meets a class (`Climb`). The walk ends because the ruleset around a node has a lesser number; the
induction is on that number, for a walk that has met any suffixes already.
-/
import HouseStyle.Proofs.Addresses
import HouseStyle.Proofs.Inherited

namespace HouseStyle

open ClassNaming

/-! ## 1. The rulesets around a node -/

namespace Stylesheet

variable {s : Stylesheet} {n p : Node}

/-- The ruleset around a node is a ruleset with a smaller number, so climbing ends. -/
theorem parentOf_eq_some (hn : n ∈ s.nodes) (hp : s.parentOf n = some p) :
    p ∈ s.nodes ∧ p.isRuleset = true ∧ p.index < n.index := by
  obtain ⟨owners, howners, hscope⟩ := exists_owners hn
  rw [parentOf_eq howners hscope] at hp
  have hmem : p ∈ owners := List.mem_of_find?_eq_some hp
  exact ⟨howners.mem hmem, by simpa using List.find?_some hp, index_lt_of_owners howners p hmem⟩

def enclosingRulesets (s : Stylesheet) (n : Node) : List Node :=
  match s.parentOf n with
  | some p => if _h : p.index < n.index then p :: s.enclosingRulesets p else []
  | none => []
termination_by n.index

theorem enclosingRulesets_of_none (hp : s.parentOf n = none) : s.enclosingRulesets n = [] := by
  rw [enclosingRulesets, hp]

theorem enclosingRulesets_of_some (hn : n ∈ s.nodes) (hp : s.parentOf n = some p) :
    s.enclosingRulesets n = p :: s.enclosingRulesets p := by
  obtain ⟨-, -, hlt⟩ := parentOf_eq_some hn hp
  rw [enclosingRulesets, hp]
  exact dif_pos hlt

/-- The rulesets around a node are those among its owners. -/
theorem enclosingRulesets_eq {n : Node} (hn : n ∈ s.nodes) {owners : List Node}
    (howners : Owners s.nodes n owners) : s.enclosingRulesets n = rulesetsAmong owners := by
  obtain ⟨own, hown, hscope⟩ := exists_owners hn
  obtain rfl := owners_unique howners hown
  have hparent := parentOf_eq howners hscope
  cases hfind : owners.find? (·.isRuleset) with
  | none =>
    rw [hfind] at hparent
    rw [enclosingRulesets_of_none hparent, rulesetsAmong_of_find?_none hfind]
  | some p =>
    rw [hfind] at hparent
    obtain ⟨outer, houter, hp, hrulesets⟩ := howners.of_find? hfind
    rw [enclosingRulesets_of_some hn hparent, hrulesets, enclosingRulesets_eq hp houter]
termination_by n.index
decreasing_by exact index_lt_of_owners howners p (List.mem_of_find?_eq_some hfind)

end Stylesheet

/-! ## 2. The class that `&` stands for -/

/-- The class that `&` stands for inside a ruleset. -/
inductive StandsFor (s : Stylesheet) : Node → Text → Prop where
  /-- The last class of the last compound of the only selector. -/
  | own {r : Node} {selector : Selector} {last : Selector.Compound} {name : Text}
      (only : r.selectors = [selector]) (ends : selector.compounds.getLast? = some last)
      (named : last.classes.getLast? = some name) : StandsFor s r name
  /-- A suffix, glued onto what the ruleset around stands for. -/
  | glued {r p : Node} {selector : Selector} {compound : Selector.Compound} {suffix base : Text}
      (only : r.selectors = [selector]) (single : selector.compounds = [compound])
      (bare : compound.classes = []) (suffixed : compound.element = '&' :: suffix)
      (nonempty : suffix ≠ []) (around : s.parentOf r = some p) (outer : StandsFor s p base) :
      StandsFor s r (base ++ suffix)

/-- The class that `&` stands for inside a ruleset, by recursion over the rulesets around it. -/
def standsFor? (s : Stylesheet) (r : Node) : Option Text :=
  trailingClass (r :: s.enclosingRulesets r)

variable {s : Stylesheet} {r n : Node}

/-- What `&` stands for around a node is what it stands for inside the ruleset around the node. -/
theorem trailingClass_enclosingRulesets (hn : n ∈ s.nodes) :
    trailingClass (s.enclosingRulesets n) = (s.parentOf n).bind (standsFor? s) := by
  cases hp : s.parentOf n with
  | none =>
    rw [Stylesheet.enclosingRulesets_of_none hp]
    rfl
  | some p =>
    rw [Stylesheet.enclosingRulesets_of_some hn hp]
    rfl

/-- What `&` stands for in a ruleset is settled by its selectors and by what it stands for around
it. -/
theorem standsFor?_eq (hr : r ∈ s.nodes) :
    standsFor? s r = classInside r.selectors ((s.parentOf r).bind (standsFor? s)) := by
  rw [← trailingClass_enclosingRulesets hr]
  rfl

/-- A suffix is what stands behind `&`. -/
theorem element_eq_of_parentSuffix {c : Selector.Compound} (h : c.parentSuffix ≠ []) :
    c.element = '&' :: c.parentSuffix := by
  unfold Selector.Compound.parentSuffix Selector.Compound.isParentReference at h ⊢
  split at h
  · rename_i hparent
    rw [if_pos hparent]
    cases helement : c.element with
    | nil =>
      rw [helement] at hparent
      cases hparent
    | cons a suffix =>
      rw [helement] at hparent
      simp only [List.head?_cons, beq_iff_eq, Option.some.injEq] at hparent
      rw [hparent]
      rfl
  · exact absurd rfl h

theorem parentSuffix_of_element {c : Selector.Compound} {suffix : Text}
    (h : c.element = '&' :: suffix) : c.parentSuffix = suffix := by
  simp [Selector.Compound.parentSuffix, Selector.Compound.isParentReference, h]

/-- A selector that ends in a class settles what `&` stands for. -/
theorem classInside_of_named {selector : Selector} {last : Selector.Compound} {name : Text}
    (ends : selector.compounds.getLast? = some last) (named : last.classes.getLast? = some name)
    (outer : Option Text) : classInside [selector] outer = some name := by
  simp only [classInside, ends, named]

/-- A selector that is nothing but a suffix adds it to what `&` stands for around. -/
theorem classInside_of_suffix {selector : Selector} {compound : Selector.Compound} {suffix : Text}
    (single : selector.compounds = [compound]) (bare : compound.classes = [])
    (suffixed : compound.element = '&' :: suffix) (nonempty : suffix ≠ []) (outer : Option Text) :
    classInside [selector] outer = outer.map (· ++ suffix) := by
  have hsuffix := parentSuffix_of_element suffixed
  have hnonempty : suffix.isEmpty = false := by simpa using nonempty
  simp [classInside, single, bare, hsuffix, hnonempty]

/-- There is no other way to have a class. -/
theorem classInside_eq_some {selectors : List Selector} {outer : Option Text} {name : Text}
    (h : classInside selectors outer = some name) :
    ∃ selector, selectors = [selector] ∧
      ((∃ last, selector.compounds.getLast? = some last ∧ last.classes.getLast? = some name) ∨
      ∃ compound base, selector.compounds = [compound] ∧ compound.classes = [] ∧
        compound.parentSuffix ≠ [] ∧ outer = some base ∧ name = base ++ compound.parentSuffix) := by
  unfold classInside at h
  split at h
  · rename_i selector
    refine ⟨selector, rfl, ?_⟩
    split at h
    · cases h
    · rename_i last hlast
      split at h
      · rename_i own hown
        rw [← h]
        exact .inl ⟨last, hlast, hown⟩
      · rename_i hbare
        split at h
        · rename_i hsuffix
          rw [Bool.and_eq_true, decide_eq_true_iff, List.length_eq_one_iff] at hsuffix
          obtain ⟨⟨compound, hsingle⟩, hnonempty⟩ := hsuffix
          obtain rfl : compound = last := by
            rw [hsingle] at hlast
            exact Option.some.inj hlast
          obtain ⟨base, hbase, hname⟩ := Option.map_eq_some_iff.1 h
          refine .inr ⟨compound, base, hsingle, List.getLast?_eq_none_iff.1 hbare, ?_, hbase,
            hname.symm⟩
          simpa using hnonempty
        · cases h
  · cases h

/-- The recursion finds the class that `&` stands for. -/
theorem standsFor?_eq_some_iff {s : Stylesheet} {r : Node} (hr : r ∈ s.nodes) {name : Text} :
    standsFor? s r = some name ↔ StandsFor s r name := by
  constructor
  · intro h
    rw [standsFor?_eq hr] at h
    obtain ⟨selector, only, ⟨last, ends, named⟩ | ⟨compound, base, single, bare, nonempty, outer,
      rfl⟩⟩ := classInside_eq_some h
    · exact .own only ends named
    · obtain ⟨p, hp, hbase⟩ := Option.bind_eq_some_iff.1 outer
      obtain ⟨hmem, -, hlt⟩ := Stylesheet.parentOf_eq_some hr hp
      exact .glued only single bare (element_eq_of_parentSuffix nonempty) nonempty hp
        ((standsFor?_eq_some_iff hmem).1 hbase)
  · intro h
    induction h with
    | own only ends named =>
      rw [standsFor?_eq hr, only, classInside_of_named ends named]
    | glued only single bare suffixed nonempty around outer ih =>
      obtain ⟨hmem, -, -⟩ := Stylesheet.parentOf_eq_some hr around
      rw [standsFor?_eq hr, only, classInside_of_suffix single bare suffixed nonempty, around,
        Option.bind_some, ih hmem]
      rfl
termination_by r.index

/-! ## 3. The walk up -/

/-- A walk up: the suffixes it has met, from the inside out, and the ruleset it has come to. -/
structure Climb where
  suffixes : List Text := []
  current : Option Node

/-- One turn of the walk: on to the ruleset around, or an answer. -/
def Climb.turn (s : Stylesheet) (c : Climb) : Climb ⊕ Option Text :=
  match c.current with
  | none => .inr none
  | some r =>
    match r.selectors with
    | [selector] =>
      match selector.compounds.getLast? with
      | none => .inr none
      | some last =>
        match last.classes.getLast? with
        | some name => .inr (some (name ++ c.suffixes.reverse.flatten))
        | none =>
          if selector.compounds.length ≠ 1 || last.parentSuffix.isEmpty then .inr none
          else .inl ⟨c.suffixes ++ [last.parentSuffix], s.parentOf r⟩
    | _ => .inr none

/-- The walk ends with an answer, after finitely many turns. -/
inductive Climb.Ends (s : Stylesheet) : Climb → Option Text → Prop where
  | answer {c : Climb} {found : Option Text} (turned : c.turn s = .inr found) : Ends s c found
  | onward {c next : Climb} {found : Option Text} (turned : c.turn s = .inl next)
      (ends : Ends s next found) : Ends s c found

/-- A climb ends with one answer. -/
theorem Climb.Ends.unique {s : Stylesheet} {c : Climb} {found other : Option Text}
    (h : Climb.Ends s c found) (h' : Climb.Ends s c other) : found = other := by
  induction h with
  | answer turned =>
    cases h' with
    | answer turned' =>
      rw [turned] at turned'
      exact Sum.inr.inj turned'
    | onward turned' =>
      rw [turned] at turned'
      cases turned'
  | onward turned _ ih =>
    cases h' with
    | answer turned' =>
      rw [turned] at turned'
      cases turned'
    | onward turned' ends' =>
      rw [turned] at turned'
      obtain rfl := Sum.inl.inj turned'
      exact ih ends'

/-- A turn goes on if the ruleset is nothing but a suffix, and gives an answer if it is not. -/
theorem Climb.turn_spec (s : Stylesheet) (r : Node) (suffixes : List Text) :
    (∃ suffix, Climb.turn s ⟨suffixes, some r⟩ = .inl ⟨suffixes ++ [suffix], s.parentOf r⟩ ∧
      ∀ outer, classInside r.selectors outer = outer.map (· ++ suffix)) ∨
    ∃ found, Climb.turn s ⟨suffixes, some r⟩ = .inr found ∧
      ∀ outer, (classInside r.selectors outer).map (· ++ suffixes.reverse.flatten) = found := by
  cases hselectors : r.selectors with
  | nil =>
    refine .inr ⟨none, ?_, fun outer => rfl⟩
    simp only [turn, hselectors]
  | cons selector more =>
    cases more with
    | cons second more =>
      refine .inr ⟨none, ?_, fun outer => rfl⟩
      simp only [turn, hselectors]
    | nil =>
      cases hlast : selector.compounds.getLast? with
      | none =>
        refine .inr ⟨none, ?_, fun outer => ?_⟩
        · simp only [turn, hselectors, hlast]
        · simp only [classInside, hlast, Option.map_none]
      | some last =>
        cases hname : last.classes.getLast? with
        | some name =>
          refine .inr ⟨some (name ++ suffixes.reverse.flatten), ?_, fun outer => ?_⟩
          · simp only [turn, hselectors, hlast, hname]
          · simp only [classInside, hlast, hname, Option.map_some]
        | none =>
          by_cases hgo : selector.compounds.length = 1 ∧ last.parentSuffix.isEmpty = false
          · refine .inl ⟨last.parentSuffix, ?_, fun outer => ?_⟩
            · simp only [turn, hselectors, hlast, hname]
              exact if_neg (by simp [hgo])
            · simp only [classInside, hlast, hname]
              exact if_pos (by simp [hgo])
          · have hstop : (selector.compounds.length ≠ 1 || last.parentSuffix.isEmpty) = true := by
              simpa [or_iff_not_imp_left] using hgo
            refine .inr ⟨none, ?_, fun outer => ?_⟩
            · simp only [turn, hselectors, hlast, hname]
              exact if_pos hstop
            · simp only [classInside, hlast, hname]
              rw [if_neg (by simpa using hgo)]
              rfl

/-- A walk that comes to a ruleset finds the class that `&` stands for there, with the suffixes that
it has met behind it, the last of them first. -/
theorem Climb.ends {s : Stylesheet} {r : Node} (hr : r ∈ s.nodes) (suffixes : List Text) :
    Climb.Ends s ⟨suffixes, some r⟩
      ((standsFor? s r).map (· ++ suffixes.reverse.flatten)) := by
  rw [standsFor?_eq hr]
  rcases Climb.turn_spec s r suffixes with ⟨suffix, hturn, hinside⟩ | ⟨found, hturn, hinside⟩
  · refine .onward hturn ?_
    rw [hinside, Option.map_map]
    cases hp : s.parentOf r with
    | none => exact .answer rfl
    | some p =>
      obtain ⟨hmem, -, hlt⟩ := Stylesheet.parentOf_eq_some hr hp
      have hwalk := Climb.ends hmem (suffixes ++ [suffix])
      have hmet : ((· ++ suffixes.reverse.flatten) ∘ (· ++ suffix) : Text → Text) =
          (· ++ (suffixes ++ [suffix]).reverse.flatten) := by
        funext name
        simp
      rwa [Option.bind_some, hmet]
  · rw [hinside]
    exact .answer hturn
termination_by r.index

/-! ## 4. The check of class names -/

/-- What is carried down the forest is what the rulesets around every node make of it. -/
theorem inherited_eq_map (s : Stylesheet) :
    inherited none s.forest = s.nodes.map fun n => (s.parentOf n).bind (standsFor? s) := by
  have heach : List.Forall₂ (fun n outer => (s.parentOf n).bind (standsFor? s) = outer) s.nodes
      (inherited none s.forest) := by
    refine (inherited_nodes s).imp ?_
    rintro n _ ⟨hn, owners, howners, rfl⟩
    rw [← trailingClass_enclosingRulesets hn, Stylesheet.enclosingRulesets_eq hn howners]
  exact (List.forall₂_eq_eq_eq ▸ List.forall₂_map_left_iff.2 heach).symm

/-- The check looks at every class with what `&` stands for around its ruleset. -/
theorem classes_eq_flatMap (s : Stylesheet) :
    classes s = (s.nodes.filter fun n => n.isRuleset && !n.inAtRule).flatMap fun n =>
      classesOf n ((s.parentOf n).bind (standsFor? s)) := by
  rw [classes, inherited_eq_map, ← List.map_prod_left_eq_zip, List.filter_map, List.flatMap_map]
  rfl

/-! ## 5. Rulesets inside each other -/

/-- The ruleset around a node is the first one behind the at-rule blocks around it. -/
theorem Stylesheet.parentOf_of_owners {p : Node} {between outer : List Node} (hn : n ∈ s.nodes)
    (howners : Owners s.nodes n (between ++ p :: outer))
    (atRules : ∀ m ∈ between, m.isRuleset = false) (hp : p.isRuleset = true) :
    s.parentOf n = some p := by
  obtain ⟨own, hown, hscope⟩ := exists_owners hn
  obtain rfl := owners_unique howners hown
  have hnone : between.find? (·.isRuleset) = none := by simpa using atRules
  rw [parentOf_eq howners hscope, List.find?_append, hnone, List.find?_cons_of_pos hp]
  rfl

/-- A node with a selector is a ruleset. -/
theorem Node.isRuleset_of_selectors {selector : Selector} (h : n.selectors = [selector]) :
    n.isRuleset = true := by
  unfold Node.selectors Block.selectors at h
  unfold Node.isRuleset Block.isRuleset
  split at h
  · rfl
  · cases h

/-- Rulesets inside each other with nothing but at-rule blocks between them: the outermost stands
for a class, and each of the others is nothing but a suffix. The suffixes are listed from the
outside in. -/
inductive Chain (s : Stylesheet) (base : Text) : Node → List Text → Prop where
  | outermost {r : Node} {selector : Selector} {last : Selector.Compound} (listed : r ∈ s.nodes)
      (only : r.selectors = [selector]) (ends : selector.compounds.getLast? = some last)
      (named : last.classes.getLast? = some base) : Chain s base r []
  | inside {r p : Node} {between outer : List Node} {selector : Selector}
      {compound : Selector.Compound} {suffix : Text} {suffixes : List Text}
      (around : Chain s base p suffixes) (listed : r ∈ s.nodes)
      (blocks : Owners s.nodes r (between ++ p :: outer))
      (atRules : ∀ m ∈ between, m.isRuleset = false) (only : r.selectors = [selector])
      (single : selector.compounds = [compound]) (bare : compound.classes = [])
      (suffixed : compound.element = '&' :: suffix) (nonempty : suffix ≠ []) :
      Chain s base r (suffixes ++ [suffix])

namespace Chain

variable {base : Text} {suffixes : List Text}

theorem mem (h : Chain s base r suffixes) : r ∈ s.nodes := by
  cases h with
  | outermost listed => exact listed
  | inside _ listed => exact listed

theorem isRuleset (h : Chain s base r suffixes) : r.isRuleset = true := by
  cases h with
  | outermost _ only => exact Node.isRuleset_of_selectors only
  | inside _ _ _ _ only => exact Node.isRuleset_of_selectors only

/-- Inside a chain `&` stands for its class with all suffixes, from the outside in. -/
theorem standsFor (h : Chain s base r suffixes) : StandsFor s r (base ++ suffixes.flatten) := by
  induction h with
  | outermost listed only ends named =>
    rw [List.flatten_nil, List.append_nil]
    exact .own only ends named
  | inside around listed blocks atRules only single bare suffixed nonempty ih =>
    have hparent := Stylesheet.parentOf_of_owners listed blocks atRules around.isRuleset
    rw [List.flatten_append, List.flatten_singleton, ← List.append_assoc]
    exact .glued only single bare suffixed nonempty hparent ih

end Chain

/-- A selector that starts with a suffix has the name that this makes before its own names. -/
theorem resolvedNames_of_suffix {selector : Selector} {first : Selector.Compound}
    {more : List Selector.Compound} {suffix : Text} (starts : selector.compounds = first :: more)
    (suffixed : first.element = '&' :: suffix) (nonempty : suffix ≠ []) (base : Text) :
    resolvedNames (some base) selector = (base ++ suffix) :: selector.classNames := by
  have hsuffix : leadingSuffix selector = suffix := by
    rw [leadingSuffix, starts]
    exact parentSuffix_of_element suffixed
  have hnonempty : suffix.isEmpty = false := by simpa using nonempty
  simp [resolvedNames, hsuffix, hnonempty]

/-! ## 6. Suffixes are resolved -/

/-- The walk up from a ruleset ends, with the class that `&` stands for inside it and with none if
there is no such class; that class is what the check of class names uses; and inside rulesets that
add a suffix each, it is the class they start from with the suffixes in the order of nesting. -/
theorem suffixes_resolved (s : Stylesheet) :
    (∀ r ∈ s.nodes,
      (∀ found, Climb.Ends s { current := some r } found ↔ found = standsFor? s r) ∧
      ∀ name, standsFor? s r = some name ↔ StandsFor s r name) ∧
    (classes s = (s.nodes.filter fun n => n.isRuleset && !n.inAtRule).flatMap fun n =>
      classesOf n ((s.parentOf n).bind (standsFor? s))) ∧
    ∀ (base : Text) (suffixes : List Text) (r n : Node) (between outer : List Node),
      Chain s base r suffixes → n ∈ s.nodes → Owners s.nodes n (between ++ r :: outer) →
      (∀ m ∈ between, m.isRuleset = false) →
      ∀ selector ∈ n.selectors, ∀ (first : Selector.Compound) (more : List Selector.Compound)
        (suffix : Text), selector.compounds = first :: more → first.element = '&' :: suffix →
        suffix ≠ [] →
        resolvedNames ((s.parentOf n).bind (standsFor? s)) selector =
          (base ++ (suffixes ++ [suffix]).flatten) :: selector.classNames := by
  refine ⟨fun r hr => ⟨fun found => ?_, fun name => standsFor?_eq_some_iff hr⟩,
    classes_eq_flatMap s, ?_⟩
  · have hends : Climb.Ends s { current := some r } (standsFor? s r) := by
      simpa using Climb.ends hr []
    constructor
    · intro h
      exact h.unique hends
    · rintro rfl
      exact hends
  · intro base suffixes r n between outer hchain hn howners atRules selector _ first more suffix
      starts suffixed nonempty
    have hparent := Stylesheet.parentOf_of_owners hn howners atRules hchain.isRuleset
    have hclass := (standsFor?_eq_some_iff hchain.mem).2 hchain.standsFor
    rw [hparent, Option.bind_some, hclass, resolvedNames_of_suffix starts suffixed nonempty,
      List.flatten_append, List.flatten_singleton, List.append_assoc]

/-- At-rule blocks between the rulesets do not matter. -/
theorem suffixes_resolved_media :
    let text := ".C\x7b&-a\x7b@media x\x7b&-b .d\x7b\x7d\x7d\x7d\x7d".toList
    let s := (Stylesheet.ofText "a.scss" text).1
    ∃ n ∈ s.nodes, n.inAtRule = true ∧ ∃ selector ∈ n.selectors,
      resolvedNames ((s.parentOf n).bind (standsFor? s)) selector =
        ["C-a-b".toList, "d".toList] := by
  intro text s
  let outermost := s.nodes.get ⟨0, by decide +kernel⟩
  let inside := s.nodes.get ⟨1, by decide +kernel⟩
  let media := s.nodes.get ⟨2, by decide +kernel⟩
  let innermost := s.nodes.get ⟨3, by decide +kernel⟩
  have howners : Owners s.nodes outermost [] := .top (by decide +kernel)
  have hinside : Owners s.nodes inside ([] ++ outermost :: []) :=
    .inside (List.get_mem _ _) (by decide +kernel) howners
  have hinnermost : Owners s.nodes innermost ([media] ++ inside :: [outermost]) :=
    .inside (List.get_mem _ _) (by decide +kernel)
      (.inside (List.get_mem _ _) (by decide +kernel) hinside)
  have houtermost : outermost.selectors =
      [⟨".C".toList, 1, 1, ⟨[{ classes := ["C".toList] }], []⟩⟩] := by decide +kernel
  have hsuffixed : inside.selectors =
      [⟨"&-a".toList, 1, 4, ⟨[{ element := "&-a".toList }], []⟩⟩] := by decide +kernel
  have hchain : Chain s "C".toList inside ([] ++ ["-a".toList]) :=
    .inside (.outermost (List.get_mem _ _) houtermost rfl rfl) (List.get_mem _ _) hinside
      (by decide) hsuffixed rfl rfl rfl (by decide)
  refine ⟨innermost, List.get_mem _ _, by decide +kernel, ⟨"&-b .d".toList, 1, 17,
    ⟨[{ element := "&-b".toList }, { classes := ["d".toList] }], [.descendant]⟩⟩,
    by decide +kernel, ?_⟩
  exact (suffixes_resolved s).2.2 _ _ inside innermost [media] [outermost] hchain
    (List.get_mem _ _) hinnermost (by decide +kernel) _ (by decide +kernel) _ _ "-b".toList rfl rfl
    (by decide)

end HouseStyle
