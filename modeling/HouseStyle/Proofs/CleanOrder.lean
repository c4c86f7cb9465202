/-
HouseStyle.Proofs.CleanOrder — declarations without a finding about their order are sorted.

Two rules judge the order of declarations, each by neighbours only: groups may not descend, and
names may not descend where the group stays the same. What the two let pass together is one order,
the lexicographic order of group and name (`rank`), and an order that neighbours keep is kept by any
two declarations, however far apart (`sorted_iff_forall_pairs`). So `clean_iff_sorted`: a stylesheet
has no finding of either rule if and only if the declarations of each ruleset are sorted by rank,
and declarations can be sorted by rank in one way only, as far as ranks tell them apart.
-/
import HouseStyle.Rule.DeclarationOrder
import Mathlib.Data.Char
import Mathlib.Data.List.Lex
import Mathlib.Data.List.Pairwise
import Mathlib.Data.Prod.Lex

namespace HouseStyle

/-- No two groups share a place in the order. -/
theorem PropertyGroup.ordinal_inj {g h : PropertyGroup} (he : g.ordinal = h.ordinal) : g = h := by
  cases g <;> cases h <;> first | rfl | cases he

namespace DeclarationOrder

/-! ## 1. One order for both rules -/

/-- What a declaration is sorted by: its group, and among those of one group its name without case
and vendor prefix. -/
def rank (d : Declaration) : Nat ×ₗ Text := toLex ((group d).ordinal, sortKey d)

/-- Two declarations that follow each other pass both rules if and only if their ranks do not
descend. -/
theorem rank_le_iff (p c : Declaration) :
    rank p ≤ rank c ↔ groupsDescend p c = false ∧ namesDescend p c = false := by
  have hgroup : group p = group c ↔ (group p).ordinal = (group c).ordinal :=
    ⟨congrArg _, PropertyGroup.ordinal_inj⟩
  rw [rank, rank, Prod.Lex.toLex_le_toLex, groupsDescend, namesDescend, Bool.and_eq_false_iff,
    decide_eq_false_iff_not, decide_eq_false_iff_not, decide_eq_false_iff_not, hgroup, not_lt,
    not_lt]
  constructor
  · rintro (hlt | ⟨heq, hle⟩)
    · exact ⟨hlt.le, .inl hlt.ne⟩
    · exact ⟨heq.le, .inr hle⟩
  · rintro ⟨hle, hne | hkey⟩
    · exact .inl (lt_of_le_of_ne hle hne)
    · exact hle.lt_or_eq.imp_right fun heq => ⟨heq, hkey⟩

/-! ## 2. From neighbours to any two -/

/-- The declarations are sorted: any two of them, not only neighbours. -/
def Sorted (ds : List Declaration) : Prop := ds.Pairwise fun p c => rank p ≤ rank c

theorem isChain_iff_forall_neighbours {ds : List Declaration}
    {r : Declaration → Declaration → Prop} :
    ds.IsChain r ↔ ∀ pair ∈ neighbours ds, r pair.1 pair.2 := by
  induction ds with
  | nil => simp [neighbours]
  | cons d rest ih =>
    cases rest with
    | nil => simp [neighbours]
    | cons e rest =>
      have hneighbours : neighbours (d :: e :: rest) = (d, e) :: neighbours (e :: rest) := rfl
      rw [List.isChain_cons_cons, ih, hneighbours, List.forall_mem_cons]

/-- The order of ranks is transitive, so neighbours decide. -/
theorem sorted_iff_forall_neighbours {ds : List Declaration} :
    Sorted ds ↔ ∀ pair ∈ neighbours ds, rank pair.1 ≤ rank pair.2 := by
  have htrans : Trans (fun p c : Declaration => rank p ≤ rank c) (fun p c => rank p ≤ rank c)
      (fun p c => rank p ≤ rank c) := ⟨le_trans⟩
  rw [Sorted, ← List.isChain_iff_pairwise, isChain_iff_forall_neighbours]

/-- Declarations are sorted as soon as neighbours are, since ranks are ordered transitively. -/
theorem sorted_iff_forall_pairs {s : Stylesheet} :
    (∀ ds ∈ ordered s, Sorted ds) ↔ ∀ pair ∈ pairs s, rank pair.1 ≤ rank pair.2 := by
  simp only [sorted_iff_forall_neighbours, pairs, List.mem_flatMap]
  constructor
  · rintro h pair ⟨ds, hds, hpair⟩
    exact h ds hds pair hpair
  · intro h ds hds pair hpair
    exact h pair ⟨ds, hds, hpair⟩

def rankOf (property : Text) : Nat ×ₗ Text :=
  toLex ((propertyGroup (lowercase property)).ordinal, propertyKey property)

/-- The rank of a declaration depends on its property alone. -/
theorem map_rank (ds : List Declaration) : ds.map rank = (ds.map (·.property)).map rankOf := by
  rw [List.map_map]
  rfl

/-- There is one way to sort declarations with given properties, as far as ranks tell them apart. -/
theorem Sorted.map_rank_eq {ds es : List Declaration} (hds : Sorted ds) (hes : Sorted es)
    (hperm : (ds.map (·.property)).Perm (es.map (·.property))) : ds.map rank = es.map rank := by
  have hranks : (ds.map rank).Perm (es.map rank) := by
    rw [map_rank, map_rank]
    exact hperm.map rankOf
  exact hranks.eq_of_pairwise (fun _ _ _ _ => le_antisymm) (List.pairwise_map.2 hds)
    (List.pairwise_map.2 hes)

/-! ## 3. Both rules -/

def IsClean (s : Stylesheet) (o : Options) : Prop := checkGroups s o = [] ∧ checkNames s o = []

/-- Both rules pass exactly if the declarations of every judged ruleset are sorted. -/
theorem isClean_iff {s : Stylesheet} {o : Options} :
    IsClean s o ↔ ∀ ds ∈ ordered s, Sorted ds := by
  have hrank : (∀ pair ∈ pairs s, rank pair.1 ≤ rank pair.2) ↔
      (∀ pair ∈ pairs s, groupsDescend pair.1 pair.2 = false) ∧
        ∀ pair ∈ pairs s, namesDescend pair.1 pair.2 = false := by
    simp only [rank_le_iff, ← forall₂_and]
  rw [sorted_iff_forall_pairs, hrank, IsClean, checkGroups, checkNames, List.map_eq_nil_iff,
    List.map_eq_nil_iff, List.filter_eq_nil_iff, List.filter_eq_nil_iff]
  simp only [Bool.not_eq_true]

/-- The declarations of a ruleset that are in order or not: its declarations but for variables. -/
def judged (r : Node) : List Declaration := r.declarations.filter fun d => !d.isVariable

theorem forall_ordered_iff {s : Stylesheet} {p : List Declaration → Prop} :
    (∀ ds ∈ ordered s, p ds) ↔
      ∀ r ∈ s.nodes, r.isRuleset = true → r.inAtRule = false → p (judged r) := by
  simp only [ordered, List.forall_mem_map, Stylesheet.rulesets, List.mem_filter, and_imp,
    Bool.not_eq_true', judged]

/-- Both rules pass if and only if the declarations of every ruleset they look at are sorted. -/
theorem isClean_iff_forall_rulesets {s : Stylesheet} {o : Options} :
    IsClean s o ↔ ∀ r ∈ s.nodes, r.isRuleset = true → r.inAtRule = false → Sorted (judged r) :=
  isClean_iff.trans forall_ordered_iff

end DeclarationOrder

open DeclarationOrder

/-- **Clean order means sorted.** The rules about the order of groups and of names find nothing in a
stylesheet if and only if in every ruleset outside at-rule blocks any two declarations, variables
apart, stand in the order of their ranks: lexicographically by group and name. So wherever the same
properties pass in two orders, both show the same ranks one after the other. -/
theorem clean_iff_sorted :
    (∀ (s : Stylesheet) (o : Options),
      (checkGroups s o = [] ∧ checkNames s o = []) ↔
        ∀ r ∈ s.nodes, r.isRuleset = true → r.inAtRule = false →
          (judged r).Pairwise fun p c => rank p ≤ rank c) ∧
    (∀ (s s' : Stylesheet) (o o' : Options), IsClean s o → IsClean s' o' →
      ∀ r ∈ s.nodes, r.isRuleset = true → r.inAtRule = false →
      ∀ r' ∈ s'.nodes, r'.isRuleset = true → r'.inAtRule = false →
        ((judged r).map (·.property)).Perm ((judged r').map (·.property)) →
          (judged r).map rank = (judged r').map rank) := by
  refine ⟨fun s o => isClean_iff_forall_rulesets, ?_⟩
  intro s s' o o' hs hs' r hr hruleset hat r' hr' hruleset' hat' hperm
  have hsorted : Sorted (judged r) := isClean_iff_forall_rulesets.1 hs r hr hruleset hat
  have hsorted' : Sorted (judged r') := isClean_iff_forall_rulesets.1 hs' r' hr' hruleset' hat'
  exact hsorted.map_rank_eq hsorted' hperm

/-- A property with and without a vendor prefix may stand in both orders; the ranks are the same. -/
theorem clean_iff_sorted_vendor :
    let s := (Stylesheet.ofText "a.css" "a\x7b-x-top:0;Top:1\x7d".toList).1
    let s' := (Stylesheet.ofText "a.css" "b\x7bTop:1;-x-top:0\x7d".toList).1
    ∃ r ∈ s.nodes, ∃ r' ∈ s'.nodes,
      (judged r).map (·.property) = ["-x-top".toList, "Top".toList] ∧
      (judged r').map (·.property) = ["Top".toList, "-x-top".toList] ∧
      (judged r).map rank = (judged r').map rank := by
  intro s s'
  have hs : IsClean s {} := by
    constructor <;> decide +kernel
  have hs' : IsClean s' {} := by
    constructor <;> decide +kernel
  obtain ⟨r, hr, hruleset, hat, hproperties⟩ : ∃ r ∈ s.nodes, r.isRuleset = true ∧
      r.inAtRule = false ∧ (judged r).map (·.property) = ["-x-top".toList, "Top".toList] := by
    decide +kernel
  obtain ⟨r', hr', hruleset', hat', hproperties'⟩ : ∃ r ∈ s'.nodes, r.isRuleset = true ∧
      r.inAtRule = false ∧ (judged r).map (·.property) = ["Top".toList, "-x-top".toList] := by
    decide +kernel
  refine ⟨r, hr, r', hr', hproperties, hproperties', ?_⟩
  refine clean_iff_sorted.2 s s' {} {} hs hs' r hr hruleset hat r' hr' hruleset' hat' ?_
  rw [hproperties, hproperties']
  exact List.Perm.swap _ _ _

end HouseStyle
