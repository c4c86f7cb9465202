/-
HouseStyle.Proofs.Consolidation — the order of findings, and what is left of them in order.

`compareKey` orders findings by file, line, column, rule and message. It is a total order up to
findings that agree in all five (`compareKey_eq_iff`), so a list of findings in strictly increasing
order is determined by its members (`eq_of_ascending`). What `consolidate` does is said in these
terms: its result ascends (`ascending_consolidate`), and its members are the first findings of
every key (`mem_consolidate`). All that is proved about consolidated lists later follows from the
two; no proof looks at the insertions again.
-/
import HouseStyle.Diagnostic
import Mathlib.Data.List.Perm.Basic

namespace HouseStyle

/-! ## 1. Keys -/

/-- A rule is known by its name. -/
theorem RuleId.find?_name (r : RuleId) : all.find? (·.name == r.name) = some r := by
  cases r <;> decide

theorem RuleId.name_inj {r r' : RuleId} : r.name = r'.name ↔ r = r' := by
  constructor
  · intro h
    have hr := find?_name r
    rw [h, find?_name r'] at hr
    exact (Option.some.inj hr).symm
  · exact congrArg name

namespace Diagnostic

instance : Std.TransCmp compareKey :=
  inferInstanceAs <| Std.TransCmp <|
    compareLex (compareOn file) <| compareLex (compareOn line) <| compareLex (compareOn column) <|
      compareLex (compareOn fun d => d.rule.name) (compareOn message)

/-- Two findings have the same key if they agree in everything but severity and fix. -/
theorem compareKey_eq_iff {a b : Diagnostic} :
    compareKey a b = .eq ↔
      a.file = b.file ∧ a.line = b.line ∧ a.column = b.column ∧ a.rule = b.rule ∧
        a.message = b.message := by
  simp only [compareKey, Ordering.then_eq_eq, Std.LawfulEqOrd.compare_eq_iff_eq, RuleId.name_inj]

/-- The keys of the findings increase, so no two of them agree. -/
def Ascending (ds : List Diagnostic) : Prop := ds.Pairwise fun a b => compareKey a b = .lt

@[simp] theorem compareKey_self (d : Diagnostic) : compareKey d d = .eq := Std.ReflCmp.compare_self

theorem compareKey_comm {a b : Diagnostic} : compareKey a b = .eq ↔ compareKey b a = .eq :=
  Std.OrientedCmp.eq_comm

theorem Ascending.nodup {ds : List Diagnostic} (h : Ascending ds) : ds.Nodup := by
  refine h.imp fun {a b} hab he => ?_
  subst he
  simp at hab

/-- Findings of an ascending list that have the same key are the same. -/
theorem Ascending.eq_of_compareKey {ds : List Diagnostic} (h : Ascending ds) {a b : Diagnostic}
    (ha : a ∈ ds) (hb : b ∈ ds) (hab : compareKey a b = .eq) : a = b := by
  refine List.Pairwise.forall_of_forall_of_flip
    (R := fun a b : Diagnostic => compareKey a b = .eq → a = b) (fun _ _ _ => rfl) ?_ ?_ ha hb hab
  · exact h.imp fun hlt he => absurd (hlt.symm.trans he) (by simp)
  · exact h.imp fun hlt he => absurd (hlt.symm.trans (compareKey_comm.1 he)) (by simp)

/-- An ascending list is determined by its members. -/
theorem eq_of_ascending {ds es : List Diagnostic} (hd : Ascending ds) (he : Ascending es)
    (hmem : ∀ d, d ∈ ds ↔ d ∈ es) : ds = es := by
  have hperm : ds.Perm es := (List.perm_ext_iff_of_nodup hd.nodup he.nodup).2 hmem
  refine hperm.eq_of_pairwise (fun a b _ _ hab hba => ?_) hd he
  have haa := Std.TransCmp.lt_trans hab hba
  simp at haa

/-! ## 2. Insertion -/

/-- An insertion brings in nothing but the finding itself. -/
theorem mem_of_mem_insert {d e : Diagnostic} {ds : List Diagnostic} (h : e ∈ insert d ds) :
    e = d ∨ e ∈ ds := by
  induction ds with
  | nil => exact .inl (List.mem_singleton.1 h)
  | cons x rest ih =>
    unfold insert at h
    split at h
    · exact List.mem_cons.1 h
    · rcases List.mem_cons.1 h with rfl | h
      · exact .inl rfl
      · exact .inr (List.mem_cons_of_mem _ h)
    · rcases List.mem_cons.1 h with rfl | h
      · exact .inr List.mem_cons_self
      · exact (ih h).imp id (List.mem_cons_of_mem _)

/-- An insertion keeps the keys strictly increasing: a finding takes the place of one with its
key. -/
theorem Ascending.insert {ds : List Diagnostic} (h : Ascending ds) (d : Diagnostic) :
    Ascending (insert d ds) := by
  induction ds with
  | nil => exact List.pairwise_singleton _ _
  | cons x rest ih =>
    obtain ⟨hx, hrest⟩ := List.pairwise_cons.1 h
    unfold Diagnostic.insert
    split
    · rename_i hlt
      refine List.Pairwise.cons (fun e he => ?_) h
      rcases List.mem_cons.1 he with rfl | he
      · exact hlt
      · exact Std.TransCmp.lt_trans hlt (hx e he)
    · rename_i heq
      exact List.Pairwise.cons (fun e he => Std.TransCmp.lt_of_eq_of_lt heq (hx e he)) hrest
    · rename_i hgt
      refine List.Pairwise.cons (fun e he => ?_) (ih hrest)
      rcases mem_of_mem_insert he with rfl | he
      · exact Std.OrientedCmp.gt_iff_lt.1 hgt
      · exact hx e he

/-- A finding that is put into an ascending list takes the place of the one with its key. -/
theorem mem_insert {ds : List Diagnostic} (h : Ascending ds) {d e : Diagnostic} :
    e ∈ insert d ds ↔ e = d ∨ e ∈ ds ∧ compareKey d e ≠ .eq := by
  induction ds with
  | nil => simp [insert]
  | cons x rest ih =>
    obtain ⟨hx, hrest⟩ := List.pairwise_cons.1 h
    unfold insert
    split
    · rename_i hlt
      have hall : ∀ y ∈ x :: rest, compareKey d y ≠ .eq := by
        intro y hy
        rcases List.mem_cons.1 hy with rfl | hy
        · simp [hlt]
        · simp [Std.TransCmp.lt_trans hlt (hx y hy)]
      rw [List.mem_cons]
      exact or_congr_right (iff_self_and.2 (hall e))
    · rename_i heq
      have hall : ∀ y ∈ rest, compareKey d y ≠ .eq := by
        intro y hy
        simp [Std.TransCmp.lt_of_eq_of_lt heq (hx y hy)]
      rw [List.mem_cons, List.mem_cons]
      refine or_congr_right ⟨fun he => ⟨.inr he, hall e he⟩, ?_⟩
      rintro ⟨rfl | he, hne⟩
      · exact absurd heq hne
      · exact he
    · rename_i hgt
      rw [List.mem_cons, ih hrest, List.mem_cons]
      constructor
      · rintro (rfl | rfl | ⟨he, hne⟩)
        · exact .inr ⟨.inl rfl, by simp [hgt]⟩
        · exact .inl rfl
        · exact .inr ⟨.inr he, hne⟩
      · rintro (rfl | ⟨rfl | he, hne⟩)
        · exact .inr (.inl rfl)
        · exact .inl rfl
        · exact .inr (.inr ⟨he, hne⟩)

/-! ## 3. Consolidation -/

/-- The keys of consolidated findings strictly increase. -/
theorem ascending_consolidate (ds : List Diagnostic) : Ascending (consolidate ds) := by
  induction ds with
  | nil => exact List.Pairwise.nil
  | cons d ds ih => exact ih.insert d

/-- Of the findings with one key the first is kept. -/
theorem mem_consolidate {ds : List Diagnostic} {d : Diagnostic} :
    d ∈ consolidate ds ↔ ds.find? (fun e => compareKey d e == .eq) = some d := by
  induction ds with
  | nil => simp [consolidate]
  | cons x ds ih =>
    show d ∈ insert x (consolidate ds) ↔ _
    rw [mem_insert (ascending_consolidate ds), ih, ne_eq, compareKey_comm]
    by_cases hkey : compareKey d x = .eq
    · rw [List.find?_cons_of_pos (by simp [hkey])]
      simp [hkey, eq_comm]
    · rw [List.find?_cons_of_neg (by simp [hkey])]
      have hne : d ≠ x := by
        rintro rfl
        simp at hkey
      simp [hkey, hne]

theorem mem_of_mem_consolidate {ds : List Diagnostic} {d : Diagnostic} (h : d ∈ consolidate ds) :
    d ∈ ds :=
  List.mem_of_find?_eq_some (mem_consolidate.1 h)

/-- Findings of one key are the same finding. -/
def Unambiguous (ds : List Diagnostic) : Prop :=
  ∀ d ∈ ds, ∀ e ∈ ds, compareKey d e = .eq → d = e

/-- Consolidating unambiguous findings loses none. -/
theorem Unambiguous.mem_consolidate {ds : List Diagnostic} (h : Unambiguous ds)
    {d : Diagnostic} : d ∈ consolidate ds ↔ d ∈ ds := by
  refine ⟨mem_of_mem_consolidate, fun hd => Diagnostic.mem_consolidate.2 ?_⟩
  cases hfind : ds.find? (fun e => compareKey d e == .eq) with
  | none =>
    have hself := List.find?_eq_none.1 hfind d hd
    simp at hself
  | some e =>
    have hkey : compareKey d e = .eq := by simpa using List.find?_some hfind
    rw [h d hd e (List.mem_of_find?_eq_some hfind) hkey]

/-- A list with the members of an ascending one is consolidated to it. -/
theorem consolidate_eq_of_ascending {ds es : List Diagnostic} (he : Ascending es)
    (hmem : ∀ d, d ∈ ds ↔ d ∈ es) : consolidate ds = es := by
  have hds : Unambiguous ds := fun d hd e he' hkey =>
    he.eq_of_compareKey ((hmem d).1 hd) ((hmem e).1 he') hkey
  refine eq_of_ascending (ascending_consolidate ds) he fun d => ?_
  rw [hds.mem_consolidate, hmem]

/-- Changes that leave the keys alone can be made before or after. -/
theorem consolidate_map {f : Diagnostic → Diagnostic}
    (hf : ∀ a b, compareKey (f a) (f b) = compareKey a b) (ds : List Diagnostic) :
    consolidate (ds.map f) = (consolidate ds).map f := by
  have hinsert (d : Diagnostic) (es : List Diagnostic) :
      insert (f d) (es.map f) = (insert d es).map f := by
    induction es with
    | nil => rfl
    | cons e es ih =>
      simp only [List.map_cons, insert, hf]
      cases compareKey d e <;> simp [ih]
  induction ds with
  | nil => rfl
  | cons d ds ih =>
    show insert (f d) (consolidate (ds.map f)) = _
    rw [ih, hinsert]
    rfl

/-- What a key decides can be asked before or after. -/
theorem consolidate_filter {p : Diagnostic → Bool}
    (hp : ∀ a b, compareKey a b = .eq → p a = p b) (ds : List Diagnostic) :
    consolidate (ds.filter p) = (consolidate ds).filter p := by
  refine eq_of_ascending (ascending_consolidate _) ((ascending_consolidate ds).filter p)
    fun d => ?_
  rw [mem_consolidate, List.mem_filter, mem_consolidate, List.find?_filter]
  cases hd : p d with
  | true =>
    have hsame : (fun e => decide (p e = true ∧ (compareKey d e == .eq) = true)) =
        fun e => compareKey d e == .eq := by
      funext e
      by_cases hkey : compareKey d e = .eq
      · simp [hkey, ← hp d e hkey, hd]
      · simp [hkey]
    rw [hsame]
    exact (and_iff_left rfl).symm
  | false =>
    refine ⟨fun h => ?_, fun h => nomatch h.2⟩
    have hpd := List.find?_some h
    simp [hd] at hpd

end Diagnostic

end HouseStyle
