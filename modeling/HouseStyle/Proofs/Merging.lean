/-
HouseStyle.Proofs.Merging — findings that are put in order part by part.

Findings come in batches. They can be consolidated all at once, or batch by batch, what there is
already and the next batch together, or in parts that are put together later: the outcome is the
same as long as the batches keep their order (`consolidate_merges`). The order of the batches does
count, because of the findings with one key the first is kept.

## How the proof goes

Of a list of findings, consolidating keeps which one comes first for every key (`first?`), and
nothing else: `first?_consolidate` says that none of it is lost, `consolidate_eq_iff` that it
decides the outcome. A list behind another one matters only for the keys that the other one does not
have (`first?_append`), so what is put in front or behind may have been consolidated before
(`consolidate_append`). The two steps in which findings can be consolidated, to keep the first one
of every key and to sort what was kept, are compared with it in the same way: keeping leaves
`first?` alone (`first?_keep`), and what was kept has no key twice (`Distinct.keep`).
-/
import HouseStyle.Proofs.Duplicates
import Mathlib.Data.Prod.Lex
import Mathlib.Data.String.Basic

namespace HouseStyle.Diagnostic

variable {d e : Diagnostic} {ds es : List Diagnostic}

/-! ## 1. Keys -/

/-- The key of a finding: file, line, column, name of the rule and message, compared in this
order. -/
def sortKey (d : Diagnostic) : String ×ₗ Int ×ₗ Int ×ₗ String ×ₗ String :=
  toLex (d.file, toLex (d.line, toLex (d.column, toLex (d.rule.name, d.message))))

theorem compareKey_eq_compare (d e : Diagnostic) : compareKey d e = compare d.sortKey e.sortKey :=
  rfl

theorem compareKey_eq_lt_iff : compareKey d e = .lt ↔ d.sortKey < e.sortKey := by
  rw [compareKey_eq_compare, compare_lt_iff_lt]

theorem compareKey_eq_eq_iff : compareKey d e = .eq ↔ d.sortKey = e.sortKey := by
  rw [compareKey_eq_compare, compare_eq_iff_eq]

/-! ## 2. First findings -/

def first? (d : Diagnostic) (ds : List Diagnostic) : Option Diagnostic :=
  ds.find? fun e => compareKey d e == .eq

theorem mem_consolidate_iff_first? : d ∈ consolidate ds ↔ first? d ds = some d := mem_consolidate

theorem first?_append (d : Diagnostic) (ds es : List Diagnostic) :
    first? d (ds ++ es) = (first? d ds).or (first? d es) :=
  List.find?_append

theorem first?_eq_none : first? d ds = none ↔ ∀ e ∈ ds, compareKey d e ≠ .eq := by
  simp [first?]

theorem mem_of_first? (h : first? d ds = some e) : e ∈ ds := List.mem_of_find?_eq_some h

theorem compareKey_of_first? (h : first? d ds = some e) : compareKey d e = .eq := by
  simpa using List.find?_some h

/-- Findings with one key have the same first finding. -/
theorem first?_congr (h : compareKey d e = .eq) (ds : List Diagnostic) :
    first? d ds = first? e ds := by
  unfold first?
  simp only [Std.TransCmp.congr_left h]

/-- Of the findings of a key, the first one is found among those that are kept. -/
theorem first?_consolidate (d : Diagnostic) (ds : List Diagnostic) :
    first? d (consolidate ds) = first? d ds := by
  cases hfirst : first? d ds with
  | none =>
    rw [first?_eq_none] at hfirst ⊢
    exact fun e he => hfirst e (mem_of_mem_consolidate he)
  | some e =>
    have hkey := compareKey_of_first? hfirst
    have hkept : e ∈ consolidate ds := by
      rwa [mem_consolidate_iff_first?, ← first?_congr hkey]
    -- what is found among the kept findings has the key of `e`, and there only `e` has it
    cases hfound : first? d (consolidate ds) with
    | none => exact absurd hkey (first?_eq_none.1 hfound e hkept)
    | some e' =>
      have hsame : compareKey e' e = .eq :=
        Std.TransCmp.eq_trans (compareKey_comm.1 (compareKey_of_first? hfound)) hkey
      rw [(ascending_consolidate ds).eq_of_compareKey (mem_of_first? hfound) hkept hsame]

/-- What comes out is decided by the first findings. -/
theorem consolidate_eq_iff :
    consolidate ds = consolidate es ↔ ∀ d, first? d ds = first? d es := by
  constructor
  · intro h d
    rw [← first?_consolidate, h, first?_consolidate]
  · intro h
    refine eq_of_ascending (ascending_consolidate ds) (ascending_consolidate es) fun d => ?_
    rw [mem_consolidate_iff_first?, mem_consolidate_iff_first?, h]

/-- No key is lost, and none is made up. -/
theorem mem_map_sortKey_consolidate (ds : List Diagnostic)
    (k : String ×ₗ Int ×ₗ Int ×ₗ String ×ₗ String) :
    k ∈ (consolidate ds).map sortKey ↔ k ∈ ds.map sortKey := by
  simp only [List.mem_map]
  constructor
  · rintro ⟨d, hd, rfl⟩
    exact ⟨d, mem_of_mem_consolidate hd, rfl⟩
  · rintro ⟨d, hd, rfl⟩
    obtain ⟨e, he, hkey⟩ := exists_firstOfKey hd
    exact ⟨e, mem_consolidate_iff.2 he, (compareKey_eq_eq_iff.1 hkey).symm⟩

/-! ## 3. Parts -/

/-- Either part may have been consolidated before. -/
theorem consolidate_append (ds es : List Diagnostic) :
    consolidate (ds ++ es) = consolidate (consolidate ds ++ consolidate es) := by
  refine consolidate_eq_iff.2 fun d => ?_
  simp only [first?_append, first?_consolidate]

/-- Findings that are consolidated stay as they are. -/
theorem consolidate_consolidate (ds : List Diagnostic) :
    consolidate (consolidate ds) = consolidate ds :=
  consolidate_eq_iff.2 fun d => first?_consolidate d ds

theorem consolidate_append_left (ds es : List Diagnostic) :
    consolidate (consolidate ds ++ es) = consolidate (ds ++ es) := by
  rw [consolidate_append, consolidate_consolidate, ← consolidate_append]

theorem consolidate_append_right (ds es : List Diagnostic) :
    consolidate (ds ++ consolidate es) = consolidate (ds ++ es) := by
  rw [consolidate_append, consolidate_consolidate, ← consolidate_append]

/-- Batches that are taken in one after the other, behind findings that are there already. -/
theorem foldl_consolidate (ds : List Diagnostic) (batches : List (List Diagnostic)) :
    batches.foldl (fun merged batch => consolidate (merged ++ batch)) (consolidate ds) =
      consolidate (ds ++ batches.flatten) := by
  induction batches generalizing ds with
  | nil => simp
  | cons batch batches ih =>
    rw [List.foldl_cons, consolidate_append_left, ih, List.flatten_cons, List.append_assoc]

/-- A way to merge batches: one batch by itself, or two merges, one behind the other. -/
inductive Merging where
  | batch (ds : List Diagnostic)
  | both (first second : Merging)

namespace Merging

def findings : Merging → List Diagnostic
  | batch ds => ds
  | both first second => first.findings ++ second.findings

/-- What comes out if every part is consolidated by itself, and the two parts once more
together. -/
def merged : Merging → List Diagnostic
  | batch ds => consolidate ds
  | both first second => consolidate (first.merged ++ second.merged)

/-- It does not matter how the batches are taken together. -/
theorem merged_eq (m : Merging) : m.merged = consolidate m.findings := by
  induction m with
  | batch ds => rfl
  | both first second ihfirst ihsecond =>
    rw [merged, ihfirst, ihsecond, findings, ← consolidate_append]

end Merging

/-! ## 4. Keeping and sorting -/

/-- Keep a finding, behind those that were kept before, unless one of them has its key. -/
def keep (kept : List Diagnostic) (d : Diagnostic) : List Diagnostic :=
  if (first? d kept).isSome then kept else kept ++ [d]

/-- The findings that are the first of their keys, in the order in which they come. -/
def firsts (ds : List Diagnostic) : List Diagnostic := ds.foldl keep []

def Distinct (ds : List Diagnostic) : Prop := ds.Pairwise fun d e => compareKey d e ≠ .eq

/-- A finding is left out only where another one with its key comes before it. -/
theorem first?_keep (d x : Diagnostic) (kept : List Diagnostic) :
    first? d (keep kept x) = first? d (kept ++ [x]) := by
  unfold keep
  split
  · rename_i hx
    obtain ⟨e, he⟩ := Option.isSome_iff_exists.1 hx
    rw [first?_append]
    by_cases hkey : compareKey d x = .eq
    · rw [first?_congr hkey, he, Option.some_or]
    · have hnone : first? d [x] = none := first?_eq_none.2 (by simpa using hkey)
      rw [hnone, Option.or_none]
  · rfl

theorem Distinct.keep (h : Distinct ds) (x : Diagnostic) : Distinct (keep ds x) := by
  unfold Diagnostic.keep
  split
  · exact h
  · rename_i hx
    have hnone : first? x ds = none := by simpa using hx
    refine List.pairwise_append.2 ⟨h, List.pairwise_singleton _ _, fun e he y hy => ?_⟩
    obtain rfl := List.mem_singleton.1 hy
    exact fun hkey => first?_eq_none.1 hnone e he (compareKey_comm.1 hkey)

/-- Going through findings keeps, for every key, the first one seen. -/
theorem first?_foldl_keep (d : Diagnostic) (kept ds : List Diagnostic) :
    first? d (ds.foldl keep kept) = first? d (kept ++ ds) := by
  induction ds generalizing kept with
  | nil => rw [List.foldl_nil, List.append_nil]
  | cons x ds ih =>
    rw [List.foldl_cons, ih, first?_append, first?_keep, ← first?_append, List.append_assoc]
    rfl

/-- What is kept has every key once. -/
theorem distinct_firsts (ds : List Diagnostic) : Distinct (firsts ds) :=
  List.foldlRecOn ds keep List.Pairwise.nil fun _ h x _ => Distinct.keep h x

/-- Findings with distinct keys ascend once they are sorted. -/
theorem Distinct.ascending_mergeSort (h : Distinct ds) :
    Ascending (ds.mergeSort fun d e => d.sortKey ≤ e.sortKey) := by
  have hsorted := @List.pairwise_mergeSort Diagnostic (fun d e => d.sortKey ≤ e.sortKey)
    (fun d e f hde hef => by simpa using le_trans (of_decide_eq_true hde) (of_decide_eq_true hef))
    (fun d e => by simpa using le_total d.sortKey e.sortKey) ds
  have hdistinct : Distinct (ds.mergeSort fun d e => d.sortKey ≤ e.sortKey) :=
    ((List.mergeSort_perm ds _).pairwise_iff fun hne hkey => hne (compareKey_comm.1 hkey)).2 h
  refine (hsorted.and hdistinct).imp fun {d e} ⟨hle, hne⟩ => ?_
  exact compareKey_eq_lt_iff.2
    (lt_of_le_of_ne (of_decide_eq_true hle) fun hkey => hne (compareKey_eq_eq_iff.2 hkey))

/-- To consolidate is to keep the first finding of every key and to sort what was kept. -/
theorem consolidate_eq_mergeSort (ds : List Diagnostic) :
    consolidate ds = (firsts ds).mergeSort fun d e => d.sortKey ≤ e.sortKey := by
  have hfirsts : consolidate ds = consolidate (firsts ds) :=
    consolidate_eq_iff.2 fun d => (first?_foldl_keep d [] ds).symm
  rw [hfirsts]
  exact consolidate_eq_of_ascending (distinct_firsts ds).ascending_mergeSort fun _ =>
    List.mem_mergeSort.symm

/-- **Findings can be merged in parts.** Two lists, one behind the other, are consolidated to the
same whether they were consolidated before or not. What comes out increases strictly in file, line,
column, rule and message, has for every key that occurs the first finding with it, and nothing else,
so it is what is left if the first finding of every key is kept and these are sorted. To consolidate
once more changes nothing, and batches give the same all at once, taken in one after the other, and
in any other way that keeps their order. -/
theorem consolidate_merges (ds es : List Diagnostic) (batches : List (List Diagnostic)) :
    consolidate (ds ++ es) = consolidate (consolidate ds ++ consolidate es) ∧
      ((consolidate ds).Pairwise fun d e => d.sortKey < e.sortKey) ∧
      (∀ k, k ∈ (consolidate ds).map sortKey ↔ k ∈ ds.map sortKey) ∧
      (∀ d, d ∈ consolidate ds ↔
        ∃ before after, ds = before ++ d :: after ∧ ∀ e ∈ before, e.sortKey ≠ d.sortKey) ∧
      consolidate ds = ((firsts ds).mergeSort fun d e => d.sortKey ≤ e.sortKey) ∧
      consolidate (consolidate ds) = consolidate ds ∧
      batches.foldl (fun merged batch => consolidate (merged ++ batch)) [] =
        consolidate batches.flatten ∧
      batches.foldl (fun merged batch => consolidate (merged ++ consolidate batch)) [] =
        consolidate batches.flatten ∧
      ∀ m : Merging, m.merged = consolidate m.findings := by
  have hfold := foldl_consolidate [] batches
  refine ⟨consolidate_append ds es, ?_, mem_map_sortKey_consolidate ds, fun d => ?_,
    consolidate_eq_mergeSort ds, consolidate_consolidate ds, hfold, ?_, Merging.merged_eq⟩
  · exact (ascending_consolidate ds).imp compareKey_eq_lt_iff.1
  · simp only [mem_consolidate_iff, FirstOfKey, ne_eq, compareKey_eq_eq_iff,
      eq_comm (a := d.sortKey)]
  · simp only [consolidate_append_right]
    exact hfold

end HouseStyle.Diagnostic
