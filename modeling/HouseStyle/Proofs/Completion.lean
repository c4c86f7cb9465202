/-
HouseStyle.Proofs.Completion — the report of a batch does not depend on who is done first.

A source that is done adds a group of findings or a failure to the report, and nothing that was
added before decides which. So a report of sources with different names holds the groups and the
failures of its sources in the order in which they were done (`files_ofSources`,
`collected_ofSources`, `failed_ofSources`). What is read from a report sorts them: the findings of a
file ascend, those of a lesser file come before those of a greater one, so in the order of names the
groups follow each other as they are (`ascending_groups`), and consolidating all findings can only
give that row again (`diagnostics_ofSources`, `byFile_ofSources`). `batch_completion` draws the
conclusions.
-/
import HouseStyle.Batch
import HouseStyle.Proofs.Advice

namespace HouseStyle

open Diagnostic

/-! ## 1. What a source adds -/

namespace Source

/-- The name of a source with the findings about it, if it could be checked. -/
def group? (s : Source) : Option (String × List Diagnostic) :=
  match s.text with
  | .ok text => some (s.file, check s.file text s.options)
  | .error _ => none

/-- The name of a source with the reason why it could not be checked. -/
def failure? (s : Source) : Option (String × String) :=
  match s.text with
  | .ok _ => none
  | .error reason => some (s.file, reason)

theorem group?_eq_some {s : Source} {g : String × List Diagnostic} (h : s.group? = some g) :
    ∃ text, s.text = .ok text ∧ g = (s.file, check s.file text s.options) := by
  unfold group? at h
  split at h
  · rename_i text htext
    exact ⟨text, htext, (Option.some.inj h).symm⟩
  · cases h

theorem group?_of_ok {s : Source} {text : Text} (h : s.text = .ok text) :
    s.group? = some (s.file, check s.file text s.options) := by
  rw [group?, h]

theorem failure?_of_error {s : Source} {reason : String} (h : s.text = .error reason) :
    s.failure? = some (s.file, reason) := by
  rw [failure?, h]

/-- A source is checked or it fails. -/
theorem map_fst_group?_append_failure? (s : Source) :
    s.group?.toList.map Prod.fst ++ s.failure?.toList.map Prod.fst = [s.file] := by
  unfold group? failure?
  cases s.text <;> rfl

end Source

namespace Report

/-- The reason of a file that did not fail before goes to the end. -/
theorem setReason_of_not_mem {file reason : String} {failed : List (String × String)}
    (h : file ∉ failed.map Prod.fst) :
    setReason file reason failed = failed ++ [(file, reason)] := by
  induction failed with
  | nil => rfl
  | cons entry rest ih =>
    obtain ⟨f, old⟩ := entry
    rw [List.map_cons, List.mem_cons, not_or] at h
    rw [setReason, if_neg (Ne.symm h.1), ih h.2]
    rfl

variable (r : Report) (s : Source)

theorem files_include : (r.include s).files = r.files ++ s.group?.toList.map Prod.fst := by
  unfold Report.include Source.group?
  cases s.text with
  | ok text => rfl
  | error reason => exact (List.append_nil _).symm

theorem collected_include :
    (r.include s).collected = r.collected ++ s.group?.toList.flatMap Prod.snd := by
  unfold Report.include Source.group?
  cases s.text with
  | ok text => exact congrArg _ (List.append_nil _).symm
  | error reason => exact (List.append_nil _).symm

theorem failed_include (h : s.file ∉ r.failed.map Prod.fst) :
    (r.include s).failed = r.failed ++ s.failure?.toList := by
  unfold Report.include Source.failure?
  cases s.text with
  | ok text => exact (List.append_nil _).symm
  | error reason => exact setReason_of_not_mem h

/-! ## 2. What a row of sources adds up to -/

variable {r} {sources : List Source}

theorem files_foldl :
    (sources.foldl Report.include r).files =
      r.files ++ (sources.filterMap Source.group?).map Prod.fst := by
  induction sources generalizing r with
  | nil => exact (List.append_nil _).symm
  | cons s rest ih =>
    rw [List.foldl_cons, ih, files_include, List.append_assoc, ← List.map_append]
    cases h : s.group? <;> simp [h]

theorem collected_foldl :
    (sources.foldl Report.include r).collected =
      r.collected ++ (sources.filterMap Source.group?).flatMap Prod.snd := by
  induction sources generalizing r with
  | nil => exact (List.append_nil _).symm
  | cons s rest ih =>
    rw [List.foldl_cons, ih, collected_include, List.append_assoc, ← List.flatMap_append]
    cases h : s.group? <;> simp [h]

theorem failed_foldl (hnew : ∀ s ∈ sources, s.file ∉ r.failed.map Prod.fst)
    (hfiles : (sources.map Source.file).Nodup) :
    (sources.foldl Report.include r).failed = r.failed ++ sources.filterMap Source.failure? := by
  induction sources generalizing r with
  | nil => exact (List.append_nil _).symm
  | cons s rest ih =>
    obtain ⟨hs, hrest⟩ := List.nodup_cons.1 hfiles
    have hstep : (r.include s).failed = r.failed ++ s.failure?.toList :=
      r.failed_include s (hnew s List.mem_cons_self)
    -- what was added is the name of `s`, and no source behind it has that name
    have hnew' : ∀ s' ∈ rest, s'.file ∉ (r.include s).failed.map Prod.fst := by
      intro s' hs' hmem
      rw [hstep, List.map_append] at hmem
      rcases List.mem_append.1 hmem with hmem | hmem
      · exact hnew s' (List.mem_cons_of_mem _ hs') hmem
      · have hfile : s'.file ∈ [s.file] := by
          rw [← s.map_fst_group?_append_failure?]
          exact List.mem_append_right _ hmem
        rw [← List.mem_singleton.1 hfile] at hs
        exact hs (List.mem_map_of_mem hs')
    rw [List.foldl_cons, ih hnew' hrest, hstep, List.append_assoc]
    cases h : s.failure? <;> simp [h]

/-- The report names the sources that could be checked, in the order in which they are done. -/
theorem files_ofSources (sources : List Source) :
    (ofSources sources).files = (sources.filterMap Source.group?).map Prod.fst :=
  files_foldl

/-- The report gathers the findings of the checked sources, in the order in which they are done. -/
theorem collected_ofSources (sources : List Source) :
    (ofSources sources).collected = (sources.filterMap Source.group?).flatMap Prod.snd :=
  collected_foldl

/-- The report records the sources that could not be checked, each with its reason, if no two have
one name. -/
theorem failed_ofSources (hfiles : (sources.map Source.file).Nodup) :
    (ofSources sources).failed = sources.filterMap Source.failure? :=
  failed_foldl (fun _ _ => List.not_mem_nil) hfiles

end Report

/-- Every name is that of a group or of a failure. -/
theorem Source.perm_files (sources : List Source) :
    ((sources.filterMap group?).map Prod.fst ++ (sources.filterMap failure?).map Prod.fst).Perm
      (sources.map file) := by
  rw [List.filterMap_eq_flatMap_toList, List.filterMap_eq_flatMap_toList, List.map_flatMap,
    List.map_flatMap]
  refine (List.flatMap_append_perm sources _ _).trans (List.Perm.of_eq ?_)
  simp only [map_fst_group?_append_failure?]
  exact List.flatMap_pure_eq_map _ _

/-! ## 3. The order of names -/

/-- Sorting by a name leaves the names in order. -/
theorem pairwise_mergeSort_name {α : Type} (name : α → String) (xs : List α) :
    (xs.mergeSort fun a b => decide (name a ≤ name b)).Pairwise fun a b => name a ≤ name b := by
  have h : (xs.mergeSort fun a b => decide (name a ≤ name b)).Pairwise fun a b =>
      decide (name a ≤ name b) = true := by
    refine List.pairwise_mergeSort (fun a b c hab hbc => ?_) (fun a b => ?_) xs
    · exact decide_eq_true (String.le_trans (of_decide_eq_true hab) (of_decide_eq_true hbc))
    · rw [Bool.or_eq_true, decide_eq_true_iff, decide_eq_true_iff]
      exact String.le_total _ _
  exact h.imp of_decide_eq_true

/-- Names are put in order to the one list of them that is. -/
theorem Report.inOrder_eq {names sorted : List String} (hperm : names.Perm sorted)
    (hsorted : sorted.Pairwise (· ≤ ·)) : inOrder names = sorted :=
  ((List.mergeSort_perm _ _).trans hperm).eq_of_pairwise (fun _ _ _ _ => String.le_antisymm)
    (pairwise_mergeSort_name id _) hsorted

def inFileOrder (sources : List Source) : List Source :=
  sources.mergeSort fun a b => decide (a.file ≤ b.file)

def groups (sources : List Source) : List (String × List Diagnostic) :=
  (inFileOrder sources).filterMap Source.group?

variable {sources order : List Source}

theorem perm_inFileOrder (sources : List Source) : (inFileOrder sources).Perm sources :=
  List.mergeSort_perm _ _

/-- Different names increase strictly in their order. -/
theorem pairwise_inFileOrder (hfiles : (sources.map Source.file).Nodup) :
    (inFileOrder sources).Pairwise fun a b => a.file < b.file := by
  have hle : (inFileOrder sources).Pairwise fun a b => a.file ≤ b.file :=
    pairwise_mergeSort_name Source.file sources
  have hne : (inFileOrder sources).Pairwise fun a b => a.file ≠ b.file :=
    List.pairwise_map.1 (((perm_inFileOrder sources).map Source.file).nodup_iff.2 hfiles)
  exact (hle.and hne).imp fun h => Std.lt_of_le_of_ne h.1 h.2

theorem pairwise_groups (hfiles : (sources.map Source.file).Nodup) :
    (groups sources).Pairwise fun g h => g.1 < h.1 := by
  refine (pairwise_inFileOrder hfiles).filterMap _ fun a b hab g hg g' hg' => ?_
  obtain ⟨_, -, rfl⟩ := Source.group?_eq_some hg
  obtain ⟨_, -, rfl⟩ := Source.group?_eq_some hg'
  exact hab

/-- No file has two groups. -/
theorem nodup_groups (hfiles : (sources.map Source.file).Nodup) :
    ((groups sources).map Prod.fst).Nodup :=
  List.pairwise_map.2 ((pairwise_groups hfiles).imp String.ne_of_lt)

/-- The findings of a group are about its file and ascend. -/
theorem of_mem_groups {g : String × List Diagnostic} (h : g ∈ groups sources) :
    (∀ d ∈ g.2, d.file = g.1) ∧ Ascending g.2 := by
  obtain ⟨s, -, hs⟩ := List.mem_filterMap.1 h
  obtain ⟨text, -, rfl⟩ := Source.group?_eq_some hs
  exact ⟨fun d hd => file_eq_of_mem_check hd, ascending_consolidate _⟩

theorem Diagnostic.compareKey_of_file_lt {d e : Diagnostic} (h : d.file < e.file) :
    compareKey d e = .lt := by
  have hfile : compare d.file e.file = .lt := if_pos h
  rw [compareKey, hfile]
  rfl

/-- In the order of names the groups of a batch follow each other as they are. -/
theorem ascending_groups (hfiles : (sources.map Source.file).Nodup) :
    Ascending ((groups sources).flatMap Prod.snd) := by
  refine List.pairwise_flatMap.2 ⟨fun g hg => (of_mem_groups hg).2, ?_⟩
  refine (pairwise_groups hfiles).imp_of_mem fun {g h} hg hh hlt d hd e he => ?_
  rw [← (of_mem_groups hg).1 d hd, ← (of_mem_groups hh).1 e he] at hlt
  exact compareKey_of_file_lt hlt

/-- The findings of the groups are those of the checks, one after the other. -/
theorem flatMap_snd_groups (sources : List Source) :
    (groups sources).flatMap Prod.snd =
      (inFileOrder sources).flatMap fun s =>
        match s.text with
        | .ok text => check s.file text s.options
        | .error _ => [] := by
  rw [groups, List.filterMap_eq_flatMap_toList, List.flatMap_assoc]
  congr 1
  funext s
  unfold Source.group?
  cases s.text with
  | ok text => exact List.append_nil _
  | error reason => rfl

/-- Groups are the same in every order in which the sources are done, up to order. -/
theorem perm_groups (horder : order.Perm sources) :
    (order.filterMap Source.group?).Perm (groups sources) :=
  (horder.trans (perm_inFileOrder sources).symm).filterMap _

namespace Report

/-- The findings of a batch are those of its groups. -/
theorem diagnostics_ofSources (hfiles : (sources.map Source.file).Nodup)
    (horder : order.Perm sources) :
    (ofSources order).diagnostics = (groups sources).flatMap Prod.snd := by
  rw [diagnostics, collected_ofSources]
  refine consolidate_eq_of_ascending (ascending_groups hfiles) fun d => ?_
  exact ((perm_groups horder).flatMap_right _).mem_iff

/-- The names in order are those of the groups. -/
theorem inOrder_files_ofSources (hfiles : (sources.map Source.file).Nodup)
    (horder : order.Perm sources) :
    inOrder (ofSources order).files = (groups sources).map Prod.fst := by
  rw [files_ofSources]
  refine inOrder_eq ((perm_groups horder).map Prod.fst) ?_
  exact List.pairwise_map.2 ((pairwise_groups hfiles).imp Std.le_of_lt)

/-! ## 4. Findings by file -/

/-- Groups of other files are passed over. -/
theorem group_append {d : Diagnostic} {front : List (String × List Diagnostic)}
    (h : d.file ∉ front.map Prod.fst) (back : List (String × List Diagnostic)) :
    group d (front ++ back) = front ++ group d back := by
  induction front with
  | nil => rfl
  | cons g front ih =>
    obtain ⟨f, es⟩ := g
    rw [List.map_cons, List.mem_cons, not_or] at h
    rw [List.cons_append, group, if_neg (Ne.symm h.1), ih h.2]
    rfl

/-- A finding is added to the group of its file. -/
theorem group_append_cons {d : Diagnostic} {front back : List (String × List Diagnostic)}
    (ds : List Diagnostic) (h : d.file ∉ front.map Prod.fst) :
    group d (front ++ (d.file, ds) :: back) = front ++ (d.file, ds ++ [d]) :: back := by
  rw [group_append h, group, if_pos rfl]

/-- The findings about a file are added to its group. -/
theorem foldl_group {f : String} {front back : List (String × List Diagnostic)}
    (hnew : f ∉ front.map Prod.fst) (es ds : List Diagnostic) (hds : ∀ d ∈ ds, d.file = f) :
    ds.foldl (fun groups d => group d groups) (front ++ (f, es) :: back) =
      front ++ (f, es ++ ds) :: back := by
  induction ds generalizing es with
  | nil => rw [List.append_nil, List.foldl_nil]
  | cons d ds ih =>
    obtain rfl : d.file = f := hds d List.mem_cons_self
    rw [List.foldl_cons, group_append_cons es hnew,
      ih _ fun e he => hds e (List.mem_cons_of_mem _ he), List.append_assoc]
    rfl

/-- Findings that come group by group fill the groups of their files. -/
theorem foldl_group_flatMap (front : List (String × List Diagnostic))
    {gs : List (String × List Diagnostic)} (hnodup : ((front ++ gs).map Prod.fst).Nodup)
    (hgs : ∀ g ∈ gs, ∀ d ∈ g.2, d.file = g.1) :
    (gs.flatMap Prod.snd).foldl (fun groups d => group d groups)
      (front ++ gs.map fun g => (g.1, [])) = front ++ gs := by
  induction gs generalizing front with
  | nil => rfl
  | cons g gs ih =>
    have hsplit : front ++ g :: gs = (front ++ [g]) ++ gs := by simp
    have hnew : g.1 ∉ front.map Prod.fst := by
      rw [List.map_append, List.nodup_append] at hnodup
      exact fun h => hnodup.2.2 _ h _ List.mem_cons_self rfl
    rw [List.flatMap_cons, List.foldl_append, List.map_cons,
      foldl_group hnew [] g.2 (hgs g List.mem_cons_self), List.nil_append, hsplit,
      ← ih _ (by rwa [hsplit] at hnodup) fun h hh => hgs h (List.mem_cons_of_mem _ hh),
      List.append_assoc]
    rfl

end Report

/-- Where nothing is repeated nothing is dropped. -/
theorem eraseDups_of_nodup {names : List String} (h : names.Nodup) : names.eraseDups = names := by
  induction names with
  | nil => rfl
  | cons name names ih =>
    obtain ⟨hname, hrest⟩ := List.nodup_cons.1 h
    have hfilter : names.filter (fun b => !b == name) = names :=
      List.filter_eq_self.2 fun b hb => by
        have hne : b ≠ name := fun he => hname (he ▸ hb)
        simp [hne]
    rw [List.eraseDups_cons, hfilter, ih hrest]

/-- The findings of a batch file by file are its groups. -/
theorem Report.byFile_ofSources (hfiles : (sources.map Source.file).Nodup)
    (horder : order.Perm sources) : (ofSources order).byFile = groups sources := by
  have hnodup := nodup_groups hfiles
  rw [byFile, grouped, diagnostics_ofSources hfiles horder, inOrder_files_ofSources hfiles horder,
    eraseDups_of_nodup hnodup, List.map_map]
  exact foldl_group_flatMap [] hnodup fun g hg => (of_mem_groups hg).1

/-! ## 5. Reports that differ in order only -/

/-- Two reports say the same, up to the order in which files and failures were added. -/
structure Report.Alike (r r' : Report) : Prop where
  files : r.files.Perm r'.files
  failed : r.failed.Perm r'.failed
  diagnostics : r.diagnostics = r'.diagnostics

namespace Report.Alike

variable {r r' : Report}

theorem count (h : r.Alike r') (s : Severity) : r.count s = r'.count s := by
  unfold Report.count
  rw [h.diagnostics]

theorem passed (h : r.Alike r') : r.passed = r'.passed := by
  unfold Report.passed atOrAbove
  rw [h.diagnostics, h.failed.isEmpty_eq]

theorem exitCode (h : r.Alike r') : r.exitCode = r'.exitCode := by
  unfold Report.exitCode
  rw [h.passed]

theorem summary (h : r.Alike r') : r.summary = r'.summary := by
  unfold Report.summary
  rw [h.files.length_eq, h.count, h.count, h.count]

theorem inOrder_files (h : r.Alike r') : inOrder r.files = inOrder r'.files :=
  inOrder_eq (h.files.trans (List.mergeSort_perm _ _).symm) (pairwise_mergeSort_name id _)

theorem byFile (h : r.Alike r') : r.byFile = r'.byFile := by
  unfold Report.byFile grouped
  rw [h.diagnostics, h.inOrder_files]

/-- The values of reports that are alike differ in the order of failures only. -/
theorem toValue (h : r.Alike r') : r.toValue = { r' with failed := r.failed }.toValue := by
  have h' : r.Alike { r' with failed := r.failed } := ⟨h.files, .refl _, h.diagnostics⟩
  unfold Report.toValue fields
  rw [h'.inOrder_files, h'.diagnostics, h'.count, h'.count, h'.count, h'.passed]

end Report.Alike

/-! ## 6. The batch -/

/-- A report that a batch can end with: its sources are done in some order, each once. -/
def Report.IsOutcome (sources : List Source) (r : Report) : Prop :=
  ∃ order : List Source, order.Perm sources ∧ r = ofSources order

/-- The order in which sources are done moves the entries of a report around and changes nothing
else. -/
theorem Report.alike_of_perm (hfiles : (sources.map Source.file).Nodup)
    (horder : order.Perm sources) : (ofSources order).Alike (ofSources sources) where
  files := by
    rw [files_ofSources, files_ofSources]
    exact (horder.filterMap _).map _
  failed := by
    rw [failed_ofSources hfiles, failed_ofSources ((horder.map _).nodup_iff.2 hfiles)]
    exact horder.filterMap _
  diagnostics := by
    rw [diagnostics_ofSources hfiles horder, diagnostics_ofSources hfiles (List.Perm.refl _)]

/-- In a list without repeated keys a value is found under its key. -/
theorem lookup_eq_some_iff_mem {α β : Type} [BEq α] [LawfulBEq α] {entries : List (α × β)}
    (hkeys : (entries.map Prod.fst).Nodup) {k : α} {v : β} :
    entries.lookup k = some v ↔ (k, v) ∈ entries := by
  rw [List.lookup_eq_some_iff]
  constructor
  · rintro ⟨front, back, rfl, -⟩
    exact List.mem_append_right _ List.mem_cons_self
  · intro hmem
    obtain ⟨front, back, rfl⟩ := List.append_of_mem hmem
    refine ⟨front, back, rfl, fun p hp => bne_iff_ne.2 fun he => ?_⟩
    rw [List.map_append, List.nodup_append] at hkeys
    exact hkeys.2.2 p.1 (List.mem_map_of_mem hp) k List.mem_cons_self he.symm

/-- With each key once, what is found under a key does not depend on the order of the entries. -/
theorem lookup_eq_of_perm {α β : Type} [BEq α] [LawfulBEq α] {entries entries' : List (α × β)}
    (hkeys : (entries.map Prod.fst).Nodup) (hperm : entries.Perm entries') (k : α) :
    entries.lookup k = entries'.lookup k := by
  refine Option.ext fun v => ?_
  rw [lookup_eq_some_iff_mem hkeys, lookup_eq_some_iff_mem ((hperm.map _).nodup_iff.1 hkeys),
    hperm.mem_iff]

/-- A batch runs through unless there is something to do and nobody to do it. -/
theorem checkMany_eq_ok {workers : Option Int} (hworkers : sources = [] ∨ ∀ n ∈ workers, 0 < n) :
    checkMany sources workers = .ok (Report.ofSources sources) := by
  refine if_neg fun hrefused => ?_
  rw [Bool.and_eq_true] at hrefused
  obtain ⟨hsome, hnone⟩ := hrefused
  rcases hworkers with rfl | hpositive
  · cases hsome
  · obtain ⟨n, hn, hle⟩ := (Option.any_eq_true _ _).1 hnone
    have hn0 := hpositive n hn
    have hle0 := of_decide_eq_true hle
    omega

/-- **A batch has one outcome.** Let the sources of a batch have different names, and let there be
something to work with. Then there is a report, and however the work is done, what is reported says
the same: every source is among the checked files or among the failures, once; the failures are the
same as a mapping, and value, summary, exit code and findings by file are the same. The findings of
the batch are those of its checked files in the order of their names, one file after the other, and
the findings under the name of a checked file are those of its check. -/
theorem batch_completion (sources : List Source) (workers : Option Int)
    (hfiles : (sources.map Source.file).Nodup)
    (hworkers : sources = [] ∨ ∀ n ∈ workers, 0 < n) :
    ∃ report, checkMany sources workers = .ok report ∧
      ∀ done : Report, done.IsOutcome sources →
        (∀ s ∈ sources,
          done.files.count s.file + (done.failed.map Prod.fst).count s.file = 1) ∧
        done.files.Perm report.files ∧ done.failed.Perm report.failed ∧
        (∀ file, done.failed.lookup file = report.failed.lookup file) ∧
        done.toValue = { report with failed := done.failed }.toValue ∧
        done.summary = report.summary ∧ done.exitCode = report.exitCode ∧
        done.byFile = report.byFile ∧
        done.diagnostics =
          (sources.mergeSort fun a b => decide (a.file ≤ b.file)).flatMap (fun s =>
            match s.text with
            | .ok text => check s.file text s.options
            | .error _ => []) ∧
        (∀ s ∈ sources, ∀ text, s.text = .ok text →
          s.file ∈ done.files ∧
            done.byFile.lookup s.file = some (check s.file text s.options)) ∧
        (∀ s ∈ sources, ∀ reason, s.text = .error reason →
          done.failed.lookup s.file = some reason) := by
  refine ⟨Report.ofSources sources, checkMany_eq_ok hworkers, ?_⟩
  rintro done ⟨order, horder, rfl⟩
  have halike := Report.alike_of_perm hfiles horder
  have hfiles' : (order.map Source.file).Nodup := (horder.map _).nodup_iff.2 hfiles
  have hnames : ((Report.ofSources order).files ++
      (Report.ofSources order).failed.map Prod.fst).Perm (order.map Source.file) := by
    rw [Report.files_ofSources, Report.failed_ofSources hfiles']
    exact Source.perm_files order
  have hkeys : ((Report.ofSources order).failed.map Prod.fst).Nodup :=
    (List.nodup_append.1 (hnames.nodup_iff.2 hfiles')).2.1
  refine ⟨fun s hs => ?_, halike.files, halike.failed, lookup_eq_of_perm hkeys halike.failed,
    halike.toValue, halike.summary, halike.exitCode, halike.byFile, ?_,
    fun s hs text htext => ⟨?_, ?_⟩, fun s hs reason hreason => ?_⟩
  · rw [← List.count_append, hnames.count_eq]
    exact List.count_eq_one_of_mem hfiles' (List.mem_map_of_mem (horder.mem_iff.2 hs))
  · rw [Report.diagnostics_ofSources hfiles horder]
    exact flatMap_snd_groups sources
  · rw [Report.files_ofSources]
    exact List.mem_map_of_mem (List.mem_filterMap.2
      ⟨s, horder.mem_iff.2 hs, Source.group?_of_ok htext⟩)
  · rw [Report.byFile_ofSources hfiles horder, lookup_eq_some_iff_mem (nodup_groups hfiles)]
    exact List.mem_filterMap.2
      ⟨s, (perm_inFileOrder sources).mem_iff.2 hs, Source.group?_of_ok htext⟩
  · rw [lookup_eq_some_iff_mem hkeys, Report.failed_ofSources hfiles']
    exact List.mem_filterMap.2 ⟨s, horder.mem_iff.2 hs, Source.failure?_of_error hreason⟩

/-- Three sources, one of them unreadable, that are done from the last to the first. -/
theorem batch_completion_backwards :
    let sources : List Source :=
      [{ file := "b.css", text := .ok ['.', 'A', ';'] },
        { file := "a.css", text := .error "unreadable" },
        { file := "c.css", text := .ok ['\x7d'] }]
    (sources.map Source.file).Nodup ∧ (∀ n ∈ some (2 : Int), 0 < n) ∧
      (Report.ofSources sources.reverse).IsOutcome sources ∧
      ∃ report, checkMany sources (some 2) = .ok report ∧
        (Report.ofSources sources.reverse).summary = report.summary ∧
        (Report.ofSources sources.reverse).byFile.lookup "c.css" =
          some (check "c.css" ['\x7d'] {}) ∧
        (Report.ofSources sources.reverse).failed.lookup "a.css" = some "unreadable" := by
  intro sources
  have hfiles : (sources.map Source.file).Nodup := by decide
  have hworkers : ∀ n ∈ some (2 : Int), 0 < n := by decide
  have houtcome : (Report.ofSources sources.reverse).IsOutcome sources :=
    ⟨sources.reverse, List.reverse_perm sources, rfl⟩
  obtain ⟨report, hreport, hall⟩ := batch_completion sources (some 2) hfiles (.inr hworkers)
  obtain ⟨-, -, -, -, -, hsummary, -, -, -, hchecked, hfailed⟩ := hall _ houtcome
  refine ⟨hfiles, hworkers, houtcome, report, hreport, hsummary, ?_, ?_⟩
  · exact (hchecked _ (List.mem_of_getElem? (i := 2) rfl) _ rfl).2
  · exact hfailed _ (List.mem_of_getElem? (i := 1) rfl) _ rfl

end HouseStyle
