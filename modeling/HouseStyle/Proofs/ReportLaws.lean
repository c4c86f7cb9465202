/-
HouseStyle.Proofs.ReportLaws — what is read off a report fits together.

How the proof goes. The counts add up because a finding has one of three severities
(`countP_severities`). The findings of a file are those of all findings about it: adding a finding
to the group of its file keeps that true of every group (`Report.Holds.group`), so it is true of the
groups that all findings make (`Report.holds_grouped`). A run that has failed goes on to fail,
because of findings with one key the first is kept, and findings come in behind those that are
there (`Diagnostic.mem_consolidate_append`). `live_report_laws` says all of this of a report that
is read while it grows; that reading does not matter is `LiveReport.ask_afterAll`.
-/
import HouseStyle.Proofs.Completion
import HouseStyle.Proofs.Remembered

namespace HouseStyle

open Diagnostic

/-! ## 1. Severities -/

/-- Every finding has one of the three severities. -/
theorem countP_severities (ds : List Diagnostic) :
    ds.countP (·.severity == .error) + ds.countP (·.severity == .warning) +
      ds.countP (·.severity == .info) = ds.length := by
  induction ds with
  | nil => rfl
  | cons d ds ih =>
    simp only [List.countP_cons, List.length_cons, ← ih]
    cases d.severity <;> simp <;> omega

theorem Severity.error_le_iff {s : Severity} : Severity.error.rank ≤ s.rank ↔ s = .error := by
  cases s <;> decide

namespace Report

variable {r : Report}

/-- Nothing is less serious than information. -/
theorem atOrAbove_info (r : Report) : r.atOrAbove .info = r.diagnostics :=
  List.filter_eq_self.2 fun _ _ => decide_eq_true (Nat.zero_le _)

/-- A run is passed unless a file failed or there is an error among its findings. -/
theorem passed_eq_false_iff :
    r.passed = false ↔ r.failed ≠ [] ∨ ∃ d ∈ r.diagnostics, d.severity = .error := by
  have herrors :
      (r.atOrAbove .error).isEmpty = false ↔ ∃ d ∈ r.diagnostics, d.severity = .error := by
    simp only [List.isEmpty_eq_false_iff_exists_mem, atOrAbove, List.mem_filter, decide_eq_true_eq,
      Severity.error_le_iff]
  rw [passed, Bool.and_eq_false_iff, herrors, List.isEmpty_eq_false_iff, or_comm]

/-- A run fails exactly if some file could not be checked or some finding is an error. -/
theorem exitCode_eq_one_iff :
    r.exitCode = 1 ↔ r.failed ≠ [] ∨ ∃ d ∈ r.diagnostics, d.severity = .error := by
  rw [← passed_eq_false_iff, exitCode]
  cases r.passed <;> simp

/-! ## 2. Findings by file -/

variable {d : Diagnostic} {groups front back : List (String × List Diagnostic)}
  {done ds es : List Diagnostic}

/-- The groups are those of some findings: every group has a file of its own and holds the findings
about that file in their order, and no finding is left over. -/
structure Holds (groups : List (String × List Diagnostic)) (done : List Diagnostic) : Prop where
  nodup : (groups.map Prod.fst).Nodup
  about : ∀ g ∈ groups, g.2 = done.filter (·.file == g.1)
  perm : (groups.flatMap Prod.snd).Perm done

theorem ne_of_not_mem {file : String} {g : String × List Diagnostic}
    (h : file ∉ groups.map Prod.fst) (hg : g ∈ groups) : file ≠ g.1 :=
  fun he => h (List.mem_map.2 ⟨g, hg, he.symm⟩)

/-- A finding is about one file only. -/
theorem filter_file_append_of_ne {file : String} (h : d.file ≠ file) :
    (done ++ [d]).filter (·.file == file) = done.filter (·.file == file) := by
  simp [List.filter_append, h]

theorem filter_file_append_self :
    (done ++ [d]).filter (·.file == d.file) = done.filter (·.file == d.file) ++ [d] := by
  simp [List.filter_append]

/-- A finding about a new file makes a group of its own, behind the others. -/
theorem group_of_not_mem (h : d.file ∉ groups.map Prod.fst) :
    group d groups = groups ++ [(d.file, [d])] := by
  have happend := group_append h []
  rwa [List.append_nil] at happend

/-- No group holds a finding about a file that has no group. -/
theorem Holds.filter_eq_nil (h : Holds groups done) {file : String}
    (hfile : file ∉ groups.map Prod.fst) : done.filter (·.file == file) = [] := by
  refine List.filter_eq_nil_iff.2 fun e he hef => hfile ?_
  obtain ⟨g, hg, heg⟩ := List.mem_flatMap.1 (h.perm.mem_iff.2 he)
  rw [h.about g hg, List.mem_filter, beq_iff_eq] at heg
  rw [← beq_iff_eq.1 hef, heg.2]
  exact List.mem_map_of_mem hg

/-- A finding about a file that has no group, in a group of its own. -/
theorem Holds.concat (h : Holds groups done) (hfile : d.file ∉ groups.map Prod.fst) :
    Holds (groups ++ [(d.file, [d])]) (done ++ [d]) := by
  refine ⟨?_, fun g hg => ?_, ?_⟩
  · rw [List.map_append, List.map_singleton, ← List.concat_eq_append]
    exact h.nodup.concat hfile
  · rcases List.mem_append.1 hg with hg | hg
    · rw [filter_file_append_of_ne (ne_of_not_mem hfile hg), ← h.about g hg]
    · obtain rfl := List.mem_singleton.1 hg
      rw [filter_file_append_self, h.filter_eq_nil hfile]
      rfl
  · rw [List.flatMap_append]
    exact h.perm.append_right [d]

/-- The files of the groups around one are other files. -/
theorem Holds.not_mem_around (h : Holds (front ++ (d.file, es) :: back) done) :
    d.file ∉ front.map Prod.fst ∧ d.file ∉ back.map Prod.fst := by
  have hnodup := h.nodup
  rw [List.map_append, List.map_cons, List.nodup_middle, List.nodup_cons, List.mem_append,
    not_or] at hnodup
  exact hnodup.1

/-- A finding behind the others of its group. -/
theorem Holds.extend (h : Holds (front ++ (d.file, es) :: back) done) :
    Holds (front ++ (d.file, es ++ [d]) :: back) (done ++ [d]) := by
  obtain ⟨hfront, hback⟩ := h.not_mem_around
  have hother {g : String × List Diagnostic} (hmem : g ∈ front ++ (d.file, es) :: back)
      (hne : d.file ≠ g.1) : g.2 = (done ++ [d]).filter (·.file == g.1) := by
    rw [filter_file_append_of_ne hne, ← h.about g hmem]
  refine ⟨by simpa using h.nodup, fun g hg => ?_, ?_⟩
  · rcases List.mem_append.1 hg with hg | hg
    · exact hother (List.mem_append_left _ hg) (ne_of_not_mem hfront hg)
    · rcases List.mem_cons.1 hg with rfl | hg
      · rw [filter_file_append_self, ← h.about (d.file, es) (by simp)]
      · exact hother (by simp [hg]) (ne_of_not_mem hback hg)
  · have hperm := h.perm.append_right [d]
    have hlast := (List.perm_append_singleton d (back.flatMap Prod.snd)).symm
    rw [List.flatMap_append, List.flatMap_cons] at hperm ⊢
    refine List.Perm.trans ?_ hperm
    simp only [List.append_assoc]
    exact (hlast.append_left es).append_left _

/-- Adding a finding to the group of its file. -/
theorem Holds.group (h : Holds groups done) (d : Diagnostic) :
    Holds (group d groups) (done ++ [d]) := by
  by_cases hfile : d.file ∈ groups.map Prod.fst
  · obtain ⟨⟨file, es⟩, hg, rfl : file = d.file⟩ := List.mem_map.1 hfile
    obtain ⟨front, back, rfl⟩ := List.append_of_mem hg
    rw [group_append_cons es h.not_mem_around.1]
    exact h.extend
  · rw [group_of_not_mem hfile]
    exact h.concat hfile

/-- Grouping any number of findings keeps each group in the order in which they came. -/
theorem Holds.foldl_group (h : Holds groups done) (ds : List Diagnostic) :
    Holds (ds.foldl (fun groups d => Report.group d groups) groups) (done ++ ds) := by
  induction ds generalizing groups done with
  | nil => rwa [List.append_nil]
  | cons d ds ih =>
    rw [List.append_cons]
    exact ih (h.group d)

/-- No group is lost. -/
theorem mem_map_fst_foldl_group {file : String} (h : file ∈ groups.map Prod.fst) :
    file ∈ (ds.foldl (fun groups d => group d groups) groups).map Prod.fst := by
  have hstep (d : Diagnostic) (groups : List (String × List Diagnostic)) :
      ∀ f ∈ groups.map Prod.fst, f ∈ (group d groups).map Prod.fst := by
    induction groups with
    | nil => exact fun f hf => nomatch hf
    | cons g rest ih =>
      intro f hf
      unfold group
      split
      · exact hf
      · exact (List.mem_cons.1 hf).elim (fun he => he ▸ List.mem_cons_self)
          fun hf => List.mem_cons_of_mem _ (ih f hf)
  induction ds generalizing groups with
  | nil => exact h
  | cons d ds ih => exact ih (hstep d groups file h)

end Report

/-- What is left once repetitions are dropped has none. -/
theorem nodup_eraseDups {α : Type} [BEq α] [LawfulBEq α] (names : List α) :
    names.eraseDups.Nodup := by
  cases names with
  | nil => exact List.nodup_nil
  | cons name names =>
    rw [List.eraseDups_cons, List.nodup_cons]
    refine ⟨fun h => ?_, nodup_eraseDups (names.filter fun other => !other == name)⟩
    rw [List.mem_eraseDups, List.mem_filter] at h
    simp at h
termination_by names.length
decreasing_by exact Nat.lt_succ_of_le (List.length_filter_le _ _)

namespace Report

variable {files : List String} {ds : List Diagnostic}

/-- Before any finding is added, the files that were checked have empty groups. -/
theorem holds_nil (files : List String) :
    Holds ((inOrder files).eraseDups.map fun f => (f, [])) [] := by
  refine ⟨?_, fun g hg => ?_, ?_⟩
  · rw [List.map_map]
    exact (List.map_id _).symm ▸ nodup_eraseDups _
  · obtain ⟨f, -, rfl⟩ := List.mem_map.1 hg
    rfl
  · rw [List.flatMap_map]
    simp

/-- The findings by file. -/
theorem holds_grouped (files : List String) (ds : List Diagnostic) :
    Holds (grouped files ds) ds :=
  (holds_nil files).foldl_group ds

/-- Every checked file has a group, also if nothing was found. -/
theorem mem_map_fst_grouped {file : String} (h : file ∈ files) :
    file ∈ (grouped files ds).map Prod.fst := by
  refine mem_map_fst_foldl_group ?_
  rw [List.map_map]
  refine List.mem_map.2 ⟨file, ?_, rfl⟩
  rw [List.mem_eraseDups]
  exact (List.mergeSort_perm files _).mem_iff.2 h

end Report

/-! ## 3. More findings -/

/-- Findings that are added later take no place from earlier ones. -/
theorem Diagnostic.mem_consolidate_append {ds es : List Diagnostic} {d : Diagnostic}
    (h : d ∈ consolidate ds) : d ∈ consolidate (ds ++ es) := by
  rw [mem_consolidate] at h ⊢
  rw [List.find?_append, h]
  rfl

namespace LiveReport

variable {report : Report}

/-- A run that has failed goes on to fail. -/
theorem exitCode_foldl_grown (h : report.exitCode = 1) (operations : List Operation) :
    (operations.foldl grown report).exitCode = 1 := by
  rw [Report.exitCode_eq_one_iff] at h ⊢
  rcases h with hfailed | ⟨d, hd, herror⟩
  · exact .inl (failed_foldl_grown operations hfailed)
  · refine .inr ⟨d, ?_, herror⟩
    rw [Report.diagnostics, collected_foldl_grown]
    exact Diagnostic.mem_consolidate_append hd

end LiveReport

/-! ## 4. A report that is read while it grows -/

/-- The laws of a report: whatever was read in between, its findings are those that were added, put
in order; the numbers of the three severities add up; findings that are at least information are all
of them; every file that was added has one group, and the groups are the findings about their files
in order, none of them lost or made up; and a report that has failed fails whatever comes next. -/
theorem live_report_laws (operations : List LiveReport.Operation) :
    let r := LiveReport.afterAll operations
    let ds := r.ask LiveReport.diagnostics
    let groups := r.ask LiveReport.byFile
    ds = consolidate (operations.flatMap LiveReport.Operation.findings) ∧
      r.ask (LiveReport.count .error) + r.ask (LiveReport.count .warning) +
        r.ask (LiveReport.count .info) = ds.length ∧
      r.ask (LiveReport.atOrAbove .info) = ds ∧
      (groups.flatMap Prod.snd).Perm ds ∧
      (groups.map Prod.fst).Nodup ∧
      (∀ g ∈ groups, g.2 = ds.filter (·.file == g.1) ∧ Ascending g.2) ∧
      (∀ file ∈ operations.filterMap LiveReport.Operation.file?, file ∈ groups.map Prod.fst) ∧
      (r.ask LiveReport.exitCode = 1 → ∀ more : List LiveReport.Operation,
        (LiveReport.afterAll (operations ++ more)).ask LiveReport.exitCode = 1) := by
  intro r ds groups
  have hds : ds = consolidate (operations.flatMap LiveReport.Operation.findings) :=
    (LiveReport.ask_afterAll LiveReport.answers_diagnostics operations).trans
      (congrArg consolidate (LiveReport.collected_foldl_grown operations))
  -- `report` is what the operations make without the reads among them
  let report := operations.foldl LiveReport.grown {}
  have hread : ds = report.diagnostics :=
    LiveReport.ask_afterAll LiveReport.answers_diagnostics operations
  have hgroups : groups = Report.grouped report.files ds :=
    (LiveReport.ask_afterAll LiveReport.answers_byFile operations).trans
      (congrArg (Report.grouped report.files) hread.symm)
  have hholds : Report.Holds groups ds := hgroups ▸ Report.holds_grouped report.files ds
  have hascending : Ascending ds := hds ▸ ascending_consolidate _
  refine ⟨hds, ?_, ?_, hholds.perm, hholds.nodup, fun g hg => ?_, fun file hfile => ?_, ?_⟩
  · rw [LiveReport.ask_afterAll (LiveReport.answers_count .error),
      LiveReport.ask_afterAll (LiveReport.answers_count .warning),
      LiveReport.ask_afterAll (LiveReport.answers_count .info), hread]
    exact countP_severities _
  · rw [LiveReport.ask_afterAll (LiveReport.answers_atOrAbove .info), hread]
    exact Report.atOrAbove_info _
  · rw [hholds.about g hg]
    exact ⟨rfl, hascending.filter _⟩
  · rw [hgroups]
    refine Report.mem_map_fst_grouped ?_
    rw [LiveReport.files_foldl_grown]
    exact hfile
  · intro hexit more
    rw [LiveReport.ask_afterAll LiveReport.answers_exitCode] at hexit ⊢
    rw [List.foldl_append]
    exact LiveReport.exitCode_foldl_grown hexit more

end HouseStyle
