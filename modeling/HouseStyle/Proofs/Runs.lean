/-
HouseStyle.Proofs.Runs — a run is the checks of its files and nothing else.

A run whose options are accepted and whose arguments can be looked up ends with a report, and the
report is made of the files one by one. Each path that the arguments stand for is checked once or
has failed, whatever the number of arguments and directories that lead to it. The findings are those
of the checks of the files that can be read, in the order of the names of the files; a file that
cannot be read takes nothing away but its own findings. The exit code says whether a file has failed
or a finding is an error (`run_is_checks`).

## How the proof goes

Files that can be read are checked as a batch, and the failures are recorded behind them. The report
is the same as that of a batch in which the failures are sources like all others, done last
(`exists_reportOn`), so what is known of reports of sources in any order holds of it. The sources
have different names, since the text of a path gives the path back.
-/
import HouseStyle.Command
import HouseStyle.Proofs.Completion
import HouseStyle.Proofs.Paths

namespace HouseStyle.Command

/-! ## 1. Accepted options -/

/-- The fields of the configuration of a run. -/
inductive Configured (disk : Disk) : Option String → Value.Fields → Prop where
  | none : Configured disk none []
  | file {file : String} {bytes : List UInt8} {fields : Value.Fields}
      (found : disk (Path.ofString file) = .file bytes) (named : Path.namesFile file = true)
      (read : readConfig file bytes = .ok fields) : Configured disk (some file) fields

/-- The arguments of a run are accepted, with these options. -/
structure Accepts (disk : Disk) (a : CheckArguments) (o : Options) : Prop where
  possible : a.paths.any Path.hasNul = false
  options : ∃ fields, Configured disk a.config fields ∧ buildOptions a fields = .ok o

variable {disk : Disk} {a : CheckArguments} {o : Options} {paths : List Path}

/-- A run whose options are accepted is the check with these options. -/
theorem runCheck_of_accepts (h : Accepts disk a o) : runCheck disk a = checkWith disk a o := by
  obtain ⟨fields, hconfigured, hoptions⟩ := h.options
  unfold runCheck
  dsimp only
  cases hconfig : a.config with
  | none =>
    rw [hconfig] at hconfigured
    cases hconfigured
    rw [if_neg (by simp [h.possible]), Except.bind, hoptions]
  | some file =>
    rw [hconfig] at hconfigured
    cases hconfigured with
    | file found named read =>
      dsimp only
      rw [found]
      dsimp only
      rw [if_pos named, if_neg (by simp [h.possible]), read, Except.bind, hoptions]

/-! ## 2. The report of a run -/

def findingsAt (disk : Disk) (patterns : List String) (o : Options) (p : Path) : List Diagnostic :=
  match readFile disk p with
  | .ok text =>
    check p.text text (if isVendor patterns p then { o with vendorExempt := true } else o)
  | .error _ => []

/-- The report of a run is one of its files, with those that cannot be read done last. -/
theorem exists_reportOn (disk : Disk) (a : CheckArguments) (o : Options) (paths : List Path)
    (hjobs : ∀ n ∈ a.jobs, 0 < n) :
    ∃ order : List Source, order.Perm (paths.map (sourceAt disk a.vendorPatterns o)) ∧
      reportOn disk a o paths = .ok (Report.ofSources order) := by
  let sources := paths.map (sourceAt disk a.vendorPatterns o)
  refine ⟨sources.filter isReadable ++ sources.filter fun s => !isReadable s,
    List.filter_append_perm isReadable sources, ?_⟩
  unfold reportOn
  dsimp only
  rw [checkMany_eq_ok (.inr hjobs), Report.ofSources, Report.ofSources, List.foldl_append]
  rfl

def inTextOrder (paths : List Path) : List Path :=
  paths.mergeSort fun p q => decide (p.text ≤ q.text)

theorem mem_inTextOrder {p : Path} : p ∈ inTextOrder paths ↔ p ∈ paths :=
  (List.mergeSort_perm _ _).mem_iff

/-- The sources in the order of their names are those of the paths in the order of their texts. -/
theorem inFileOrder_sourceAt (disk : Disk) (patterns : List String) (o : Options)
    (paths : List Path) : inFileOrder (paths.map (sourceAt disk patterns o)) =
      (inTextOrder paths).map (sourceAt disk patterns o) := by
  unfold inFileOrder inTextOrder
  rw [List.map_mergeSort]
  intro p _ q _
  rfl

section

variable {order : List Source} {patterns : List String}
  (hpaths : (paths.map Path.text).Nodup)
  (horder : order.Perm (paths.map (sourceAt disk patterns o)))

include horder in
theorem perm_files_order : (order.map Source.file).Perm (paths.map Path.text) := by
  have h := horder.map Source.file
  rwa [List.map_map] at h

include hpaths horder

/-- The findings of a run are those of its files in the order of their names. -/
theorem diagnostics_order :
    (Report.ofSources order).diagnostics =
      (inTextOrder paths).flatMap (findingsAt disk patterns o) := by
  have hfiles : ((paths.map (sourceAt disk patterns o)).map Source.file).Nodup := by
    rwa [List.map_map]
  rw [Report.diagnostics_ofSources hfiles horder, flatMap_snd_groups, inFileOrder_sourceAt,
    List.flatMap_map]
  rfl

/-- A file has failed if it cannot be read, and for the reason why it cannot. -/
theorem mem_failed_order {file reason : String} :
    (file, reason) ∈ (Report.ofSources order).failed ↔
      ∃ p ∈ paths, p.text = file ∧ readFile disk p = .error reason := by
  have hfiles := (perm_files_order horder).nodup_iff.2 hpaths
  rw [Report.failed_ofSources hfiles, (horder.filterMap _).mem_iff, List.filterMap_map,
    List.mem_filterMap]
  refine exists_congr fun p => and_congr_right fun _ => ?_
  show (sourceAt disk patterns o p).failure? = _ ↔ _
  unfold Source.failure? sourceAt
  dsimp only
  cases readFile disk p with
  | ok text => simp
  | error why => simp

/-- The reason under which a file has failed is the one why it cannot be read. -/
theorem reason_order {p : Path} (hp : p ∈ paths) {reason : String} :
    (p.text, reason) ∈ (Report.ofSources order).failed ↔ readFile disk p = .error reason := by
  rw [mem_failed_order hpaths horder]
  constructor
  · rintro ⟨q, hq, hsame, hread⟩
    rwa [← List.inj_on_of_nodup_map hpaths hq hp hsame]
  · intro hread
    exact ⟨p, hp, rfl, hread⟩

/-- A run records failures exactly if some file cannot be read, whatever the order. -/
theorem failed_ne_nil_order : (Report.ofSources order).failed ≠ [] ↔
    ∃ p ∈ paths, ∃ reason, readFile disk p = .error reason := by
  constructor
  · intro h
    obtain ⟨⟨file, reason⟩, hmem⟩ := List.exists_mem_of_ne_nil _ h
    obtain ⟨p, hp, -, hread⟩ := (mem_failed_order hpaths horder).1 hmem
    exact ⟨p, hp, reason, hread⟩
  · rintro ⟨p, hp, reason, hread⟩
    exact List.ne_nil_of_mem ((reason_order hpaths horder hp).2 hread)

/-- Every file is checked or has failed, once. -/
theorem perm_files_failed_order :
    ((Report.ofSources order).files ++ (Report.ofSources order).failed.map Prod.fst).Perm
      (paths.map Path.text) := by
  have hfiles := (perm_files_order horder).nodup_iff.2 hpaths
  rw [Report.files_ofSources, Report.failed_ofSources hfiles]
  exact (Source.perm_files order).trans (perm_files_order horder)

end

/-- Every finding at a path is about its file. -/
theorem file_of_mem_findingsAt {patterns : List String} {p : Path} {d : Diagnostic}
    (h : d ∈ findingsAt disk patterns o p) : d.file = p.text := by
  unfold findingsAt at h
  split at h
  · exact file_eq_of_mem_check h
  · cases h

/-- What is left of the findings of a run when some files can no longer be read. -/
theorem filter_findingsAt {disk disk' : Disk} {patterns failed : List String}
    (hreads : ∀ p ∈ paths, readFile disk' p = readFile disk p ∨
      ∃ reason, readFile disk' p = .error reason)
    (hfailed : ∀ p ∈ paths, p.text ∈ failed ↔ ∃ reason, readFile disk' p = .error reason) :
    ((inTextOrder paths).flatMap (findingsAt disk patterns o)).filter
        (fun d => !failed.contains d.file) =
      (inTextOrder paths).flatMap (findingsAt disk' patterns o) := by
  rw [List.filter_flatMap]
  refine List.flatMap_congr fun p hp => ?_
  have hmem := mem_inTextOrder.1 hp
  cases hread : readFile disk' p with
  | error reason =>
    have hin : p.text ∈ failed := (hfailed p hmem).2 ⟨reason, hread⟩
    have hnone : findingsAt disk' patterns o p = [] := by
      rw [findingsAt, hread]
    rw [hnone, List.filter_eq_nil_iff]
    intro d hd
    simp [file_of_mem_findingsAt hd, hin]
  | ok text =>
    have hout : p.text ∉ failed := by
      rw [hfailed p hmem, hread]
      simp
    have hsame : findingsAt disk patterns o p = findingsAt disk' patterns o p := by
      have heq := (hreads p hmem).resolve_right (by simp [hread])
      rw [findingsAt, findingsAt, heq]
    rw [hsame, List.filter_eq_self]
    intro d hd
    simp [file_of_mem_findingsAt hd, hout]

/-! ## 3. The run -/

/-- A run that is accepted ends with a report, if its arguments can be looked up. -/
theorem exists_report (haccepts : Accepts disk a o) (hjobs : ∀ n ∈ a.jobs, 0 < n)
    (hpaths : disk.expand a.paths = .ok paths) :
    ∃ order : List Source, order.Perm (paths.map (sourceAt disk a.vendorPatterns o)) ∧
      runCheck disk a = .reported (Report.ofSources order) a.json := by
  obtain ⟨order, horder, hreport⟩ := exists_reportOn disk a o paths hjobs
  refine ⟨order, horder, ?_⟩
  rw [runCheck_of_accepts haccepts, checkWith, hpaths]
  dsimp only
  rw [hreport]

/-- **A run is the checks of its files and nothing else.** Let the options be accepted, let there be
something to work with, and let directories list names. If some argument cannot be looked up, the
run breaks off. Otherwise it ends with a report. The paths that the arguments stand for have
different texts, and each of them is checked or has failed, once; nothing else is reported. The
failures are the files that cannot be read, with their reasons. The findings are those of the checks
of the others, in the order of their names, one file after the other, and so they are printed. If
some of the files can no longer be read, the findings about them are gone and all others stay. The
exit code is one if a file cannot be read or a finding is an error, and zero if not. -/
theorem run_is_checks (disk : Disk) (a : CheckArguments) (o : Options) (hdisk : disk.Proper)
    (haccepts : Accepts disk a o) (hjobs : ∀ n ∈ a.jobs, 0 < n) :
    (∀ e, disk.expand a.paths = .error e → runCheck disk a = .broken (.nameTooLong e) ∧
      ∃ argument ∈ a.paths, disk (Path.ofString argument) = .nameTooLong) ∧
    ∀ paths, disk.expand a.paths = .ok paths →
      (paths.map Path.text).Nodup ∧
      (∀ p, p ∈ paths ↔ ∃ argument ∈ a.paths, ∃ found,
        disk.expandOne argument = .ok found ∧ p ∈ found) ∧
      ∃ report, runCheck disk a = .reported report a.json ∧
        (∀ p ∈ paths, report.files.count p.text + (report.failed.map Prod.fst).count p.text = 1) ∧
        (∀ file, file ∈ report.files ∨ file ∈ report.failed.map Prod.fst →
          ∃ p ∈ paths, p.text = file) ∧
        (∀ p ∈ paths, ∀ reason,
          (p.text, reason) ∈ report.failed ↔ readFile disk p = .error reason) ∧
        report.diagnostics = (inTextOrder paths).flatMap (findingsAt disk a.vendorPatterns o) ∧
        (a.json = false → (runCheck disk a).fullOutput =
          String.join (report.diagnostics.map fun d => d.describe ++ "\n") ++
            (if report.diagnostics.isEmpty then "" else "\n") ++ s!"Summary: {report.summary}\n") ∧
        (∀ disk', Accepts disk' a o → disk'.expand a.paths = .ok paths →
          (∀ p ∈ paths, readFile disk' p = readFile disk p ∨
            ∃ reason, readFile disk' p = .error reason) →
          ∃ report', runCheck disk' a = .reported report' a.json ∧
            report'.diagnostics = report.diagnostics.filter fun d =>
              !(report'.failed.map Prod.fst).contains d.file) ∧
        ((runCheck disk a).exitCode = 1 ↔ (∃ p ∈ paths, ∃ reason, readFile disk p = .error reason) ∨
          ∃ d ∈ report.diagnostics, d.severity = .error) ∧
        ((runCheck disk a).exitCode ≠ 1 → (runCheck disk a).exitCode = 0) := by
  refine ⟨fun e he => ⟨?_, Disk.exists_of_expand_eq_error he⟩, fun paths hexpand => ?_⟩
  · rw [runCheck_of_accepts haccepts, checkWith, he]
  have hplain := Disk.plain_of_mem_expand hdisk hexpand
  obtain ⟨hnodup, hmem⟩ := Disk.mem_expand hexpand
  have htexts : (paths.map Path.text).Nodup :=
    hnodup.map_on fun p hp q hq => (hplain p hp).text_inj (hplain q hq)
  obtain ⟨order, horder, hrun⟩ := exists_report haccepts hjobs hexpand
  have hdone := perm_files_failed_order htexts horder
  have hdiagnostics := diagnostics_order htexts horder
  refine ⟨htexts, hmem, Report.ofSources order, hrun, fun p hp => ?_, fun file hfile => ?_,
    fun p hp reason => ?_, hdiagnostics, fun htext => ?_, fun disk' haccepts' hexpand' hreads => ?_,
    ?_, ?_⟩
  · rw [← List.count_append, hdone.count_eq]
    exact List.count_eq_one_of_mem htexts (List.mem_map_of_mem hp)
  · exact List.mem_map.1 (hdone.subset (List.mem_append.2 hfile))
  · exact reason_order htexts horder hp
  · rw [hrun, htext]
    show reportText _ = _
    rw [reportText, List.isEmpty_map]
  · obtain ⟨order', horder', hrun'⟩ := exists_report haccepts' hjobs hexpand'
    refine ⟨Report.ofSources order', hrun', ?_⟩
    rw [hdiagnostics, diagnostics_order htexts horder']
    refine (filter_findingsAt hreads fun p hp => ?_).symm
    simp [← reason_order htexts horder' hp]
  · rw [hrun]
    show (Report.ofSources order).exitCode = 1 ↔ _
    rw [Report.exitCode_eq_one_iff, failed_ne_nil_order htexts horder]
  · rw [hrun]
    show (Report.ofSources order).exitCode ≠ 1 → (Report.ofSources order).exitCode = 0
    unfold Report.exitCode
    cases (Report.ofSources order).passed <;> simp

/-- A file that is named twice, and a directory with a file that cannot be read. -/
theorem run_is_checks_twice :
    let entries : List Disk.Entry :=
      [(["a.css"], some [97, 123, 125, 10]), (["d", "b.css"], some [255]),
        (["d", "c.css"], some [])]
    let disk := Disk.ofEntries entries
    let a : CheckArguments := { paths := ["a.css", "d", ".//a.css", "d/c.css"], jobs := some 2 }
    disk.Proper ∧ Accepts disk a {} ∧ (∀ n ∈ a.jobs, 0 < n) ∧
      disk.expand a.paths =
        .ok [⟨"", ["a.css"]⟩, ⟨"", ["d", "b.css"]⟩, ⟨"", ["d", "c.css"]⟩] ∧
      ∃ report, runCheck disk a = .reported report false ∧
        report.files.count "a.css" + (report.failed.map Prod.fst).count "a.css" = 1 ∧
        "d/b.css" ∈ report.failed.map Prod.fst ∧ (runCheck disk a).exitCode = 1 := by
  intro entries disk a
  have hproper : disk.Proper := Disk.proper_ofEntries (by decide)
  have haccepts : Accepts disk a {} := ⟨by decide +kernel, [], .none, rfl⟩
  have hjobs : ∀ n ∈ a.jobs, 0 < n := by decide
  have hone : disk.expandOne "a.css" = .ok [⟨"", ["a.css"]⟩] := rfl
  have hagain : disk.expandOne ".//a.css" = .ok [⟨"", ["a.css"]⟩] := rfl
  have hinside : disk.expandOne "d/c.css" = .ok [⟨"", ["d", "c.css"]⟩] := rfl
  have hdirectory : disk.expandOne "d" =
      .ok [⟨"", ["d", "b.css"]⟩, ⟨"", ["d", "c.css"]⟩] := by
    have hsorted : ([["b.css"], ["c.css"]] : List (List String)).mergeSort Disk.namesLE =
        [["b.css"], ["c.css"]] := List.mergeSort_of_pairwise (by decide)
    show Except.ok ((([["b.css"], ["c.css"]] : List (List String)).mergeSort Disk.namesLE).map
      (Path.below ⟨"", ["d"]⟩)) = _
    rw [hsorted]
    rfl
  have hexpand : disk.expand a.paths =
      .ok [⟨"", ["a.css"]⟩, ⟨"", ["d", "b.css"]⟩, ⟨"", ["d", "c.css"]⟩] := by
    simp only [Disk.expand, a, List.mapM_cons, List.mapM_nil, hone, hagain, hinside, hdirectory]
    rfl
  refine ⟨hproper, haccepts, hjobs, hexpand, ?_⟩
  obtain ⟨-, -, report, hreport, honce, -, hfailed, -, -, -, hexit, -⟩ :=
    (run_is_checks disk a {} hproper haccepts hjobs).2 _ hexpand
  have hbytes : Utf8.readText [255] = .error ⟨0, 255, 1, .start⟩ := by
    rw [Utf8.readText, Utf8.decode, Utf8.decodeFrom]
    rfl
  have hunreadable : readFile disk ⟨"", ["d", "b.css"]⟩ =
      .error (Utf8.Error.message ⟨0, 255, 1, .start⟩) := by
    show (Utf8.readText [255]).mapError Utf8.Error.message = _
    rw [hbytes]
    rfl
  refine ⟨report, hreport, honce _ List.mem_cons_self, ?_, hexit.2 (.inl ⟨_, ?_, _, hunreadable⟩)⟩
  · exact List.mem_map.2 ⟨_, (hfailed _ (by simp) _).2 hunreadable, rfl⟩
  · simp

end HouseStyle.Command
