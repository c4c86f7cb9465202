/-
HouseStyle.Proofs.Duplicates — what is dropped when findings are put in order.

Consolidating keeps of every key the finding that comes first (`FirstOfKey`), and the key leaves out
severity and fix. So more than repetitions can be dropped: a finding goes where another one with its
key stands before it, whatever the two say about severity and fix, and a list keeps all its findings
only if no key is shared by different ones (`unambiguous_iff`). The exit code of a report shows it:
an error that comes after a warning with its key is not seen (`error_behind_warning`).

How the proof goes. The findings that are kept are described by `mem_consolidate_iff`; that every
key keeps one of its findings is `exists_firstOfKey`. An error can be lost only where findings with
one key have different severities (`OneSeverity.exists_mem_consolidate`), which does not happen
among the findings of checks under the same options (`oneSeverity_checks`).
-/
import HouseStyle.Proofs.ReportLaws

namespace HouseStyle

open Diagnostic

/-! ## 1. The first finding of a key -/

namespace Diagnostic

variable {ds : List Diagnostic} {d : Diagnostic}

/-- No finding before this one has its key. -/
def FirstOfKey (d : Diagnostic) (ds : List Diagnostic) : Prop :=
  ∃ before after, ds = before ++ d :: after ∧ ∀ e ∈ before, compareKey d e ≠ .eq

/-- Of the findings with one key the first one is kept. -/
theorem mem_consolidate_iff : d ∈ consolidate ds ↔ FirstOfKey d ds := by
  rw [mem_consolidate, List.find?_eq_some_iff_append]
  simp [FirstOfKey]

/-- Every key keeps one of its findings. -/
theorem exists_firstOfKey (h : d ∈ ds) : ∃ e, FirstOfKey e ds ∧ compareKey d e = .eq := by
  cases hfind : ds.find? (fun e => compareKey d e == .eq) with
  | none =>
    have hself := List.find?_eq_none.1 hfind d h
    simp at hself
  | some e =>
    obtain ⟨hkey, before, after, hds, hbefore⟩ := List.find?_eq_some_iff_append.1 hfind
    have hkey' : compareKey d e = .eq := by simpa using hkey
    refine ⟨e, ⟨before, after, hds, fun x hx => ?_⟩, hkey'⟩
    rw [← Std.TransCmp.congr_left hkey']
    simpa using hbefore x hx

/-- Consolidating keeps all findings only where no key is shared by different ones. -/
theorem unambiguous_iff : Unambiguous ds ↔ ∀ d, d ∈ consolidate ds ↔ d ∈ ds := by
  refine ⟨fun h _ => h.mem_consolidate, fun h d hd e he hkey => ?_⟩
  exact (ascending_consolidate ds).eq_of_compareKey ((h d).2 hd) ((h e).2 he) hkey

/-! ## 2. Severities that are kept -/

/-- Findings with one key are equally serious. -/
def OneSeverity (ds : List Diagnostic) : Prop :=
  ∀ d ∈ ds, ∀ e ∈ ds, compareKey d e = .eq → d.severity = e.severity

instance (ds : List Diagnostic) : Decidable (OneSeverity ds) :=
  inferInstanceAs <| Decidable <|
    ∀ d ∈ ds, ∀ e ∈ ds, compareKey d e = .eq → d.severity = e.severity

/-- A severity is kept where findings with one key are equally serious. -/
theorem OneSeverity.exists_mem_consolidate (h : OneSeverity ds) (s : Severity) :
    (∃ d ∈ consolidate ds, d.severity = s) ↔ ∃ d ∈ ds, d.severity = s := by
  constructor
  · rintro ⟨d, hd, hs⟩
    exact ⟨d, mem_of_mem_consolidate hd, hs⟩
  · rintro ⟨d, hd, hs⟩
    obtain ⟨e, he, hkey⟩ := exists_firstOfKey hd
    have hkept : e ∈ consolidate ds := mem_consolidate_iff.2 he
    exact ⟨e, hkept, (h d hd e (mem_of_mem_consolidate hkept) hkey).symm.trans hs⟩

end Diagnostic

/-! ## 3. The exit code -/

namespace LiveReport

/-- The operations that add the findings about some files. -/
def adding (adds : List (String × List Diagnostic)) : List Operation :=
  adds.map fun (file, ds) => .add file ds

theorem findings_adding (adds : List (String × List Diagnostic)) :
    (adding adds).flatMap Operation.findings = adds.flatMap Prod.snd :=
  List.flatMap_map ..

theorem failed_adding (adds : List (String × List Diagnostic)) (report : Report) :
    ((adding adds).foldl grown report).failed = report.failed := by
  induction adds generalizing report with
  | nil => rfl
  | cons added rest ih => exact ih (report.add added.1 added.2)

/-- Where nothing failed, the exit code says whether an error was kept. -/
theorem exitCode_adding (adds : List (String × List Diagnostic)) :
    (afterAll (adding adds)).ask exitCode = 1 ↔
      ∃ d ∈ consolidate (adds.flatMap Prod.snd), d.severity = .error := by
  rw [ask_afterAll answers_exitCode, Report.exitCode_eq_one_iff, failed_adding, Report.diagnostics,
    collected_foldl_grown, findings_adding]
  exact or_iff_right fun h => h rfl

end LiveReport

/-- **One finding of every key is kept, the first.** So a list keeps all its findings if, and only
if, no two different ones have the same key. The exit code after findings were added to a report is
1 if an error is the first of its key among them, and then only; where findings with one key are
equally serious, it is 1 if there is an error at all. -/
theorem one_of_every_key (ds : List Diagnostic) (adds : List (String × List Diagnostic)) :
    let found := adds.flatMap Prod.snd
    let code := (LiveReport.afterAll (LiveReport.adding adds)).ask LiveReport.exitCode
    (∀ d, d ∈ consolidate ds ↔ FirstOfKey d ds) ∧
      ((∀ d, d ∈ consolidate ds ↔ d ∈ ds) ↔
        ∀ d ∈ ds, ∀ e ∈ ds, compareKey d e = .eq → d = e) ∧
      (code = 1 ↔ ∃ d, FirstOfKey d found ∧ d.severity = .error) ∧
      (OneSeverity found → (code = 1 ↔ ∃ d ∈ found, d.severity = .error)) := by
  refine ⟨fun _ => mem_consolidate_iff, unambiguous_iff.symm, ?_, fun hone => ?_⟩
  · rw [LiveReport.exitCode_adding]
    simp only [mem_consolidate_iff]
  · rw [LiveReport.exitCode_adding, hone.exists_mem_consolidate]

/-- An error behind a warning with its key is dropped, and the run is passed. -/
theorem error_behind_warning :
    let warning : Diagnostic :=
      { rule := .braceSpacing, severity := .warning, message := "m", file := "a.css" }
    let error : Diagnostic := { warning with severity := .error }
    consolidate [warning, error] = [warning] ∧ error ∉ consolidate [warning, error] ∧
      (LiveReport.afterAll (LiveReport.adding [("a.css", [warning, error])])).ask
        LiveReport.exitCode = 0 := by
  decide +kernel

/-! ## 4. Findings of checks -/

/-- Findings of one rule are equally serious, as the options say. -/
theorem severity_of_mem_check {file : String} {text : Text} {o : Options} {d : Diagnostic}
    (h : d ∈ check file text o) : d.severity = o.severityOf d.rule := by
  obtain ⟨e, -, rfl⟩ := List.mem_map.1 (mem_of_mem_consolidate h)
  rfl

/-- Under the same options findings with one key are equally serious, since the rule is part of the
key. -/
theorem oneSeverity_checks (sources : List (String × Text)) (o : Options) :
    OneSeverity (sources.flatMap fun s => check s.1 s.2 o) := by
  intro d hd e he hkey
  obtain ⟨_, -, hd⟩ := List.mem_flatMap.1 hd
  obtain ⟨_, -, he⟩ := List.mem_flatMap.1 he
  rw [severity_of_mem_check hd, severity_of_mem_check he, (compareKey_eq_iff.1 hkey).2.2.2.1]

/-- Checks under the same options never lose an error, also where files or texts are repeated. -/
theorem exitCode_checks (sources : List (String × Text)) (o : Options) :
    (LiveReport.afterAll (LiveReport.adding (sources.map fun s => (s.1, check s.1 s.2 o)))).ask
        LiveReport.exitCode = 1 ↔
      ∃ s ∈ sources, ∃ d ∈ check s.1 s.2 o, d.severity = .error := by
  rw [LiveReport.exitCode_adding, List.flatMap_map,
    (oneSeverity_checks sources o).exists_mem_consolidate]
  simp only [List.mem_flatMap]
  exact ⟨fun ⟨d, ⟨s, hs, hd⟩, he⟩ => ⟨s, hs, d, hd, he⟩,
    fun ⟨s, hs, d, hd, he⟩ => ⟨d, ⟨s, hs, hd⟩, he⟩⟩

end HouseStyle
