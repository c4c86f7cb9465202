/-
HouseStyle.Proofs.Remembered — what a live report remembers does not show.

A live report answers from findings that it has put in order at some time before. The answers are
those of the report it holds (`Answers`), as long as what it remembers is up to date (`Current`).
Adding findings forgets, recording a failure changes no finding, and reading leaves something
remembered only if that is up to date; so a live report that was only ever operated on is up to
date, and it holds the report that its operations make without the reads among them
(`afterAll_grown`).
-/
import HouseStyle.Report.Live

namespace HouseStyle.LiveReport

variable {α β : Type} {r : LiveReport}

/-! ## 1. Readers -/

/-- What is remembered, if anything is, are the findings in order. -/
def Current (r : LiveReport) : Prop := ∀ ds ∈ r.ordered, ds = r.toReport.diagnostics

/-- Where what is remembered is up to date, the reader gives the answer that the report has, keeps
the report, and leaves what is remembered up to date. -/
def Answers (reader : Reader α) (answer : Report → α) : Prop :=
  ∀ r : LiveReport, r.Current →
    (reader.run r).1 = answer r.toReport ∧ (reader.run r).2.toReport = r.toReport ∧
      (reader.run r).2.Current

theorem Answers.ask {reader : Reader α} {answer : Report → α} (h : Answers reader answer)
    (hr : r.Current) : r.ask reader = answer r.toReport :=
  (h r hr).1

theorem Answers.pure (a : α) : Answers (pure a) fun _ => a := fun _ hr => ⟨rfl, rfl, hr⟩

/-- Reading one thing after another gives both answers if each of the readers does. -/
theorem Answers.bind {reader : Reader α} {answer : Report → α} {next : α → Reader β}
    {answerNext : α → Report → β} (h : Answers reader answer)
    (hnext : ∀ a, Answers (next a) (answerNext a)) :
    Answers (reader >>= next) fun r => answerNext (answer r) r := by
  intro r hr
  obtain ⟨hvalue, hreport, hcurrent⟩ := h r hr
  obtain ⟨hvalue', hreport', hcurrent'⟩ := hnext (reader.run r).1 _ hcurrent
  refine ⟨?_, hreport'.trans hreport, hcurrent'⟩
  show ((next (reader.run r).1).run (reader.run r).2).1 = answerNext (answer r.toReport) r.toReport
  rw [hvalue', hvalue, hreport]

/-- A reader that looks at what was added. -/
theorem Answers.get (answerNext : Report → Report → β) {next : LiveReport → Reader β}
    (hnext : ∀ s : LiveReport, Answers (next s) (answerNext s.toReport)) :
    Answers (MonadState.get >>= next) fun r => answerNext r r :=
  fun r hr => hnext r r hr

/-- Findings are taken from memory where it is up to date, and put in order otherwise. -/
theorem answers_diagnostics : Answers diagnostics Report.diagnostics := by
  intro r hr
  cases hordered : r.ordered with
  | some ds =>
    have hrun : diagnostics.run r = (ds, r) := by
      simp only [diagnostics, StateT.run_bind, StateT.run_get, pure_bind, hordered]
      rfl
    rw [hrun]
    exact ⟨hr ds hordered, rfl, hr⟩
  | none =>
    have hrun : diagnostics.run r =
        (r.toReport.diagnostics, { r with ordered := some r.toReport.diagnostics }) := by
      simp only [diagnostics, StateT.run_bind, StateT.run_get, pure_bind, hordered]
      rfl
    rw [hrun]
    exact ⟨rfl, rfl, fun ds hds => (Option.some.inj hds).symm⟩

theorem answers_count (s : Severity) : Answers (count s) fun r => r.count s :=
  answers_diagnostics.bind fun _ => .pure _

theorem answers_atOrAbove (s : Severity) : Answers (atOrAbove s) fun r => r.atOrAbove s :=
  answers_diagnostics.bind fun _ => .pure _

theorem answers_passed : Answers passed Report.passed :=
  (answers_atOrAbove .error).bind fun errors =>
    .get (fun r _ => errors.isEmpty && r.failed.isEmpty) fun _ => .pure _

theorem answers_exitCode : Answers exitCode Report.exitCode :=
  answers_passed.bind fun _ => .pure _

theorem answers_byFile : Answers byFile Report.byFile :=
  .get (fun r s => Report.grouped r.files s.diagnostics) fun _ =>
    answers_diagnostics.bind fun _ => .pure _

theorem answers_summary : Answers summary Report.summary :=
  .get (fun r s => Report.summaryLine r.files.length (s.count .error) (s.count .warning)
    (s.count .info)) fun _ =>
    (answers_count .error).bind fun _ => (answers_count .warning).bind fun _ =>
      (answers_count .info).bind fun _ => .pure _

theorem answers_toValue : Answers toValue Report.toValue :=
  .get (fun r s => Report.fields r.files s.diagnostics s.failed (s.count .error) (s.count .warning)
    (s.count .info) s.passed) fun r =>
    answers_diagnostics.bind fun ds =>
      .get (fun s s' => Report.fields r.files ds s.failed (s'.count .error) (s'.count .warning)
        (s'.count .info) s'.passed) fun _ =>
        (answers_count .error).bind fun _ => (answers_count .warning).bind fun _ =>
          (answers_count .info).bind fun _ => answers_passed.bind fun _ => .pure _

/-! ## 2. Operations -/

/-- Reading keeps the report, and what is remembered is up to date. -/
theorem afterReading_spec (hr : r.Current) (what : Reading) :
    (r.afterReading what).toReport = r.toReport ∧ (r.afterReading what).Current := by
  cases what with
  | diagnostics => exact (answers_diagnostics r hr).2
  | count s => exact (answers_count s r hr).2
  | atOrAbove s => exact (answers_atOrAbove s r hr).2
  | passed => exact (answers_passed r hr).2
  | exitCode => exact (answers_exitCode r hr).2
  | byFile => exact (answers_byFile r hr).2
  | summary => exact (answers_summary r hr).2
  | value => exact (answers_toValue r hr).2

/-- What an operation does to the report itself: reading does nothing. -/
def grown (r : Report) : Operation → Report
  | .add file ds => r.add file ds
  | .recordFailure file reason => r.recordFailure file reason
  | .read _ => r

/-- An operation does to the live report what it does to the plain one, and leaves what is
remembered up to date. -/
theorem perform_spec (hr : r.Current) (operation : Operation) :
    (r.perform operation).toReport = grown r.toReport operation ∧
      (r.perform operation).Current := by
  cases operation with
  | add file ds => exact ⟨rfl, fun _ h => (by cases h)⟩
  | recordFailure file reason => exact ⟨rfl, hr⟩
  | read what => exact afterReading_spec hr what

/-- Any row of operations keeps the live report in step with the plain one. -/
theorem foldl_perform_spec (hr : r.Current) (operations : List Operation) :
    (operations.foldl perform r).toReport = operations.foldl grown r.toReport ∧
      (operations.foldl perform r).Current := by
  induction operations generalizing r with
  | nil => exact ⟨rfl, hr⟩
  | cons operation rest ih =>
    obtain ⟨hreport, hcurrent⟩ := perform_spec hr operation
    rw [List.foldl_cons, List.foldl_cons, ← hreport]
    exact ih hcurrent

theorem current_empty : Current {} := fun _ h => by cases h

/-- A live report holds the report that its operations make without the reads among them. -/
theorem afterAll_grown (operations : List Operation) :
    (afterAll operations).toReport = operations.foldl grown {} :=
  (foldl_perform_spec current_empty operations).1

/-- What is asked of a live report is answered by the report it holds. -/
theorem ask_afterAll {reader : Reader α} {answer : Report → α} (h : Answers reader answer)
    (operations : List Operation) :
    (afterAll operations).ask reader = answer (operations.foldl grown {}) := by
  have hcurrent : (afterAll operations).Current := (foldl_perform_spec current_empty operations).2
  rw [h.ask hcurrent, afterAll_grown]

/-! ## 3. What was added -/

def Operation.findings : Operation → List Diagnostic
  | .add _ ds => ds
  | _ => []

def Operation.file? : Operation → Option String
  | .add file _ => some file
  | _ => none

variable {report : Report}

theorem collected_foldl_grown (operations : List Operation) :
    (operations.foldl grown report).collected =
      report.collected ++ operations.flatMap Operation.findings := by
  induction operations generalizing report with
  | nil => exact (List.append_nil _).symm
  | cons operation rest ih =>
    have hstep : (grown report operation).collected = report.collected ++ operation.findings := by
      cases operation with
      | add file ds => rfl
      | recordFailure file reason => exact (List.append_nil _).symm
      | read what => exact (List.append_nil _).symm
    rw [List.foldl_cons, ih, hstep, List.append_assoc, List.flatMap_cons]

/-- The files of a report are those that were added, in order. -/
theorem files_foldl_grown (operations : List Operation) :
    (operations.foldl grown report).files =
      report.files ++ operations.filterMap Operation.file? := by
  induction operations generalizing report with
  | nil => exact (List.append_nil _).symm
  | cons operation rest ih =>
    have hstep : (grown report operation).files = report.files ++ operation.file?.toList := by
      cases operation with
      | add file ds => rfl
      | recordFailure file reason => exact (List.append_nil _).symm
      | read what => exact (List.append_nil _).symm
    rw [List.foldl_cons, ih, hstep, List.append_assoc]
    cases h : operation.file? <;> simp [h]

/-- A failure stays. -/
theorem failed_foldl_grown (operations : List Operation) (h : report.failed ≠ []) :
    (operations.foldl grown report).failed ≠ [] := by
  refine List.foldlRecOn operations grown (motive := fun r => r.failed ≠ []) h ?_
  intro r hr operation _
  cases operation with
  | add file ds => exact hr
  | read what => exact hr
  | recordFailure file reason =>
    show Report.setReason file reason r.failed ≠ []
    cases hfailed : r.failed with
    | nil => exact absurd hfailed hr
    | cons entry failed =>
      unfold Report.setReason
      split <;> exact List.cons_ne_nil _ _

end HouseStyle.LiveReport
