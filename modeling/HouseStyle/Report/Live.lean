/-
HouseStyle.Report.Live — a report that is read while it grows.

To put findings in order is the dear part of reading a report. A live report does it when its
findings are first read, and remembers the result until findings are added. Everything that can be
read, exit code and summary included, goes through what is remembered, so reading is an operation
of its own: it gives an answer, and it may leave more remembered than there was.

What is remembered must never show. That it does not is proved where the answers of a live report
are compared with those of the report it holds.
-/
import HouseStyle.Report

namespace HouseStyle

/-- A report with its findings in order, if they have been read since findings were last added. -/
structure LiveReport extends Report where
  ordered : Option (List Diagnostic) := none

namespace LiveReport

/-- Something that is read off a live report. -/
abbrev Reader (α : Type) : Type := StateM LiveReport α

/-! ## 1. Growing -/

/-- Add the findings about a file; what was remembered is out of date. -/
def add (r : LiveReport) (file : String) (ds : List Diagnostic) : LiveReport :=
  { toReport := r.toReport.add file ds, ordered := none }

def recordFailure (r : LiveReport) (file reason : String) : LiveReport :=
  { r with toReport := r.toReport.recordFailure file reason }

/-! ## 2. Reading -/

def diagnostics : Reader (List Diagnostic) := do
  match (← get).ordered with
  | some ds => return ds
  | none =>
    let ds := Diagnostic.consolidate (← get).collected
    modify fun r => { r with ordered := some ds }
    return ds

def count (s : Severity) : Reader Nat := do
  return (← diagnostics).countP fun d => d.severity == s

def atOrAbove (s : Severity) : Reader (List Diagnostic) := do
  return (← diagnostics).filter fun d => s.rank ≤ d.severity.rank

def passed : Reader Bool := do
  return (← atOrAbove .error).isEmpty && (← get).failed.isEmpty

def exitCode : Reader Nat := do
  return if ← passed then 0 else 1

def byFile : Reader (List (String × List Diagnostic)) := do
  return Report.grouped (← get).files (← diagnostics)

def summary : Reader String := do
  return Report.summaryLine (← get).files.length (← count .error) (← count .warning) (← count .info)

def toValue : Reader Value := do
  return Report.fields (← get).files (← diagnostics) (← get).failed (← count .error)
    (← count .warning) (← count .info) (← passed)

def ask {α : Type} (r : LiveReport) (reader : Reader α) : α := (reader.run r).1

/-! ## 3. Operations -/

/-- What can be read off a report. -/
inductive Reading where
  | diagnostics
  | count (s : Severity)
  | atOrAbove (s : Severity)
  | passed
  | exitCode
  | byFile
  | summary
  | value

/-- What is remembered after something was read. -/
def afterReading (r : LiveReport) : Reading → LiveReport
  | .diagnostics => (diagnostics.run r).2
  | .count s => ((count s).run r).2
  | .atOrAbove s => ((atOrAbove s).run r).2
  | .passed => (passed.run r).2
  | .exitCode => (exitCode.run r).2
  | .byFile => (byFile.run r).2
  | .summary => (summary.run r).2
  | .value => (toValue.run r).2

/-- One operation on a report. -/
inductive Operation where
  | add (file : String) (ds : List Diagnostic)
  | recordFailure (file reason : String)
  | read (what : Reading)

def perform (r : LiveReport) : Operation → LiveReport
  | .add file ds => r.add file ds
  | .recordFailure file reason => r.recordFailure file reason
  | .read what => r.afterReading what

/-- The report after some operations, which starts empty. -/
def afterAll (operations : List Operation) : LiveReport := operations.foldl perform {}

end LiveReport

end HouseStyle
