/-
HouseStyle.Report — the findings of a whole run.

A report grows by the findings of files and by failures to check one. What it shows is a function
of what was added: the findings are consolidated over all files, a failure that is recorded again
keeps its place and takes the new reason, and a run is passed if nothing failed and nothing is an
error.
-/
import HouseStyle.Diagnostic
import HouseStyle.Value

namespace HouseStyle

/-- The files that were checked, the failures with their reasons, and all findings, in the order in
which they were added. -/
structure Report where
  files : List String := []
  failed : List (String × String) := []
  collected : List Diagnostic := []

namespace Report

/-! ## 1. Growing -/

def add (r : Report) (file : String) (ds : List Diagnostic) : Report :=
  { r with files := r.files ++ [file], collected := r.collected ++ ds }

def setReason (file reason : String) : List (String × String) → List (String × String)
  | [] => [(file, reason)]
  | (f, old) :: rest =>
    if f = file then (file, reason) :: rest else (f, old) :: setReason file reason rest

def recordFailure (r : Report) (file reason : String) : Report :=
  { r with failed := setReason file reason r.failed }

/-! ## 2. Reading -/

def diagnostics (r : Report) : List Diagnostic := Diagnostic.consolidate r.collected

def count (r : Report) (s : Severity) : Nat := r.diagnostics.countP fun d => d.severity == s

def atOrAbove (r : Report) (s : Severity) : List Diagnostic :=
  r.diagnostics.filter fun d => s.rank ≤ d.severity.rank

def passed (r : Report) : Bool := (r.atOrAbove .error).isEmpty && r.failed.isEmpty

def exitCode (r : Report) : Nat := if r.passed then 0 else 1

/-- The strings in order, by code point; repetitions stay. -/
def inOrder (names : List String) : List String := names.mergeSort fun a b => decide (a ≤ b)

def group (d : Diagnostic) : List (String × List Diagnostic) → List (String × List Diagnostic)
  | [] => [(d.file, [d])]
  | (f, ds) :: rest => if f = d.file then (f, ds ++ [d]) :: rest else (f, ds) :: group d rest

/-- Findings file by file: the checked files in order, then files that only findings name. -/
def grouped (files : List String) (ds : List Diagnostic) : List (String × List Diagnostic) :=
  ds.foldl (fun groups d => group d groups) ((inOrder files).eraseDups.map fun f => (f, []))

def byFile (r : Report) : List (String × List Diagnostic) := grouped r.files r.diagnostics

/-- A run in one line: how many files were checked, and how many findings there are of each
severity. -/
def summaryLine (files errors warnings infos : Nat) : String :=
  s!"{files} file(s) checked: {errors} error(s), {warnings} warning(s), {infos} info"

def summary (r : Report) : String :=
  summaryLine r.files.length (r.count .error) (r.count .warning) (r.count .info)

end Report

/-! ## 3. As a value -/

def Diagnostic.toValue (d : Diagnostic) : Value :=
  .ofFields
    [("fileId", .ofString d.file), ("line", .int d.line), ("column", .int d.column),
     ("ruleId", .ofString d.rule.name), ("severity", .ofString d.severity.name),
     ("message", .ofString d.message),
     ("fix", match d.fix with | some fix => .ofString fix | none => .null)]

def Report.fields (files : List String) (ds : List Diagnostic) (failed : List (String × String))
    (errors warnings infos : Nat) (passed : Bool) : Value :=
  .ofFields
    [("files", .list ((inOrder files).map .ofString)),
     ("diagnostics", .list (ds.map Diagnostic.toValue)),
     ("failed", .ofFields (failed.map fun (file, reason) => (file, .ofString reason))),
     ("summary", .ofFields
       [("errors", .int errors), ("warnings", .int warnings), ("info", .int infos),
        ("passed", .bool passed)])]

def Report.toValue (r : Report) : Value :=
  fields r.files r.diagnostics r.failed (r.count .error) (r.count .warning) (r.count .info) r.passed

end HouseStyle
