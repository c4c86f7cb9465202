/-
HouseStyle.Diagnostic — findings about a stylesheet.

A finding says which rule was broken, where, and how it could be mended. Findings are ordered by
file, line, column, rule name and message, strings by code point; two findings that agree in all
five are the same finding for a reader, and of several such findings the first one counts
(`consolidate`).
-/
import HouseStyle.RuleId
import HouseStyle.Severity

namespace HouseStyle

/-- A finding. The fix is advice only. -/
structure Diagnostic where
  rule : RuleId
  severity : Severity := .standard
  message : String
  file : String := "<input>"
  line : Int := 1
  column : Int := 1
  fix : Option String := none
  deriving DecidableEq, Repr

namespace Diagnostic

def isError (d : Diagnostic) : Bool := d.severity == .error

def isWarning (d : Diagnostic) : Bool := d.severity == .warning

def describe (d : Diagnostic) : String :=
  s!"{d.file}:{d.line}:{d.column}: {d.severity.name} [{d.rule.name}] {d.message}"

/-- The order of findings: by file, line, column, rule name and message. -/
def compareKey (a b : Diagnostic) : Ordering :=
  (compare a.file b.file).then <| (compare a.line b.line).then <|
    (compare a.column b.column).then <| (compare a.rule.name b.rule.name).then <|
      compare a.message b.message

/-- Put a finding into an ordered list, in place of one with the same key if there is one. -/
def insert (d : Diagnostic) : List Diagnostic → List Diagnostic
  | [] => [d]
  | e :: rest =>
    match compareKey d e with
    | .lt => d :: e :: rest
    | .eq => d :: rest
    | .gt => e :: insert d rest

/-- The findings in order, the first one of every key. -/
def consolidate (ds : List Diagnostic) : List Diagnostic := ds.foldr insert []

end Diagnostic

end HouseStyle
