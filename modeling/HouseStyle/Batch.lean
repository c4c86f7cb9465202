/-
HouseStyle.Batch — checking several stylesheets.

The files of a batch are independent of each other. Each ends either among the checked files, with
its findings, or among the failures, with a reason; the order in which they are done shows only in
the order of failures.
-/
import HouseStyle.Check
import HouseStyle.Report

namespace HouseStyle

/-- A stylesheet to check: its name, its text or the reason why there is none, and its options. -/
structure Source where
  file : String
  text : Except String Text
  options : Options := {}

/-- Why a batch cannot be run. -/
inductive BatchError where
  | noWorkers
  deriving DecidableEq, Repr

def BatchError.message : BatchError → String
  | .noWorkers => "max_workers must be greater than 0"

def Report.include (r : Report) (source : Source) : Report :=
  match source.text with
  | .ok text => r.add source.file (check source.file text source.options)
  | .error reason => r.recordFailure source.file reason

/-- The report of sources that are done in the given order. -/
def Report.ofSources (sources : List Source) : Report := sources.foldl Report.include {}

/-- The report of a batch that is given a number of workers; a batch with something to do needs at
least one. -/
def checkMany (sources : List Source) (workers : Option Int) : Except BatchError Report :=
  if !sources.isEmpty && workers.any (· ≤ 0) then .error .noWorkers
  else .ok (.ofSources sources)

end HouseStyle
