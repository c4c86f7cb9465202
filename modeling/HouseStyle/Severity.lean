/-
HouseStyle.Severity — how serious a finding is.
-/
import HouseStyle.Text.Capitals
import HouseStyle.Text.Quoted

namespace HouseStyle

/-- How serious a finding is. -/
inductive Severity where
  | error
  | warning
  | info
  deriving DecidableEq, Repr

/-- A word that names no severity. -/
structure InvalidSeverity where
  word : String
  deriving DecidableEq, Repr

def InvalidSeverity.message (e : InvalidSeverity) : String :=
  s!"{quotedString e.word} is not a valid Severity"

namespace Severity

def all : List Severity := [.error, .warning, .info]

def name : Severity → String
  | .error => "ERROR"
  | .warning => "WARNING"
  | .info => "INFO"

/-- The more serious, the higher. -/
def rank : Severity → Nat
  | .info => 0
  | .warning => 1
  | .error => 2

def ofName? (word : String) : Option Severity := all.find? (·.name == word)

/-- The severity of this name in any case. -/
def ofWord? (word : String) : Option Severity := all.find? (capitalsAre ·.name word.toList)

/-- The severity of exactly this name, or an explanation. -/
def parse (word : String) : Except InvalidSeverity Severity :=
  match ofName? word with
  | some s => .ok s
  | none => .error ⟨word⟩

/-- The severity of a finding for which nothing else is said. -/
def standard : Severity := .error

theorem mem_all (s : Severity) : s ∈ all := by cases s <;> decide

end Severity

end HouseStyle
