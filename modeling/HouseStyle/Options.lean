/-
HouseStyle.Options — what a check can be told.

The two limits are at least one, and the type says so: options that break this cannot be built. The
indentation width is fixed; a configuration may name it but not change it. A `Draft` is a set of
options whose limits have not been looked at; `Draft.approve` turns it into options.
-/
import HouseStyle.RuleId
import HouseStyle.Severity
import HouseStyle.Value

namespace HouseStyle

/-- Why a configuration is refused. -/
inductive OptionsError where
  | unknownOption (key : Points)
  | notNames (key : String)
  | notMapping (key : String)
  | notInteger (key : String) (value : Value)
  | notBoolean (key : String) (value : Value)
  | unknownRule (e : UnknownRule)
  | unknownSeverity (word : Points)
  | indentWidth (width : Int)
  | nestingDepth
  | lineLength

def OptionsError.message : OptionsError → String
  | .unknownOption key => s!"Unknown option: {Text.shown key.quoted}"
  | .notNames key => s!"{key} must be a list of names"
  | .notMapping key => s!"{key} must be a mapping"
  | .notInteger key value => s!"{key} must be an integer, got {Text.shown value.quoted}"
  | .notBoolean key value => s!"{key} must be a boolean, got {Text.shown value.quoted}"
  | .unknownRule e => e.message
  | .unknownSeverity word => s!"Unknown severity: {Text.shown word.quoted}"
  | .indentWidth width => s!"indent_width is fixed at 2 spaces, got {width}"
  | .nestingDepth => "max_nesting_depth must be at least 1"
  | .lineLength => "max_line_length must be at least 1"

def indentWidth : Nat := 2

/-- Thresholds and switches of a check. -/
structure Options where
  maxNestingDepth : Nat := 3
  maxLineLength : Nat := 80
  /-- Class names are not checked. -/
  vendorExempt : Bool := false
  /-- Findings of a rule are reported. -/
  enabled : RuleId → Bool := fun _ => true
  /-- Class names that are not checked, in order and without repetition. -/
  allowlist : List String := []
  /-- The severity of a rule, where it is set. -/
  override : RuleId → Option Severity := fun _ => none
  one_le_maxNestingDepth : 1 ≤ maxNestingDepth := by decide
  one_le_maxLineLength : 1 ≤ maxLineLength := by decide

namespace Options

def severityOf (o : Options) (r : RuleId) : Severity := (o.override r).getD .standard

def insertName (name : String) : List String → List String
  | [] => [name]
  | n :: rest =>
    match compare name n with
    | .lt => name :: n :: rest
    | .eq => n :: rest
    | .gt => n :: insertName name rest

/-- The names in order and without repetition. -/
def nameSet (names : List String) : List String := names.foldr insertName []

/-- Options whose limits have not been looked at. -/
structure Draft where
  indentWidth : Int := 2
  maxNestingDepth : Int := 3
  maxLineLength : Int := 80
  vendorExempt : Bool := false
  enabled : RuleId → Bool := fun _ => true
  allowlist : List String := []
  override : RuleId → Option Severity := fun _ => none

def toDraft (o : Options) : Draft :=
  { maxNestingDepth := o.maxNestingDepth, maxLineLength := o.maxLineLength
    vendorExempt := o.vendorExempt, enabled := o.enabled, allowlist := o.allowlist
    override := o.override }

/-- The options of a draft whose limits are in order. -/
def Draft.approve (d : Draft) : Except OptionsError Options :=
  if d.indentWidth ≠ 2 then .error (.indentWidth d.indentWidth)
  else if hn : d.maxNestingDepth < 1 then .error .nestingDepth
  else if hl : d.maxLineLength < 1 then .error .lineLength
  else
    .ok
      { maxNestingDepth := d.maxNestingDepth.toNat, maxLineLength := d.maxLineLength.toNat
        vendorExempt := d.vendorExempt, enabled := d.enabled, allowlist := nameSet d.allowlist
        override := d.override
        one_le_maxNestingDepth := by omega
        one_le_maxLineLength := by omega }

end Options

end HouseStyle
