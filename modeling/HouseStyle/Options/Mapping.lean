/-
HouseStyle.Options.Mapping — options from the fields of a configuration.

Every option has two spellings (`maxLineLength`, `max_line_length`). Fields are taken in order and
the last field of an option wins. Rules to disable are looked up after all fields, and are taken
away from the enabled ones wherever the two fields stand; the limits are looked at last. A name
that is no text is no name of a class, and so does nothing among the names of classes.
-/
import HouseStyle.Options

namespace HouseStyle

/-- What a configuration can set. -/
inductive OptionName where
  | maxNestingDepth
  | maxLineLength
  | indentWidth
  | vendorExempt
  | enabledRules
  | disabledRules
  | namingAllowlist
  | severityOverrides
  deriving DecidableEq, Repr

namespace OptionName

def all : List OptionName :=
  [.maxNestingDepth, .maxLineLength, .indentWidth, .vendorExempt, .enabledRules, .disabledRules,
   .namingAllowlist, .severityOverrides]

def camel : OptionName → String
  | .maxNestingDepth => "maxNestingDepth"
  | .maxLineLength => "maxLineLength"
  | .indentWidth => "indentWidth"
  | .vendorExempt => "vendorExempt"
  | .enabledRules => "enabledRules"
  | .disabledRules => "disabledRules"
  | .namingAllowlist => "namingAllowlist"
  | .severityOverrides => "severityOverrides"

def snake : OptionName → String
  | .maxNestingDepth => "max_nesting_depth"
  | .maxLineLength => "max_line_length"
  | .indentWidth => "indent_width"
  | .vendorExempt => "vendor_exempt"
  | .enabledRules => "enabled_rules"
  | .disabledRules => "disabled_rules"
  | .namingAllowlist => "naming_allowlist"
  | .severityOverrides => "severity_overrides"

/-- The option with this spelling. -/
def ofSpelling? (key : String) : Option OptionName :=
  all.find? fun o => o.camel == key || o.snake == key

/-- The option of a key, and the key as a text. -/
def ofKey? (key : Points) : Option (OptionName × String) :=
  match key.toString? with
  | some s => (ofSpelling? s).map fun name => (name, s)
  | none => none

end OptionName

namespace Options

/-! ## 1. Values -/

def readInt (key : String) (value : Value) : Except OptionsError Int :=
  match value with
  | .int n => .ok n
  | _ => .error (.notInteger key value)

def readBool (key : String) (value : Value) : Except OptionsError Bool :=
  match value with
  | .bool b => .ok b
  | _ => .error (.notBoolean key value)

/-- A list of names; anything with members will do. -/
def readNames (key : String) (value : Value) : Except OptionsError (List Points) :=
  match value.members? with
  | some members => .ok (members.map Value.name)
  | none => .error (.notNames key)

def readRule (name : Points) : Except OptionsError RuleId :=
  (RuleId.parse name).mapError .unknownRule

def readRules (names : List Points) : Except OptionsError (List RuleId) := names.mapM readRule

def readSeverity (word : Points) : Except OptionsError Severity :=
  match word.toString?.bind Severity.ofWord? with
  | some s => .ok s
  | none => .error (.unknownSeverity word)

def readOverride (field : Points × Value) : Except OptionsError (RuleId × Severity) := do
  let rule ← readRule field.1
  let severity ← readSeverity field.2.name
  pure (rule, severity)

/-- The severities that are set; the last one of a rule counts. -/
def overrideOf (pairs : List (RuleId × Severity)) (r : RuleId) : Option Severity :=
  (pairs.reverse.find? (·.1 == r)).map (·.2)

/-- The severities that are set by the fields of a value. -/
def readOverrides (key : String) (value : Value) :
    Except OptionsError (RuleId → Option Severity) :=
  match value with
  | .object fields => do
    let pairs ← fields.mapM readOverride
    pure (overrideOf pairs)
  | _ => .error (.notMapping key)

/-! ## 2. Fields -/

/-- What the fields so far have set: a draft, and the names of rules to disable. -/
structure Reading where
  draft : Draft := {}
  disabled : List Points := []

def Reading.set (r : Reading) (name : OptionName) (key : String) (value : Value) :
    Except OptionsError Reading :=
  let d := r.draft
  match name with
  | .maxNestingDepth =>
    (readInt key value).map fun n => { r with draft := { d with maxNestingDepth := n } }
  | .maxLineLength =>
    (readInt key value).map fun n => { r with draft := { d with maxLineLength := n } }
  | .indentWidth =>
    (readInt key value).map fun n => { r with draft := { d with indentWidth := n } }
  | .vendorExempt =>
    (readBool key value).map fun b => { r with draft := { d with vendorExempt := b } }
  | .enabledRules => do
    let names ← readNames key value
    let rules ← readRules names
    pure { r with draft := { d with enabled := fun rule => rules.contains rule } }
  | .disabledRules => (readNames key value).map fun names => { r with disabled := names }
  | .namingAllowlist =>
    (readNames key value).map fun names =>
      { r with draft := { d with allowlist := names.filterMap Points.toString? } }
  | .severityOverrides =>
    (readOverrides key value).map fun o => { r with draft := { d with override := o } }

def Reading.take (r : Reading) (field : Points × Value) : Except OptionsError Reading :=
  match OptionName.ofKey? field.1 with
  | some (name, key) => r.set name key field.2
  | none => .error (.unknownOption field.1)

/-- Take away the rules to disable, and look at the limits. -/
def Reading.finish (r : Reading) : Except OptionsError Options := do
  let disabled ← readRules r.disabled
  Draft.approve
    { r.draft with enabled := fun rule => r.draft.enabled rule && !disabled.contains rule }

/-- The options of a configuration, given by its fields in order. -/
def ofFields (fields : Value.Fields) : Except OptionsError Options := do
  let reading ← fields.foldlM Reading.take {}
  reading.finish

end Options

end HouseStyle
