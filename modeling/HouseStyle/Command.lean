/-
HouseStyle.Command — what the program does with its arguments.

A run is a function of the arguments and of what is found on disk. Options come from a
configuration file, if one is named, and from the command line, which has the last word. Files that
cannot be read are failures of the report and do not stop the others.
-/
import HouseStyle.Batch
import HouseStyle.Command.Arguments
import HouseStyle.Options.Mapping
import HouseStyle.Path
import HouseStyle.Text.ControlSequence
import HouseStyle.Text.Glob
import HouseStyle.Text.Utf8
import HouseStyle.Value.Json

namespace HouseStyle.Command

/-! ## 1. Outcomes -/

/-- Why the options of a run are refused. -/
inductive ConfigError where
  /-- The configuration is no JSON text. -/
  | malformed
  | notObject (file : String)
  | options (e : OptionsError)

def ConfigError.message : ConfigError → String
  | .malformed => Value.JsonError.malformed.message
  | .notObject file => s!"{file}: top level must be an object"
  | .options e => e.message

/-- Why a run breaks off. -/
inductive Breakdown where
  /-- The configuration file is no text. -/
  | undecodable (e : Utf8.Error)
  /-- The configuration file holds a number or a value that is too large to be read. -/
  | oversized (e : Value.JsonError)
  /-- An option that the command line adds to has no members. -/
  | notExtensible (key : String)
  | impossiblePath
  | nameTooLong (e : NameTooLong)
  | batch (e : BatchError)

def Breakdown.message : Breakdown → String
  | .undecodable e => e.message
  | .oversized e => e.message
  | .notExtensible key => s!"{key} cannot be extended"
  | .impossiblePath => "embedded null byte"
  | .nameTooLong e => e.message
  | .batch e => e.message

/-- How a run ends. -/
inductive Outcome where
  | usage
  | help
  | version
  | rules
  | refused (e : ConfigError)
  | broken (e : Breakdown)
  | reported (report : Report) (json : Bool)

/-! ## 2. Options -/

/-- The members of a value to which more are added; those of a string are its characters. -/
def membersToExtend? : Value → Option (List Value)
  | .string s => some (s.map fun c => .string [c])
  | v => v.members?

/-- Add names to the members of a field; nothing is done if there are none to add. -/
def extendField (key : String) (names : List String) (fields : Value.Fields) :
    Except Breakdown Value.Fields :=
  if names.isEmpty then .ok fields
  else
    match membersToExtend? ((Value.field? fields (.ofString key)).getD (.list [])) with
    | some members =>
      .ok (Value.put fields (.ofString key) (.list (members ++ names.map Value.ofString)))
    | none => .error (.notExtensible key)

def setField (key : String) (number : Option Int) (fields : Value.Fields) : Value.Fields :=
  match number with
  | some n => Value.put fields (.ofString key) (.int n)
  | none => fields

/-- The fields of a configuration, with those that the command line sets or adds to. -/
def mergeFields (a : CheckArguments) (fields : Value.Fields) : Except Breakdown Value.Fields := do
  let fields := setField "maxNestingDepth" a.maxNestingDepth fields
  let fields := setField "maxLineLength" a.maxLineLength fields
  let fields ← extendField "namingAllowlist" a.allowClasses fields
  extendField "disabledRules" a.disable fields

/-- Why there are no options: the fault is in the configuration, or the run breaks off. -/
inductive NoOptions where
  | refused (e : ConfigError)
  | broken (e : Breakdown)

def readConfig (file : String) (bytes : List UInt8) : Except NoOptions Value.Fields :=
  match Utf8.readText bytes with
  | .error e => .error (.broken (.undecodable e))
  | .ok text =>
    match Value.ofJson text with
    | .error .malformed => .error (.refused .malformed)
    | .error e => .error (.broken (.oversized e))
    | .ok (.object fields) => .ok fields
    | .ok _ => .error (.refused (.notObject file))

/-- The options of a run, from the fields of its configuration and its arguments. -/
def buildOptions (a : CheckArguments) (fields : Value.Fields) : Except NoOptions Options := do
  let fields ← (mergeFields a fields).mapError .broken
  (Options.ofFields fields).mapError fun e => .refused (.options e)

/-! ## 3. Checking -/

def readFile (disk : Disk) (p : Path) : Except String Text :=
  match disk p with
  | .missing => .error (p.fault 2 "No such file or directory")
  | .nameTooLong => .error (NameTooLong.message ⟨p⟩)
  | .notDirectory => .error (p.fault 20 "Not a directory")
  | .directory _ => .error (p.fault 21 "Is a directory")
  | .file bytes => (Utf8.readText bytes).mapError Utf8.Error.message

def isVendor (patterns : List String) (p : Path) : Bool :=
  patterns.any fun pattern => Glob.isMatch pattern.toList p.text.toList

/-- What is to be checked under a path. -/
def sourceAt (disk : Disk) (patterns : List String) (o : Options) (p : Path) : Source :=
  { file := p.text, text := readFile disk p
    options := if isVendor patterns p then { o with vendorExempt := true } else o }

def isReadable (s : Source) : Bool :=
  match s.text with
  | .ok _ => true
  | .error _ => false

/-- The report of a check of these files with given options. Files that cannot be read are recorded
behind those that were checked. -/
def reportOn (disk : Disk) (a : CheckArguments) (o : Options) (paths : List Path) :
    Except BatchError Report :=
  let sources := paths.map (sourceAt disk a.vendorPatterns o)
  (checkMany (sources.filter isReadable) a.jobs).map fun report =>
    (sources.filter fun s => !isReadable s).foldl Report.include report

def checkWith (disk : Disk) (a : CheckArguments) (o : Options) : Outcome :=
  match disk.expand a.paths with
  | .error e => .broken (.nameTooLong e)
  | .ok paths =>
    match reportOn disk a o paths with
    | .error e => .broken (.batch e)
    | .ok report => .reported report a.json

/-- The outcome of the `check` command; the configuration file must exist, and every path must be
one that could. -/
def runCheck (disk : Disk) (a : CheckArguments) : Outcome :=
  let finish (fields : Except NoOptions Value.Fields) : Outcome :=
    if a.paths.any Path.hasNul then .broken .impossiblePath
    else
      match fields.bind (buildOptions a) with
      | .ok o => checkWith disk a o
      | .error (.refused e) => .refused e
      | .error (.broken e) => .broken e
  match a.config with
  | none => finish (.ok [])
  | some file =>
    match disk (Path.ofString file) with
    | .file bytes =>
      if Path.namesFile file then finish (readConfig file bytes) else .usage
    | _ => .usage

def run (disk : Disk) (arguments : List String) : Outcome :=
  match Request.ofArguments arguments with
  | .usage => .usage
  | .help => .help
  | .version => .version
  | .rules => .rules
  | .impossiblePath => .broken .impossiblePath
  | .check a => runCheck disk a

/-! ## 4. What is printed -/

def usageText : String :=
  "Usage: stylecheck [--version] [--help] check [OPTIONS] PATHS...\n" ++
    "       stylecheck rules\n"

def padded (width : Nat) (s : String) : String :=
  s ++ Text.shown (List.replicate (width - s.length) ' ')

def sortedRules : List RuleId :=
  RuleId.all.mergeSort fun a b =>
    ((compare a.category.name b.category.name).then (compare a.name b.name)).isLE

def rulesText : String :=
  let width := (RuleId.all.map fun r => r.name.length).foldl max 0
  String.join <| sortedRules.map fun r =>
    s!"{padded width r.name}  {padded 12 r.category.name}  {Severity.standard.name}\n"

def reportText (r : Report) : String :=
  let lines := r.diagnostics.map fun d => d.describe ++ "\n"
  String.join lines ++ (if lines.isEmpty then "" else "\n") ++ s!"Summary: {r.summary}\n"

def failureText (r : Report) : String :=
  let failed := r.failed.mergeSort fun a b => decide (a.1 ≤ b.1)
  String.join <| failed.map fun (file, reason) => s!"Cannot check {file}: {reason}\n"

namespace Outcome

def exitCode : Outcome → Nat
  | .usage => 2
  | .help => 0
  | .version => 0
  | .rules => 0
  | .refused _ => 2
  | .broken _ => 1
  | .reported r _ => r.exitCode

/-- What is printed, terminal commands included. -/
def fullOutput : Outcome → String
  | .help => usageText
  | .version => "stylecheck, version 0.1.0\n"
  | .rules => rulesText
  | .reported r json => if json then r.toValue.toJson.shown ++ "\n" else reportText r
  | _ => ""

/-- What is printed about faults, terminal commands included. -/
def fullErrors : Outcome → String
  | .usage => usageText
  | .refused e => s!"Configuration error: {e.message}\n"
  | .broken e => s!"{e.message}\n"
  | .reported r _ => failureText r
  | _ => ""

def output (o : Outcome) : String := Text.shown (ControlSequence.strip o.fullOutput.toList)

def errors (o : Outcome) : String := Text.shown (ControlSequence.strip o.fullErrors.toList)

end Outcome

end HouseStyle.Command
