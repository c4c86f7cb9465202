/-
HouseStyle.Command.Arguments — what is asked for on the command line.

There are two commands, `check` and `rules`. Options are written `--name value` or `--name=value`
and may stand among the paths; two hyphens alone end them. An option that takes a value takes the
next argument, whatever it is; of an option that is given twice the last one counts, unless it can
be repeated. Values are looked at only after all arguments have been read, those of options in the
order in which the options were first given and before the paths.

Behind two hyphens a command is wanted. Should an option stand there, the options are read once
more, and this time no command can follow them.
-/
import HouseStyle.Path
import HouseStyle.Text.Digit

namespace HouseStyle.Command

/-- An option of the `check` command. -/
inductive Flag where
  | config
  | maxNestingDepth
  | maxLineLength
  | vendorExempt
  | allowClass
  | disable
  | format
  | jobs
  | verbose
  | help
  deriving DecidableEq, Repr

namespace Flag

def ofName? (name : Text) : Option Flag :=
  [("--config", Flag.config), ("--max-nesting-depth", .maxNestingDepth),
   ("--max-line-length", .maxLineLength), ("--vendor-exempt", .vendorExempt),
   ("--allow-class", .allowClass), ("--disable", .disable), ("--format", .format),
   ("--jobs", .jobs), ("--verbose", .verbose), ("--help", .help)].lookup (Text.shown name)

def takesValue : Flag → Bool
  | .verbose | .help => false
  | _ => true

end Flag

/-- What to check, and how. -/
structure CheckArguments where
  paths : List String
  config : Option String := none
  maxNestingDepth : Option Int := none
  maxLineLength : Option Int := none
  vendorPatterns : List String := []
  allowClasses : List String := []
  disable : List String := []
  json : Bool := false
  jobs : Option Int := none
  deriving Repr

/-- What is asked for. -/
inductive Request where
  | usage
  | help
  | version
  | rules
  /-- A path is named that holds a character which no path can hold. -/
  | impossiblePath
  | check (arguments : CheckArguments)
  deriving Repr

/-! ## 1. Whole numbers -/

/-- Digits of any script, with single underscores between them. -/
def readDigits? (t : Text) : Option Nat :=
  let groups := t.splitOnP (· == '_')
  if groups.all (fun g => !g.isEmpty && g.all isDecimalDigit) && groups.flatten.length ≤ 4300 then
    some (decimalValue groups.flatten)
  else none

/-- A blank that may stand around a number: any but the four separators of ASCII. -/
def isNumberBlank (c : Char) : Bool := isBlank c && !(28 ≤ c.toNat && c.toNat ≤ 31)

/-- A whole number with an optional sign and blanks around it. -/
def readInt? (s : String) : Option Int :=
  match Text.dropEndWhile isNumberBlank (s.toList.dropWhile isNumberBlank) with
  | '-' :: rest => (readDigits? rest).map fun n => -(n : Int)
  | '+' :: rest => (readDigits? rest).map fun n => (n : Int)
  | t => (readDigits? t).map fun n => (n : Int)

/-! ## 2. Options and paths -/

/-- Arguments taken apart: options with their values (empty for those that take none), and paths. -/
structure Given where
  flags : List (Flag × String) := []
  paths : List String := []

def isOption (t : Text) : Bool := t.head? == some '-' && 1 < t.length

def Given.addFlag (flag : Flag) (value : String) (g : Given) : Given :=
  { g with flags := (flag, value) :: g.flags }

def Given.addPath (path : String) (g : Given) : Given := { g with paths := path :: g.paths }

/-- The name of a long option and the value that is written with it. -/
def splitOption (t : Text) : Text × Option String :=
  let name := t.takeWhile (· != '=')
  match t.dropWhile (· != '=') with
  | [] => (name, none)
  | _ :: value => (name, some (Text.shown value))

/-- The argument is a cluster of short options, of which there is only `-v`. -/
def isShortCluster (t : Text) : Bool :=
  match t with
  | '-' :: rest => !rest.isEmpty && rest.all (· == 'v')
  | _ => false

/-- Take the arguments of the `check` command apart; none if they cannot be. -/
def takeApart? : List String → Option Given
  | [] => some {}
  | a :: rest =>
    let t := a.toList
    if a == "--" then some { paths := rest }
    else if !isOption t then (takeApart? rest).map (Given.addPath a)
    else if isShortCluster t then (takeApart? rest).map (Given.addFlag .verbose "")
    else
      match Flag.ofName? (splitOption t).1, (splitOption t).2 with
      | none, _ => none
      | some flag, some value =>
        if flag.takesValue then (takeApart? rest).map (Given.addFlag flag value) else none
      | some flag, none =>
        if !flag.takesValue then (takeApart? rest).map (Given.addFlag flag "")
        else
          match rest with
          | [] => none
          | value :: more => (takeApart? more).map (Given.addFlag flag value)

namespace Given

def values (g : Given) (flag : Flag) : List String :=
  (g.flags.filter (·.1 == flag)).map (·.2)

def value? (g : Given) (flag : Flag) : Option String := (g.values flag).getLast?

def int? (g : Given) (flag : Flag) : Option (Option Int) :=
  match g.value? flag with
  | none => some none
  | some s => (readInt? s).map some

def json? (g : Given) : Option Bool :=
  match g.value? .format with
  | none => some false
  | some s => if s = "text" then some false else if s = "json" then some true else none

/-- Something is wrong with the value of an option that is a number or a format. -/
def isInvalid (g : Given) : Flag → Bool
  | .maxNestingDepth => (g.int? .maxNestingDepth).isNone
  | .maxLineLength => (g.int? .maxLineLength).isNone
  | .jobs => (g.int? .jobs).isNone
  | .format => g.json?.isNone
  | _ => false

/-- The configuration file is an impossible path, and no option that was given before it has an
invalid value. -/
def hasImpossibleConfig (g : Given) : Bool :=
  (g.value? .config).any Path.hasNul &&
    ((g.flags.map (·.1)).takeWhile (· != .config)).all fun flag => !g.isInvalid flag

/-- The arguments of the `check` command, if every value is in order. -/
def toCheck? (g : Given) : Option CheckArguments := do
  let maxNestingDepth ← g.int? .maxNestingDepth
  let maxLineLength ← g.int? .maxLineLength
  let jobs ← g.int? .jobs
  let json ← g.json?
  if g.paths.isEmpty then none
  else
    some
      { paths := g.paths, config := g.value? .config, maxNestingDepth, maxLineLength
        vendorPatterns := g.values .vendorExempt, allowClasses := g.values .allowClass
        disable := g.values .disable, json, jobs }

end Given

/-! ## 3. Commands -/

def readCheck (arguments : List String) : Request :=
  match takeApart? arguments with
  | none => .usage
  | some g =>
    if !(g.values .help).isEmpty then .help
    else if g.hasImpossibleConfig then .impossiblePath
    else
      match g.toCheck? with
      | some a => .check a
      | none => .usage

/-- The request of the `rules` command, which takes no path and no option but `--help`. -/
def readRules (arguments : List String) : Request :=
  let front := arguments.takeWhile (· != "--")
  let behind := (arguments.dropWhile (· != "--")).drop 1
  let options := front.filter fun a => isOption a.toList
  if options.any (· != "--help") then .usage
  else if !options.isEmpty then .help
  else if front.isEmpty && behind.isEmpty then .rules
  else .usage

/-- The request of options and of what is read `behind` them; `asked` is what the first of the
options asks for. -/
def readOptions (behind : List String → Request) (asked : Option Request) :
    List String → Request
  | [] => asked.getD .usage
  | a :: rest =>
    if a == "--" then asked.getD (behind rest)
    else if a == "--version" then readOptions behind (asked <|> some .version) rest
    else if a == "--help" then readOptions behind (asked <|> some .help) rest
    else if isOption a.toList then .usage
    else asked.getD (behind (a :: rest))

def readCommand (arguments : List String) : Request :=
  match arguments with
  | "check" :: rest => readCheck rest
  | "rules" :: rest => readRules rest
  | _ => readOptions (fun _ => .usage) none arguments

def Request.ofArguments (arguments : List String) : Request :=
  readOptions readCommand none arguments

end HouseStyle.Command
