/-
HouseStyle.Value.Json — reading and writing values as JSON.

The reader accepts the JSON grammar and the three words for numbers that are none (`NaN`,
`Infinity`, `-Infinity`). A field that is given twice keeps its first place and its last value.
Control characters in strings must be escaped. Nothing may follow the value but blanks. Whole
numbers have at most `maxDigits` digits, and lists and objects are at most `maxDepth` levels inside
each other; of several faults the one that comes first in the text is reported.

The writer puts every item and field on a line of its own, indented by two spaces per level, and
escapes everything beyond visible ASCII.
-/
import HouseStyle.Value
import HouseStyle.Text.Digit

namespace HouseStyle.Value

/-! ## 1. Reading -/

/-- Why a text is not read. -/
inductive JsonError where
  | malformed
  | tooManyDigits
  | tooDeep
  deriving DecidableEq, Repr

def JsonError.message : JsonError → String
  | .malformed => "not a JSON text"
  | .tooManyDigits => "a number has too many digits"
  | .tooDeep => "lists and objects are nested too deeply"

/-- The most digits of a whole number. -/
def maxDigits : Nat := 4300

/-- The most lists and objects inside each other. -/
def maxDepth : Nat := 985

def isJsonBlank (c : Char) : Bool := c == ' ' || c == '\t' || c == '\n' || c == '\r'

def skipBlanks (t : Text) : Text := t.dropWhile isJsonBlank

def hexValue? (c : Char) : Option Nat :=
  if '0' ≤ c && c ≤ '9' then some (c.toNat - 48)
  else if 'a' ≤ c && c ≤ 'f' then some (c.toNat - 87)
  else if 'A' ≤ c && c ≤ 'F' then some (c.toNat - 55)
  else none

/-- A code unit written with four hexadecimal digits. -/
def readUnit? : Text → Option (Nat × Text)
  | a :: b :: c :: d :: rest => do
    let a ← hexValue? a
    let b ← hexValue? b
    let c ← hexValue? c
    let d ← hexValue? d
    pure (((a * 16 + b) * 16 + c) * 16 + d, rest)
  | _ => none

/-- The second half of a surrogate pair, when it follows. -/
def readLowHalf? : Text → Option (Nat × Text)
  | '\\' :: 'u' :: rest =>
    match readUnit? rest with
    | some (n, more) => if 0xDC00 ≤ n && n ≤ 0xDFFF then some (n, more) else none
    | none => none
  | _ => none

/-- The code point of an escape behind its `\u`: a pair of halves is one character, and a half that
stands alone is kept. -/
def readEscapedUnit? (t : Text) : Option (CodePoint × Text) :=
  match readUnit? t with
  | none => none
  | some (n, rest) =>
    if 0xD800 ≤ n && n ≤ 0xDBFF then
      match readLowHalf? rest with
      | some (low, more) =>
        some (.char (Char.ofNat (0x10000 + (n - 0xD800) * 0x400 + (low - 0xDC00))), more)
      | none => some (.ofUnit n, rest)
    else some (.ofUnit n, rest)

/-- The character of a one-letter escape. -/
def shortEscape? (c : Char) : Option Char :=
  match c with
  | '"' => some '"'
  | '\\' => some '\\'
  | '/' => some '/'
  | 'b' => some (Char.ofNat 8)
  | 'f' => some (Char.ofNat 12)
  | 'n' => some '\n'
  | 'r' => some '\r'
  | 't' => some '\t'
  | _ => none

/-- The rest of a string behind its opening quote. -/
def readString? : Nat → Text → Option (Points × Text)
  | 0, _ => none
  | _ + 1, [] => none
  | fuel + 1, c :: rest =>
    if c == '"' then some ([], rest)
    else if c == '\\' then
      match rest with
      | [] => none
      | e :: more =>
        if e == 'u' then
          match readEscapedUnit? more with
          | some (d, more) => (readString? fuel more).map fun (s, left) => (d :: s, left)
          | none => none
        else
          match shortEscape? e with
          | some d => (readString? fuel more).map fun (s, left) => (.char d :: s, left)
          | none => none
    else if c.toNat < 32 then none
    else (readString? fuel rest).map fun (s, left) => (.char c :: s, left)

def digitRun (t : Text) : Text × Text := (t.takeWhile Char.isDigit, t.dropWhile Char.isDigit)

/-- The digits behind a point, if a point with digits behind it follows. -/
def readFraction (t : Text) : Text × Text :=
  match t with
  | '.' :: rest => if (digitRun rest).1.isEmpty then ([], t) else digitRun rest
  | _ => ([], t)

/-- The exponent, if one follows. -/
def readExponent (t : Text) : Option Int × Text :=
  match t with
  | [] => (none, [])
  | e :: rest =>
    if e == 'e' || e == 'E' then
      let (negative, digits) : Bool × Text :=
        match rest with
        | '-' :: more => (true, more)
        | '+' :: more => (false, more)
        | _ => (false, rest)
      if (digitRun digits).1.isEmpty then (none, t)
      else
        let n : Int := decimalValue (digitRun digits).1
        (some (if negative then -n else n), (digitRun digits).2)
    else (none, t)

/-- A number behind its sign: no leading zero, and a real as soon as there is a fraction or an
exponent. Whole numbers have a limited number of digits. -/
def readNumber (negative : Bool) (t : Text) : Except JsonError (Value × Text) :=
  let (whole, rest) : Text × Text :=
    match t with
    | '0' :: more => (['0'], more)
    | _ => digitRun t
  if whole.isEmpty then .error .malformed
  else
    let (fraction, rest) := readFraction rest
    let (exponent, rest) := readExponent rest
    if fraction.isEmpty && exponent.isNone then
      if maxDigits < whole.length then .error .tooManyDigits
      else
        let n : Int := decimalValue whole
        .ok (.int (if negative then -n else n), rest)
    else
      let digits := decimalValue (whole ++ fraction)
      .ok (.real (.ofDecimal negative digits (exponent.getD 0 - fraction.length)), rest)

/-- The words of JSON, with the three for numbers that are none. -/
def jsonWords : List (Text × Value) :=
  [("null".toList, .null), ("true".toList, .bool true), ("false".toList, .bool false),
   ("NaN".toList, .real .nan), ("Infinity".toList, .real (.infinite false)),
   ("-Infinity".toList, .real (.infinite true))]

def readWord? (t : Text) : Option (Value × Text) :=
  jsonWords.findSome? fun (word, v) =>
    if word.isPrefixOf t then some (v, t.drop word.length) else none

def readScalar (t : Text) : Except JsonError (Value × Text) :=
  match readWord? t with
  | some found => .ok found
  | none =>
    match t with
    | '-' :: rest => readNumber true rest
    | _ => readNumber false t

def readString (t : Text) : Except JsonError (Points × Text) :=
  match readString? (t.length + 1) t with
  | some found => .ok found
  | none => .error .malformed

mutual

/-- A value; `fuel` bounds the number of reading steps, `depth` the lists and objects inside each
other. -/
def readValue : Nat → Nat → Text → Except JsonError (Value × Text)
  | 0, _, _ => .error .malformed
  | _ + 1, _, [] => .error .malformed
  | fuel + 1, depth, c :: rest =>
    if c == '"' then (readString rest).map fun (s, left) => (.string s, left)
    else if c == '[' then
      match depth, skipBlanks rest with
      | 0, _ => .error .tooDeep
      | _ + 1, ']' :: left => .ok (.list [], left)
      | depth + 1, items => (readItems fuel depth items).map fun (vs, left) => (.list vs, left)
    else if c == '{' then
      match depth, skipBlanks rest with
      | 0, _ => .error .tooDeep
      | _ + 1, '}' :: left => .ok (.object [], left)
      | depth + 1, fields =>
        (readFields fuel depth [] fields).map fun (fs, left) => (.object fs, left)
    else readScalar (c :: rest)

def readItems : Nat → Nat → Text → Except JsonError (List Value × Text)
  | 0, _, _ => .error .malformed
  | fuel + 1, depth, t => do
    let (v, rest) ← readValue fuel depth t
    match skipBlanks rest with
    | ',' :: more => do
      let (vs, left) ← readItems fuel depth (skipBlanks more)
      pure (v :: vs, left)
    | ']' :: left => pure ([v], left)
    | _ => .error .malformed

/-- The fields of an object behind those already read, and the closing brace. -/
def readFields : Nat → Nat → Fields → Text → Except JsonError (Fields × Text)
  | 0, _, _, _ => .error .malformed
  | fuel + 1, depth, before, t =>
    match t with
    | '"' :: key => do
      let (name, rest) ← readString key
      match skipBlanks rest with
      | ':' :: more => do
        let (v, rest) ← readValue fuel depth (skipBlanks more)
        let fields := put before name v
        match skipBlanks rest with
        | ',' :: more => readFields fuel depth fields (skipBlanks more)
        | '}' :: left => pure (fields, left)
        | _ => .error .malformed
      | _ => .error .malformed
    | _ => .error .malformed

end

def ofJson (t : Text) : Except JsonError Value := do
  let (v, rest) ← readValue (t.length + 1) maxDepth (skipBlanks t)
  if (skipBlanks rest).isEmpty then pure v else .error .malformed

/-! ## 2. Writing -/

/-- Numbers in JSON are written as in messages, but for the words of the numbers that are none. -/
def jsonStyle : DecimalStyle := { messageStyle with nan := "NaN", infinite := "Infinity" }

def unitEscape (n : Nat) : Text := '\\' :: 'u' :: hexDigits 4 n

def jsonChar (c : Char) : Text :=
  let n := c.toNat
  if c == '"' then ['\\', '"']
  else if c == '\\' then ['\\', '\\']
  else if c == '\n' then ['\\', 'n']
  else if c == '\r' then ['\\', 'r']
  else if c == '\t' then ['\\', 't']
  else if n == 8 then ['\\', 'b']
  else if n == 12 then ['\\', 'f']
  else if 32 ≤ n && n < 127 then [c]
  else if n < 0x10000 then unitEscape n
  else unitEscape (0xD800 + (n - 0x10000) / 0x400) ++ unitEscape (0xDC00 + (n - 0x10000) % 0x400)

def jsonPoint : CodePoint → Text
  | .char c => jsonChar c
  | .half offset => unitEscape (CodePoint.halfNumber offset)

def jsonString (s : Points) : Text := '"' :: (s.flatMap jsonPoint ++ ['"'])

def newLine (level : Nat) : Text := '\n' :: List.replicate (2 * level) ' '

/-- Entries between brackets, one to a line. -/
def bracketed (left right : Char) (level : Nat) (entries : List Text) : Text :=
  if entries.isEmpty then [left, right]
  else
    left :: (newLine (level + 1) ++ List.intercalate (',' :: newLine (level + 1)) entries ++
      newLine level ++ [right])

mutual

def jsonAt (level : Nat) : Value → Text
  | .null => "null".toList
  | .bool b => (if b then "true" else "false").toList
  | .int n => (toString n).toList
  | .real x => jsonStyle.write x
  | .string s => jsonString s
  | .list items => bracketed '[' ']' level (jsonItems (level + 1) items)
  | .object fields => bracketed '{' '}' level (jsonFields (level + 1) fields)

def jsonItems (level : Nat) : List Value → List Text
  | [] => []
  | v :: rest => jsonAt level v :: jsonItems level rest

def jsonFields (level : Nat) : Fields → List Text
  | [] => []
  | (key, v) :: rest =>
    (jsonString key ++ ':' :: ' ' :: jsonAt level v) :: jsonFields level rest

end

def toJson (v : Value) : Text := jsonAt 0 v

end HouseStyle.Value
