/-
HouseStyle.Selector.Attribute — the parts of an attribute selector.

`[name op value flag]`: the name runs up to a blank or to one of the characters of an operator; the
value is quoted, or is a run without blanks and brackets; a letter for case sensitivity may follow.
What does not fit is taken as a name.
-/
import HouseStyle.Selector
import HouseStyle.Text.Quoted

namespace HouseStyle.Selector

def isAttributeNamePart (c : Char) : Bool := !isBlank c && !("~|^$*=]".toList.contains c)

def closes (t : Text) : Bool := t == [']']

/-- What may follow a value: a flag with blanks around it, then the closing bracket. -/
def readFlag? (t : Text) : Option Text :=
  match t.dropWhile isBlank with
  | [] => none
  | c :: rest =>
    if closes (c :: rest) then some []
    else if "iIsS".toList.contains c && closes (rest.dropWhile isBlank) then some [c]
    else none

/-- A value in quotes, with its quotes, and the flag. -/
def readQuotedValue? (t : Text) : Option (Text × Text) :=
  match t with
  | [] => none
  | c :: rest =>
    if c == Text.doubleQuote || c == Text.singleQuote then
      match rest.dropWhile (· != c) with
      | [] => none
      | q :: more => (readFlag? more).map fun flag => (c :: (rest.takeWhile (· != c) ++ [q]), flag)
    else none

def isBareValuePart (c : Char) : Bool := !isBlank c && c != ']'

/-- A value that is a run without blanks and brackets, and the flag. -/
def readBareValue? (t : Text) : Option (Text × Text) :=
  let value := t.takeWhile isBareValuePart
  if value.isEmpty then none
  else (readFlag? (t.dropWhile isBareValuePart)).map fun flag => (value, flag)

/-- The operator in front of a value. -/
def readOperator? (t : Text) : Option (Text × Text) :=
  match t with
  | '=' :: rest => some (['='], rest)
  | c :: '=' :: rest => if "~|^$*".toList.contains c then some ([c, '='], rest) else none
  | _ => none

/-- Take the quotes off a value that starts with one. -/
def Attribute.ofValue (name operator value flag : Text) : Attribute :=
  match value with
  | [] => { name, operator, flag }
  | c :: rest =>
    if c == Text.doubleQuote || c == Text.singleQuote then
      { name, operator, value := rest.dropLast, quote := [c], flag }
    else { name, operator, value, flag }

/-- The parts behind the opening bracket, if they fit. -/
def readAttribute? (t : Text) : Option Attribute :=
  let start := t.dropWhile isBlank
  let name := start.takeWhile isAttributeNamePart
  let rest := (start.dropWhile isAttributeNamePart).dropWhile isBlank
  if name.isEmpty then none
  else if closes rest then some { name }
  else
    match readOperator? rest with
    | none => none
    | some (operator, behind) =>
      let text := behind.dropWhile isBlank
      match readQuotedValue? text with
      | some (value, flag) => some (.ofValue name operator value flag)
      | none =>
        match readBareValue? text with
        | some (value, flag) => some (.ofValue name operator value flag)
        | none => none

def Attribute.ofText (t : Text) : Attribute :=
  match readAttribute? t.tail with
  | some a => a
  | none => { name := Text.trim t.tail.dropLast }

end HouseStyle.Selector
