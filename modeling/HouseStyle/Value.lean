/-
HouseStyle.Value — the values of a configuration.

A configuration holds nothing but null, truth values, numbers, strings, lists and objects. Whole
numbers and numbers with a fraction are different things, also when they are equal, and an object
keeps its fields in the order in which they were first given. Strings and keys are rows of code
points, because a configuration can spell strings that are no texts.

Messages show values in quotes and brackets (`Value.quoted`); a value that stands for a name is
taken by its bare text (`Value.name`).
-/
import HouseStyle.Decimal.Shortest
import HouseStyle.Text.CodePoint

namespace HouseStyle

/-- A value of a configuration. -/
inductive Value where
  | null
  | bool (b : Bool)
  | int (n : Int)
  | real (x : Binary64)
  | string (s : Points)
  | list (items : List Value)
  | object (fields : List (Points × Value))
  deriving Inhabited, Repr

namespace Value

abbrev Fields := List (Points × Value)

def ofString (s : String) : Value := .string (.ofString s)

/-- An object whose keys are texts. -/
def ofFields (fields : List (String × Value)) : Value :=
  .object (fields.map fun f => (.ofString f.1, f.2))

/-- Set a field: in its old place if the object has it, at the end otherwise. -/
def put (fields : Fields) (key : Points) (value : Value) : Fields :=
  if fields.any (·.1 == key) then
    fields.map fun f => if f.1 == key then (key, value) else f
  else fields ++ [(key, value)]

def field? (fields : Fields) (key : Points) : Option Value := fields.lookup key

/-- Numbers in messages: no exponent for points from the third place in front of the first digit to
the sixteenth behind it. -/
def messageStyle : DecimalStyle := ⟨"nan", "inf", -3, 16⟩

mutual

/-- The value as messages show it. -/
def quoted : Value → Text
  | .null => "None".toList
  | .bool b => (if b then "True" else "False").toList
  | .int n => (toString n).toList
  | .real x => messageStyle.write x
  | .string s => s.quoted
  | .list items => '[' :: (List.intercalate [',', ' '] (quotedItems items) ++ [']'])
  | .object fields => '{' :: (List.intercalate [',', ' '] (quotedFields fields) ++ ['}'])

def quotedItems : List Value → List Text
  | [] => []
  | v :: rest => quoted v :: quotedItems rest

def quotedFields : Fields → List Text
  | [] => []
  | (key, v) :: rest => (key.quoted ++ ':' :: ' ' :: quoted v) :: quotedFields rest

end

/-- The name that a value stands for where one is wanted. -/
def name : Value → Points
  | .string s => s
  | v => .ofText (quoted v)

/-- The members of a value that stands for several: the items of a list, the keys of an object. -/
def members? : Value → Option (List Value)
  | .list items => some items
  | .object fields => some (fields.map fun f => .string f.1)
  | _ => none

end Value

end HouseStyle
