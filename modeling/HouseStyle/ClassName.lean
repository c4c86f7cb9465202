/-
HouseStyle.ClassName — the taxonomy of class names.

    Component        Upper
    SubComponent     Upper-lower
    Modifier         Upper--lower
    State            is-lower
    Helper           subject-lower
    HelperModifier   subject-lower--lower

`Upper` and `lower` are runs of ASCII letters and digits that start with a capital and with a small
letter, and a `subject` is a run of small letters and digits that starts with a small letter. All
patterns cover the whole name. A name that fits none of them is unclassified.
-/
import HouseStyle.Text

namespace HouseStyle

/-- A class name, taken apart. -/
inductive ClassName where
  | component (name : Text)
  | subComponent (base name : Text)
  | modifier (base name : Text)
  | state (name : Text)
  | helper (subject name : Text)
  | helperModifier (subject base name : Text)
  | unclassified (raw : Text)
  deriving DecidableEq, Repr

namespace ClassName

def raw : ClassName → Text
  | .component name => name
  | .subComponent base name => base ++ '-' :: name
  | .modifier base name => base ++ '-' :: '-' :: name
  | .state name => 'i' :: 's' :: '-' :: name
  | .helper subject name => subject ++ '-' :: name
  | .helperModifier subject base name => subject ++ '-' :: (base ++ '-' :: '-' :: name)
  | .unclassified raw => raw

/-- The parts of a name by the roles they play. Roles that a pattern does not have are empty. -/
structure Segments where
  component : Text := []
  subComponent : Text := []
  modifier : Text := []
  state : Text := []
  helperSubject : Text := []
  helper : Text := []
  deriving DecidableEq, Repr

/-- The parts of a name. -/
def segments : ClassName → Segments
  | .component name => { component := name }
  | .subComponent base name => { component := base, subComponent := name }
  | .modifier base name => { component := base, modifier := name }
  | .state name => { state := name }
  | .helper subject name => { helperSubject := subject, helper := name }
  | .helperModifier subject base name =>
    { helperSubject := subject, helper := base, modifier := name }
  | .unclassified _ => {}

def tag : ClassName → String
  | .component _ => "Component"
  | .subComponent _ _ => "SubComponent"
  | .modifier _ _ => "Modifier"
  | .state _ => "State"
  | .helper _ _ => "Helper"
  | .helperModifier _ _ _ => "HelperModifier"
  | .unclassified _ => "Unclassified"

def isClassified : ClassName → Bool
  | .unclassified _ => false
  | _ => true

/-! ## Reading a name -/

def isLowerOrDigit (c : Char) : Bool := c.isLower || c.isDigit

/-- A run that starts with a character of one class and goes on with characters of another, and
what follows it. -/
def segment? (head body : Char → Bool) (t : Text) : Option (Text × Text) :=
  match t with
  | [] => none
  | c :: rest => if head c then some (c :: rest.takeWhile body, rest.dropWhile body) else none

/-- The whole text is a small letter followed by letters and digits. -/
def lowerSegment? (t : Text) : Option Text :=
  match segment? Char.isLower Char.isAlphanum t with
  | some (name, []) => some name
  | _ => none

def classifyUpper (t : Text) : ClassName :=
  match segment? Char.isUpper Char.isAlphanum t with
  | none => .unclassified t
  | some (base, []) => .component base
  | some (base, '-' :: '-' :: rest) =>
    match lowerSegment? rest with
    | some name => .modifier base name
    | none => .unclassified t
  | some (base, '-' :: rest) =>
    match lowerSegment? rest with
    | some name => .subComponent base name
    | none => .unclassified t
  | some _ => .unclassified t

def classifyHelper (t : Text) : ClassName :=
  match segment? Char.isLower isLowerOrDigit t with
  | some (subject, '-' :: rest) =>
    match segment? Char.isLower Char.isAlphanum rest with
    | some (base, []) => .helper subject base
    | some (base, '-' :: '-' :: more) =>
      match lowerSegment? more with
      | some name => .helperModifier subject base name
      | none => .unclassified t
    | _ => .unclassified t
  | _ => .unclassified t

/-- The pattern of a name that starts with a small letter: a state wins over a helper. -/
def classifyLower (t : Text) : ClassName :=
  match t with
  | 'i' :: 's' :: '-' :: rest =>
    match lowerSegment? rest with
    | some name => .state name
    | none => classifyHelper t
  | _ => classifyHelper t

/-- The pattern of a name. -/
def classify (t : Text) : ClassName :=
  match t with
  | [] => .unclassified []
  | c :: _ =>
    if c.isUpper then classifyUpper t else if c.isLower then classifyLower t else .unclassified t

end ClassName

end HouseStyle
