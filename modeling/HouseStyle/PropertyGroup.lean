/-
HouseStyle.PropertyGroup — the groups in which declarations are written.

Declarations come in five groups, in this order: layout, box, background, typographical, and all
others. A property belongs to a group by its name, or by the family that its name starts with. One
vendor prefix does not count, nor does case.
-/
import HouseStyle.Text.Lowercase

namespace HouseStyle

/-- A group of declarations. -/
inductive PropertyGroup where
  | layout
  | box
  | background
  | typographical
  | other
  deriving DecidableEq, Repr

namespace PropertyGroup

def ordinal : PropertyGroup → Nat
  | .layout => 0
  | .box => 1
  | .background => 2
  | .typographical => 3
  | .other => 4

def label : PropertyGroup → String
  | .layout => "Layout"
  | .box => "Box"
  | .background => "Background"
  | .typographical => "Typographical"
  | .other => "Other"

def members : PropertyGroup → List String
  | .layout =>
    ["display", "position", "top", "right", "bottom", "left", "inset", "z-index", "float",
     "clear", "visibility", "order", "align-content", "align-items", "align-self",
     "justify-content", "justify-items", "justify-self", "place-content", "place-items",
     "place-self", "gap", "row-gap", "column-gap", "columns", "column-count", "column-width"]
  | .box =>
    ["width", "min-width", "max-width", "height", "min-height", "max-height", "box-sizing",
     "outline", "outline-offset", "aspect-ratio"]
  | .background =>
    ["box-shadow", "opacity"]
  | .typographical =>
    ["color", "line-height", "letter-spacing", "word-spacing", "white-space", "word-break",
     "word-wrap", "overflow-wrap", "vertical-align", "hyphens", "direction"]
  | .other => []

/-- The families of properties of a group. A family holds the property of its own name and those
whose name goes on with a hyphen. -/
def families : PropertyGroup → List String
  | .layout => ["flex", "grid"]
  | .box => ["margin", "padding", "border", "overflow"]
  | .background => ["background"]
  | .typographical => ["font", "text"]
  | .other => []

def named : List PropertyGroup := [.layout, .box, .background, .typographical]

end PropertyGroup

/-- A name without its vendor prefix: `-webkit-box-sizing` is `box-sizing`. Names that start with
two hyphens have none. -/
def stripVendor (t : Text) : Text :=
  match t with
  | '-' :: rest =>
    if rest.head? == some '-' then t
    else
      match rest.dropWhile (· != '-') with
      | _ :: c :: more => c :: more
      | _ => t
  | _ => t

/-- The name of a property by which it is grouped and sorted. -/
def propertyKey (property : Text) : Text := stripVendor (lowercase property)

def inFamily (key : Text) (family : String) : Bool :=
  key == family.toList || (family.toList ++ ['-']).isPrefixOf key

/-- The group of a property: by name, else by family, else among the others. -/
def propertyGroup (property : Text) : PropertyGroup :=
  let key := propertyKey property
  match PropertyGroup.named.find? fun g => g.members.any (·.toList == key) with
  | some g => g
  | none => (PropertyGroup.named.find? fun g => g.families.any (inFamily key)).getD .other

end HouseStyle
