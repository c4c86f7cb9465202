/-
HouseStyle.Rule.DeclarationOrder — the order of the declarations of a ruleset.

Groups of properties come in order, names within a group too, and a blank line stands between two
groups and nowhere else. Variables do not count, and rulesets inside at-rule blocks are not looked
at. Each rule judges one declaration by the one before it.
-/
import HouseStyle.PropertyGroup
import HouseStyle.Rule.Finding
import HouseStyle.Text.Lines

namespace HouseStyle

namespace DeclarationOrder

def group (d : Declaration) : PropertyGroup := propertyGroup d.name

/-- The name by which a declaration is sorted. -/
def sortKey (d : Declaration) : Text := stripVendor d.name

/-- The declarations that are in order or not, ruleset by ruleset. -/
def ordered (s : Stylesheet) : List (List Declaration) :=
  (s.rulesets.filter fun r => !r.inAtRule).map fun r =>
    r.declarations.filter fun d => !d.isVariable

def neighbours (ds : List Declaration) : List (Declaration × Declaration) := ds.zip ds.tail

def pairs (s : Stylesheet) : List (Declaration × Declaration) := (ordered s).flatMap neighbours

def shown (d : Declaration) : String := d.property.shown

/-! ## 1. Groups -/

/-- The later declaration belongs to an earlier group. -/
def groupsDescend (previous current : Declaration) : Bool :=
  (group current).ordinal < (group previous).ordinal

/-- Groups come in order. -/
def checkGroups (s : Stylesheet) (_ : Options) : List Diagnostic :=
  ((pairs s).filter fun (p, c) => groupsDescend p c).map fun (p, c) =>
    s.finding .declarationGroupOutOfOrder c.line c.column
      (s!"'{shown p}' ({(group p).label}) appears before '{shown c}' ({(group c).label}); " ++
        s!"{(group c).label} declarations come first.")
      (some s!"Move '{shown c}' above '{shown p}'.")

/-! ## 2. Names -/

/-- The later declaration is of the same group and has an earlier name. -/
def namesDescend (previous current : Declaration) : Bool :=
  group previous = group current && decide (sortKey current < sortKey previous)

/-- Names within a group come in order. -/
def checkNames (s : Stylesheet) (_ : Options) : List Diagnostic :=
  ((pairs s).filter fun (p, c) => namesDescend p c).map fun (p, c) =>
    s.finding .declarationNotAlphabetical c.line c.column
      s!"'{shown c}' should come before '{shown p}' (alphabetical order within a group)."
      (some s!"Move '{shown c}' above '{shown p}'.")

/-! ## 3. Blank lines -/

/-- What is wrong with the blank lines between two declarations, given the lines of the text.
Declarations with more than blanks on a line between them are not judged. -/
def separationFinding? (s : Stylesheet) (lines : List Text) (p c : Declaration) :
    Option Diagnostic :=
  let blank := Lines.blankBetween lines p.endLine c.line
  if Lines.contentBetween lines p.endLine c.line then none
  else if group p = group c then
    if blank = 0 then none
    else
      some <| s.finding .unexpectedBlankLineWithinGroup c.line c.column
        s!"Blank line inside the {(group c).label} group between '{shown p}' and '{shown c}'."
        (some s!"Remove the blank line before '{shown c}'.")
  else if blank = 0 then
    some <| s.finding .missingGroupSeparator c.line c.column
      (s!"Missing blank line between the {(group p).label} group ('{shown p}') " ++
        s!"and the {(group c).label} group ('{shown c}').")
      (some s!"Insert a blank line before '{shown c}'.")
  else none

/-- A blank line stands between groups and not inside them. -/
def checkSeparation (s : Stylesheet) (_ : Options) : List Diagnostic :=
  let lines := s.lines
  (pairs s).filterMap fun (p, c) => separationFinding? s lines p c

end DeclarationOrder

end HouseStyle
