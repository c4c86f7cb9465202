/-
HouseStyle.Selector — one entry of a selector list.

A selector is a row of compounds with a combinator between any two. A compound is a run of simple
selectors: at most one element in front (a type, `*`, a placeholder, a percentage, or a parent
reference `&` with the suffix that is glued onto the parent), then classes, identifiers, attributes
and pseudo-classes.
-/
import HouseStyle.Text

namespace HouseStyle

namespace Selector

/-- An attribute selector. Parts that are not there are empty; `quote` is the quote around the
value. -/
structure Attribute where
  name : Text
  operator : Text := []
  value : Text := []
  quote : Text := []
  flag : Text := []
  deriving DecidableEq, Repr

/-- A run of simple selectors, each without its sigil, in the order of the source. -/
structure Compound where
  element : Text := []
  classes : List Text := []
  ids : List Text := []
  attributes : List Attribute := []
  pseudoClasses : List Text := []
  pseudoElements : List Text := []
  deriving DecidableEq, Repr

/-- The compound stands for the selector of the enclosing block. -/
def Compound.isParentReference (c : Compound) : Bool := c.element.head? == some '&'

def Compound.parentSuffix (c : Compound) : Text :=
  if c.isParentReference then c.element.tail else []

/-- How two compounds are related. -/
inductive Combinator where
  | child
  | nextSibling
  | subsequentSibling
  | descendant
  deriving DecidableEq, Repr

def Combinator.sign : Combinator → String
  | .child => ">"
  | .nextSibling => "+"
  | .subsequentSibling => "~"
  | .descendant => " "

/-- The structure of a selector: compounds and the combinators between them. -/
structure Structure where
  compounds : List Compound
  combinators : List Combinator := []
  deriving DecidableEq, Repr

end Selector

/-- A selector with its text and the place of its first character. -/
structure Selector where
  text : Text
  line : Nat
  column : Nat
  parts : Selector.Structure
  deriving DecidableEq, Repr

namespace Selector

def compounds (s : Selector) : List Compound := s.parts.compounds

def classNames (s : Selector) : List Text := s.compounds.flatMap Compound.classes

def startsWithParent (s : Selector) : Bool :=
  match s.compounds with
  | [] => false
  | c :: _ => c.isParentReference

end Selector

end HouseStyle
