/-
HouseStyle.Stylesheet.Forest — blocks inside blocks.

Rulesets and at-rules form a forest. It is kept in the shape "first child, next sibling", so that
there is one case for each node and one for the end of a row of siblings.

Nodes are numbered in the order in which their statements begin, which is the order of the forest
read from the front, parents before children (`number`). Depth, enclosing ruleset and enclosing
at-rule of a node are what the walk down the forest has passed (`Scope`): a ruleset adds a level and
becomes the parent, an at-rule block does neither and becomes the at-rule.
-/
import HouseStyle.Declaration
import HouseStyle.Selector

namespace HouseStyle

/-- A comment between statements; attached when it documents the statement that follows. -/
structure Comment where
  token : Token
  attached : Bool := false
  deriving DecidableEq, Repr

namespace Comment

def isDoc (c : Comment) : Bool := c.token.kind = .docComment

/-- The comment has an end mark. -/
def isBlock (c : Comment) : Bool := ['/', '*'].isPrefixOf c.token.lexeme

def text (c : Comment) : Text := c.token.lexeme

def line (c : Comment) : Nat := c.token.line

def column (c : Comment) : Nat := c.token.column

def endLine (c : Comment) : Nat := c.token.endLine

end Comment

/-- What tells a ruleset from an at-rule: the selectors of the one, name and prelude of the
other. -/
inductive Shape where
  | ruleset (selectors : List Selector)
  | atRule (name : Text) (prelude : Span)
  deriving DecidableEq, Repr

/-- What stands in front of a block. -/
structure Heading where
  shape : Shape
  prelude : Text
  line : Nat
  column : Nat
  comment : Option Comment := none
  deriving DecidableEq, Repr

/-- A ruleset or an at-rule without what is nested in it. An at-rule may have no block, and the
block of a node may never be closed. -/
structure Block where
  heading : Heading
  openBrace : Option Token := none
  closeBrace : Option Token := none
  endLine : Nat
  declarations : List Declaration := []
  deriving DecidableEq, Repr

namespace Block

def isRuleset (b : Block) : Bool :=
  match b.heading.shape with
  | .ruleset _ => true
  | .atRule _ _ => false

def selectors (b : Block) : List Selector :=
  match b.heading.shape with
  | .ruleset selectors => selectors
  | .atRule _ _ => []

end Block

/-- A row of siblings with what is nested in them: the first node, its children, and the siblings
behind it. -/
inductive Forest where
  | nil
  | node (block : Block) (children : Forest) (siblings : Forest)
  deriving Repr

/-- What a node inherits: the number of enclosing rulesets, the nearest of them, and the nearest
enclosing at-rule. -/
structure Scope where
  depth : Nat := 0
  parent : Option Nat := none
  atRule : Option Nat := none
  deriving DecidableEq, Repr

/-- What the children of a node inherit. -/
def Scope.inside (s : Scope) (index : Nat) (b : Block) : Scope :=
  if b.isRuleset then { s with depth := s.depth + 1, parent := some index }
  else { s with atRule := some index }

/-- A numbered node with the numbers of its children. -/
structure Node where
  index : Nat
  block : Block
  scope : Scope
  children : List Nat
  deriving DecidableEq, Repr

namespace Forest

def size : Forest → Nat
  | nil => 0
  | node _ children siblings => 1 + children.size + siblings.size

def append : Forest → Forest → Forest
  | nil, g => g
  | node b children siblings, g => node b children (siblings.append g)

/-- The numbers of the siblings of a row whose first node has number `index`. -/
def roots (index : Nat) : Forest → List Nat
  | nil => []
  | node _ children siblings => index :: siblings.roots (index + 1 + children.size)

/-- The nodes of a row whose first node has number `index`, in order of their numbers. -/
def number (s : Scope) (index : Nat) : Forest → List Node
  | nil => []
  | node b children siblings =>
    ⟨index, b, s, children.roots (index + 1)⟩ ::
      (children.number (s.inside index b) (index + 1) ++
        siblings.number s (index + 1 + children.size))

end Forest

namespace Node

def isRuleset (n : Node) : Bool := n.block.isRuleset

def selectors (n : Node) : List Selector := n.block.selectors

/-- Line of the first selector, of the keyword, or of the brace if there is nothing else. -/
def line (n : Node) : Nat := n.block.heading.line

/-- Column that goes with `line`. -/
def column (n : Node) : Nat := n.block.heading.column

def comment (n : Node) : Option Comment := n.block.heading.comment

/-- Line of the closing brace, of the end of the statement, or of the end of the text. -/
def endLine (n : Node) : Nat := n.block.endLine

/-- First line of the node with its comment. -/
def startLine (n : Node) : Nat :=
  match n.comment with
  | some c => c.line
  | none => n.line

/-- The declarations directly inside the node. -/
def declarations (n : Node) : List Declaration := n.block.declarations

/-- The level of nesting as shown to users, counted from one. -/
def level (n : Node) : Nat := n.scope.depth + 1

/-- The node lies inside an at-rule block. -/
def inAtRule (n : Node) : Bool := n.scope.atRule.isSome

def hasBlock (n : Node) : Bool := n.block.openBrace.isSome

def atRule? (n : Node) : Option (Text × Span) :=
  match n.block.heading.shape with
  | .ruleset _ => none
  | .atRule name prelude => some (name, prelude)

end Node

end HouseStyle
