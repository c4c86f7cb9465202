/-
HouseStyle.Stylesheet — a stylesheet with its blocks, declarations, comments and lines.

`Stylesheet.parse` has an answer for every row of tokens, together with the findings about what it
had to recover from. Nodes are referred to by number.
-/
import HouseStyle.Stylesheet.Nesting
import HouseStyle.Token.Stream

namespace HouseStyle

/-- A stylesheet: its name, its tokens, the forest of its blocks, the declarations outside all
blocks, and the comments between statements. -/
structure Stylesheet where
  file : String
  tokens : List Token
  forest : Forest
  declarations : List Declaration
  comments : List Comment
  /-- All nodes, in order of their numbers. -/
  nodes : List Node := forest.number {} 0
  nodes_eq : nodes = forest.number {} 0 := by rfl

namespace Stylesheet

/-! ## 1. Parsing -/

def lastLine (tokens : List Token) : Nat :=
  match tokens.getLast? with
  | some t => t.endLine
  | none => 1

/-- The stylesheet of a row of tokens, and what is wrong with it: strings and comments that are
never closed first, then what the walk over the statements found, then unclosed blocks. -/
def parse (file : String) (tokens : List Token) : Stylesheet × List Diagnostic :=
  let setting : Nesting.Setting := ⟨file, lastLine tokens⟩
  let s := (Nesting.walk setting (Statement.all tokens)).release false
  let top := Nesting.closeAll setting.lastLine s.level s.enclosing
  ({ file, tokens, forest := top.children, declarations := top.declarations
     comments := s.comments },
    Nesting.malformedFindings setting tokens ++ s.diagnostics ++
      Nesting.unclosedFindings setting s.enclosing)

def ofText (file : String) (text : Text) : Stylesheet × List Diagnostic :=
  parse file (tokenize text)

/-! ## 2. Nodes -/

def topLevel (s : Stylesheet) : List Nat := s.forest.roots 0

def rulesets (s : Stylesheet) : List Node := s.nodes.filter (·.isRuleset)

/-- The ruleset around a node, given all nodes in order of their numbers. -/
def parentAmong (nodes : List Node) (n : Node) : Option Node :=
  match n.scope.parent with
  | some index => nodes[index]?.filter (·.isRuleset)
  | none => none

def parentOf (s : Stylesheet) (n : Node) : Option Node := parentAmong s.nodes n

/-- The rows of siblings: the top level, then the children of every node that has some. -/
def siblingGroups (s : Stylesheet) : List (List Node) :=
  let nodes := s.nodes
  let pick (indices : List Nat) : List Node := indices.filterMap (nodes[·]?)
  pick s.topLevel :: (nodes.filter fun n => !n.children.isEmpty).map fun n => pick n.children

/-- All declarations: those outside all blocks, then those of each node. -/
def allDeclarations (s : Stylesheet) : List Declaration :=
  s.declarations ++ s.nodes.flatMap Node.declarations

/-! ## 3. Lines -/

def text (s : Stylesheet) : Text := Token.source s.tokens

def lines (s : Stylesheet) : List Text := Text.lines s.text

end Stylesheet

end HouseStyle
