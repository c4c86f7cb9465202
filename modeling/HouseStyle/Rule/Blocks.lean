/-
HouseStyle.Rule.Blocks — nesting, separation and braces of blocks.

Rulesets are nested no deeper than allowed, sibling blocks have one blank line between them, an
opening brace follows one space on the line of its selector, a closing brace stands under the start
of its selector's line, and every selector of a list has a line of its own.
-/
import HouseStyle.Rule.Finding
import HouseStyle.Text.Lines

namespace HouseStyle

namespace Blocks

/-! ## 1. Nesting -/

def isTooDeep (o : Options) (n : Node) : Bool := o.maxNestingDepth < n.level

/-- Rulesets are nested no deeper than allowed. -/
def checkDepth (s : Stylesheet) (o : Options) : List Diagnostic :=
  (s.rulesets.filter (isTooDeep o)).map fun n =>
    s.finding .excessiveNesting n.line n.column
      s!"Ruleset is nested at depth {n.level} (maximum {o.maxNestingDepth})."
      (some <| "Flatten it into a combinator selector, e.g. " ++
        "'.Parent-child > .Other' instead of nesting blocks.")

/-! ## 2. Separation -/

def isBlock (n : Node) : Bool := n.isRuleset || n.hasBlock

/-- The node is an `@else` that goes on with the block before it. -/
def continuesPrevious (n : Node) : Bool :=
  match n.atRule? with
  | some (name, _) => "else".toList.isPrefixOf name
  | none => false

def startColumn (n : Node) : Nat :=
  match n.comment with
  | some c => c.column
  | none => n.column

/-- What is wrong with the blank lines above a block that follows another. -/
def separationFinding? (s : Stylesheet) (lines : List Text) (previous current : Node) :
    Option Diagnostic :=
  let blanks := Lines.blankAbove lines previous.endLine current.startLine
  if blanks = 1 then none
  else
    some <| s.finding .rulesetSeparatorViolation current.startLine (startColumn current)
      s!"Expected exactly one blank line before this ruleset, found {blanks}."
      (some "Separate sibling rulesets with a single blank line.")

def siblingFindings (s : Stylesheet) (lines : List Text) (siblings : List Node) :
    List Diagnostic :=
  let blocks := siblings.filter isBlock
  (blocks.zip blocks.tail).filterMap fun (previous, current) =>
    if continuesPrevious current then none else separationFinding? s lines previous current

/-- Sibling blocks have one blank line between them. -/
def checkSeparation (s : Stylesheet) (_ : Options) : List Diagnostic :=
  let lines := s.lines
  s.siblingGroups.flatMap (siblingFindings s lines)

/-! ## 3. Braces -/

/-- What is wrong with the space in front of an opening brace. -/
def spacingProblem? (p : Place) : Option String :=
  let ownLine := "Opening brace must be on the same line as its selector."
  if p.token.kind ≠ .leftBrace then none
  else
    match p.before with
    | [] => none
    | space :: more =>
      if space.kind = .newline then some ownLine
      else if space.kind = .whitespace then
        match more with
        | [] => some ownLine
        | t :: _ =>
          if t.kind = .newline then some ownLine
          else if space.lexeme ≠ [' '] then some "Expected exactly one space before '\x7b'."
          else none
      else some "Missing space before '\x7b'."

/-- One space stands in front of every opening brace. -/
def checkSpacing (s : Stylesheet) (_ : Options) : List Diagnostic :=
  s.places.filterMap fun p =>
    (spacingProblem? p).map fun message =>
      s.finding .braceSpacing p.token.line p.token.column message
        (some "Write 'selector \x7b' with a single space.")

/-- What is wrong with the column of a closing brace. -/
def alignmentFinding? (s : Stylesheet) (lines : List Text) (n : Node) : Option Diagnostic :=
  match n.block.openBrace, n.block.closeBrace, Lines.line? lines n.line with
  | some opening, some closing, some line =>
    let expected := Lines.indent line + 1
    if closing.line = opening.line || closing.column = expected then none
    else
      some <| s.finding .closingBraceAlignment closing.line closing.column
        (s!"Closing brace at column {closing.column} should be at column {expected}, " ++
          s!"under the start of line {n.line}.")
        (some "Put '\x7d' on its own line, aligned with the selector.")
  | _, _, _ => none

/-- A block of several lines closes under the start of its selector's line. -/
def checkAlignment (s : Stylesheet) (_ : Options) : List Diagnostic :=
  let lines := s.lines
  s.nodes.filterMap (alignmentFinding? s lines)

/-! ## 4. Selector lists -/

/-- Every selector has a line of its own. -/
def checkSelectorLines (s : Stylesheet) (_ : Options) : List Diagnostic :=
  s.rulesets.flatMap fun r =>
    ((r.selectors.zip r.selectors.tail).filter fun (p, c) => c.line = p.line).map fun (p, c) =>
      s.finding .selectorNotOnOwnLine c.line c.column
        s!"Selector '{c.text.shown}' shares a line with '{p.text.shown}'."
        (some "Break the line after the comma.")

end Blocks

end HouseStyle
