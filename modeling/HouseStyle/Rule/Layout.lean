/-
HouseStyle.Rule.Layout — lines, indentation and the end of a stylesheet.

No line is too long or ends in blanks, no tab is used, statements are indented by two spaces for
every open block, and the text ends with a line break and at most one blank line.

Indentation counts the braces in front of a line; it is not judged on lines that go on with a
statement, nor where a tab is used.
-/
import HouseStyle.Rule.Finding

namespace HouseStyle

namespace Layout

/-! ## 1. Lines -/

def numbered (lines : List Text) : List (Text × Nat) := lines.zipIdx 1

/-- No line is longer than allowed. -/
def checkLength (s : Stylesheet) (o : Options) : List Diagnostic :=
  ((numbered s.lines).filter fun (line, _) => o.maxLineLength < line.length).map
    fun (line, number) =>
      s.finding .lineTooLong number (o.maxLineLength + 1)
        s!"Line is {line.length} characters long (maximum {o.maxLineLength})." none

/-- Blanks that must not stand at the end of a line. -/
def isTrailing (c : Char) : Bool := c == ' ' || c == '\t' || c == '\x0c'

/-- No line ends in blanks. -/
def checkTrailing (s : Stylesheet) (_ : Options) : List Diagnostic :=
  (numbered s.lines).filterMap fun (line, number) =>
    let kept := Text.dropEndWhile isTrailing line
    if kept = line then none
    else
      some <| s.finding .trailingWhitespace number (kept.length + 1) "Trailing whitespace."
        (some "Remove the whitespace at the end of the line.")

/-- No blank is a tab. -/
def checkTabs (s : Stylesheet) (_ : Options) : List Diagnostic :=
  (s.tokens.filter fun t => t.kind == .whitespace && t.lexeme.contains '\t').map fun t =>
    s.finding .tabCharacterUsed t.line
      (t.column + (t.lexeme.takeWhile (· != '\t')).length)
      "Tab character used; indent with spaces."
      (some s!"Replace tabs with {indentWidth} spaces per level.")

/-! ## 2. Indentation -/

/-- The places where a node, a selector, a declaration or a comment starts. -/
def statementStarts (s : Stylesheet) : List (Nat × Nat) :=
  s.nodes.flatMap (fun n => (n.line, n.column) :: n.selectors.map fun x => (x.line, x.column)) ++
    s.allDeclarations.map (fun d => (d.line, d.column)) ++
    s.comments.map fun c => (c.line, c.column)

/-- The indentation that is expected in front of a token with `depth` blocks open. -/
def expectedIndent (depth : Nat) (t : Token) : Nat :=
  indentWidth * if t.kind = .rightBrace then depth - 1 else depth

/-- The first token of a line is judged: a brace, or the start of a statement. -/
def isJudged (starts : List (Nat × Nat)) (t : Token) : Bool :=
  t.kind == .rightBrace || t.kind == .leftBrace || starts.contains (t.line, t.column)

def isMisplaced (starts : List (Nat × Nat)) (depth : Nat) (indent : Text) (t : Token) : Bool :=
  isJudged starts t && !indent.contains '\t' &&
    indent != List.replicate (expectedIndent depth t) ' '

/-- The number of open blocks behind a token. -/
def depthAfter (depth : Nat) (t : Token) : Nat :=
  match t.kind with
  | .leftBrace => depth + 1
  | .rightBrace => depth - 1
  | _ => depth

/-- Where the indentation is wrong: the token, the spaces expected and those found. `lead` is the
indentation of the line as long as nothing else stands on it. -/
def misplacedFrom (starts : List (Nat × Nat)) (depth : Nat) (lead : Option Text) :
    List Token → List (Token × Nat × Nat)
  | [] => []
  | t :: rest =>
    if t.kind = .newline then misplacedFrom starts depth (some []) rest
    else
      match lead with
      | none => misplacedFrom starts (depthAfter depth t) none rest
      | some indent =>
        if t.kind = .whitespace then misplacedFrom starts depth (some t.lexeme) rest
        else
          let more := misplacedFrom starts (depthAfter depth t) none rest
          if isMisplaced starts depth indent t then
            (t, expectedIndent depth t, indent.length) :: more
          else more

/-- Statements are indented by two spaces for every open block. -/
def checkIndentation (s : Stylesheet) (_ : Options) : List Diagnostic :=
  (misplacedFrom (statementStarts s) 0 (some []) s.tokens).map fun (t, expected, found) =>
    s.finding .indentationMismatch t.line 1
      s!"Expected indentation of {expected} spaces, found {found}."
      (some s!"Indent with {expected} spaces.")

/-! ## 3. The end of the text -/

/-- The text ends with a line break and at most one blank line; a blank text is in order. -/
def checkEnd (s : Stylesheet) (_ : Options) : List Diagnostic :=
  let text := s.text
  let content := Text.trimEnd text
  if content.isEmpty then []
  else if text.getLast? ≠ some '\n' then
    let lines := s.lines
    [s.finding .fileEndWhitespace lines.length ((lines.getLastD []).length + 1)
      "File must end with a newline." (some "Add a newline at the end of the file.")]
  else
    let breaks := Text.lineFeeds (text.drop content.length)
    if breaks ≤ 2 then []
    else
      [s.finding .fileEndWhitespace (content.lineFeeds + 3) 1
        s!"File ends with {breaks - 1} blank lines (at most one allowed)."
        (some "Remove the extra blank lines at the end of the file.")]

end Layout

end HouseStyle
