/-
HouseStyle.Rule.CommentShape — comments of several lines.

Such a comment opens and closes with lines of marker characters only, has a description on its
second line, and closes under its opening, or one column to the right if the closing line starts
with a star.
-/
import HouseStyle.Rule.Finding
import HouseStyle.Text.Lines

namespace HouseStyle

namespace CommentShape

/-- The text holds nothing but marker characters. -/
def isMarker (t : Text) : Bool := t.all fun c => "*=-#~_/ ".toList.contains c

/-- The description on a line, without stars in front of it. -/
def description (line : Text) : Text := Text.trim ((Text.trim line).dropWhile (· == '*'))

def closesWithMarker (closing : Text) : Bool :=
  ['*', '/'].isSuffixOf closing && isMarker (closing.take (closing.length - 2))

def isAligned (closing : Text) (column : Nat) : Bool :=
  let closingColumn := Lines.indent closing + 1
  closingColumn = column ||
    ((Text.trim closing).head? == some '*' && closingColumn = column + 1)

/-- What is wrong with a comment of these lines at a column. -/
def problem? (lines : List Text) (column : Nat) : Option String :=
  let opening := Text.trim (lines.headD [])
  let closing := lines.getLastD []
  if !isMarker (opening.drop 2) then
    some "Multi-line comment must open with a marker-only line ('/*' or '/**')."
  else if !closesWithMarker (Text.trim closing) then
    some "Multi-line comment must close with a marker-only line ('*/')."
  else if lines.length < 3 || (description (lines.getD 1 [])).isEmpty then
    some "Multi-line comment must start with a short description line."
  else if !isAligned closing column then
    some <| s!"Closing marker at column {Lines.indent closing + 1} is not aligned with the " ++
      s!"opening marker at column {column}."
  else none

/-- Comments of several lines have the shape of documentation. -/
def check (s : Stylesheet) (_ : Options) : List Diagnostic :=
  (s.comments.filter fun c => c.isBlock && c.text.contains '\n').filterMap fun c =>
    (problem? (Text.lines c.text) c.column).map fun message =>
      s.finding .commentAlignmentViolation c.line c.column message
        (some "Use '/**', a description line, then '*/' under the opening.")

end CommentShape

end HouseStyle
