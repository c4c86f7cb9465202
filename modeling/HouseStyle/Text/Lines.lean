/-
HouseStyle.Text.Lines — asking about the lines of a text.

Lines are numbered from one. A line that does not exist is neither blank nor does it hold anything.
-/
import HouseStyle.Text

namespace HouseStyle.Lines

def line? (lines : List Text) (number : Nat) : Option Text :=
  if number = 0 then none else lines[number - 1]?

/-- The line exists and holds nothing but blanks. -/
def isBlankLine (lines : List Text) (number : Nat) : Bool :=
  match line? lines number with
  | some line => line.all isBlank
  | none => false

def between (lines : List Text) (first last : Nat) : List Text :=
  (lines.drop first).take (last - (first + 1))

/-- How many lines strictly between two others are blank. -/
def blankBetween (lines : List Text) (first last : Nat) : Nat :=
  (between lines first last).countP fun line => line.all isBlank

/-- Some line strictly between two others holds more than blanks. -/
def contentBetween (lines : List Text) (first last : Nat) : Bool :=
  (between lines first last).any fun line => !line.all isBlank

/-- How many blank lines stand directly above a line, down to but without line `floor`. -/
def blankAbove (lines : List Text) (floor : Nat) : Nat → Nat
  | 0 => 0
  | line + 1 =>
    if floor < line && isBlankLine lines line then 1 + blankAbove lines floor line else 0

def indent (line : Text) : Nat := (line.takeWhile isBlank).length

end HouseStyle.Lines
