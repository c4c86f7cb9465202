/-
HouseStyle.Text.Capitals — reading a name in capitals.

Rule constants and severities are written in ASCII capitals and may be given in any case. A given
name is put into capitals letter by letter; only letters whose capital form is ASCII can take part
in a match, and those are the ASCII letters, the dotless i, the long s, the sharp s and the Latin
ligatures.
-/
import HouseStyle.Text

namespace HouseStyle

/-- The capital form of a letter beyond ASCII, where that form is ASCII. -/
def asciiCapitals : List (Nat × Text) :=
  [(0xDF, ['S', 'S']), (0x131, ['I']), (0x17F, ['S']), (0xFB00, ['F', 'F']), (0xFB01, ['F', 'I']),
   (0xFB02, ['F', 'L']), (0xFB03, ['F', 'F', 'I']), (0xFB04, ['F', 'F', 'L']),
   (0xFB05, ['S', 'T']), (0xFB06, ['S', 'T'])]

/-- The capital form of a character; a character beyond ASCII without an ASCII capital form stays
as it is, and is then no part of any ASCII name. -/
def capitalChar (c : Char) : Text :=
  if c.toNat < 128 then [c.toUpper] else (asciiCapitals.lookup c.toNat).getD [c]

/-- The text, put into capitals, is this ASCII name. -/
def capitalsAre (name : String) (t : Text) : Bool := t.flatMap capitalChar == name.toList

end HouseStyle
