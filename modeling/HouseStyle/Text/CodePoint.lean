/-
HouseStyle.Text.CodePoint — strings that may be no texts.

A configuration can spell half of a surrogate pair without the other half. Such a string is no
text: no character stands for the half. It is kept as a row of code points, so that it is equal to
itself and to no text, and messages show the half by its number.
-/
import HouseStyle.Text.Quoted

namespace HouseStyle

/-- A character, or half of a surrogate pair that stands alone, counted from the first half. -/
inductive CodePoint where
  | char (c : Char)
  | half (offset : Fin 0x800)
  deriving DecidableEq, Repr

namespace CodePoint

def char? : CodePoint → Option Char
  | .char c => some c
  | .half _ => none

def firstHalf : Nat := 0xD800

def halfNumber (offset : Fin 0x800) : Nat := firstHalf + offset.val

/-- The code point of a number below 65536: a character unless it is a half. -/
def ofUnit (n : Nat) : CodePoint :=
  if h : firstHalf ≤ n ∧ n < firstHalf + 0x800 then .half ⟨n - firstHalf, by omega⟩
  else .char (Char.ofNat n)

/-- One code point of a quoted string that is enclosed by `quote`. -/
def escape (quote : Char) : CodePoint → Text
  | .char c => Text.escapeChar quote c
  | .half offset => '\\' :: 'u' :: hexDigits 4 (halfNumber offset)

end CodePoint

/-- A string of a configuration: a row of code points. -/
abbrev Points := List CodePoint

namespace Points

def ofText (t : Text) : Points := t.map .char

def ofString (s : String) : Points := ofText s.toList

def toText? (p : Points) : Option Text := p.mapM CodePoint.char?

def toString? (p : Points) : Option String := p.toText?.map Text.shown

/-- The string in quotes, as messages show it. -/
def quoted (p : Points) : Text :=
  let quote := Text.enclosingQuote (p.filterMap CodePoint.char?)
  quote :: (p.flatMap (CodePoint.escape quote) ++ [quote])

/-- A text is spelled by its code points. -/
@[simp] theorem toText?_ofText (t : Text) : (ofText t).toText? = some t := by
  induction t with
  | nil => rfl
  | cons c t ih =>
    unfold toText? ofText at ih ⊢
    simp [CodePoint.char?, ih]

end Points

end HouseStyle
