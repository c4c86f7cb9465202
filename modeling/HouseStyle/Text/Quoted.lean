/-
HouseStyle.Text.Quoted — a text between quotes, on one line and readable.

Single quotes are used unless the text holds a single quote and no double quote. The quote in use
and the backslash get a backslash, tab and line ends have their short escapes, and every other
character that is not printable is written by its code point in the narrowest of three widths.
-/
import HouseStyle.Text.Printable

namespace HouseStyle

/-- The lowest `width` hexadecimal digits of a number, in lower case. -/
def hexDigits (width n : Nat) : Text :=
  (List.range width).reverse.map fun i => Nat.digitChar (n / Nat.pow 16 i % 16)

namespace Text

def singleQuote : Char := Char.ofNat 39

def doubleQuote : Char := Char.ofNat 34

def enclosingQuote (t : Text) : Char :=
  if t.contains singleQuote && !t.contains doubleQuote then doubleQuote else singleQuote

/-- One character of a quoted text that is enclosed by `quote`. -/
def escapeChar (quote c : Char) : Text :=
  let n := c.toNat
  if c == quote || c == '\\' then ['\\', c]
  else if c == '\t' then ['\\', 't']
  else if c == '\n' then ['\\', 'n']
  else if c == '\r' then ['\\', 'r']
  else if isPrintable c then [c]
  else if n < 0x100 then '\\' :: 'x' :: hexDigits 2 n
  else if n < 0x10000 then '\\' :: 'u' :: hexDigits 4 n
  else '\\' :: 'U' :: hexDigits 8 n

def quoted (t : Text) : Text :=
  let quote := enclosingQuote t
  quote :: (t.flatMap (escapeChar quote) ++ [quote])

end Text

/-- A string in quotes, as messages show it. -/
def quotedString (s : String) : String := String.ofList (Text.quoted s.toList)

end HouseStyle
