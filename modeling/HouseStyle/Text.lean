/-
HouseStyle.Text — texts as lists of characters.

Everything that is scanned (a stylesheet, a selector, a class name, a property) is a `Text`: the
list of its characters. Scanning is then recursion on the list, an offset is the length of what
stands before it, and every column counts characters. Texts become `String` only where they are
shown, in messages and in file names.

Whitespace is the set of `isBlank`, which is wider than what separates tokens: a no-break space is
a letter to the lexer and blank to `trim` and `words`.
-/

namespace HouseStyle

/-- A text is the list of its characters. -/
abbrev Text := List Char

/-- White space in the sense of trimming: the ASCII blanks and separators, next line, no-break
space, and the space and line separators of the general punctuation blocks. The zero-width space
and the byte order mark are not blank. -/
def isBlank (c : Char) : Bool :=
  let n := c.toNat
  (9 ≤ n && n ≤ 13) || (28 ≤ n && n ≤ 32) || n == 0x85 || n == 0xA0 || n == 0x1680 ||
    (0x2000 ≤ n && n ≤ 0x200A) || n == 0x2028 || n == 0x2029 || n == 0x202F || n == 0x205F ||
    n == 0x3000

def inRanges (table : List (Nat × Nat)) (n : Nat) : Bool :=
  table.any fun r => r.1 ≤ n && n ≤ r.2

namespace Text

/-! ## Cutting -/

/-- Drop the longest end of a list whose elements all satisfy `p`. This is `List.rdropWhile` of
Mathlib, on which nothing that runs depends; its lemmas apply. -/
def dropEndWhile {α : Type} (p : α → Bool) (l : List α) : List α :=
  (l.reverse.dropWhile p).reverse

def trimStart (t : Text) : Text := t.dropWhile isBlank

def trimEnd (t : Text) : Text := dropEndWhile isBlank t

def trim (t : Text) : Text := trimEnd (trimStart t)

/-- The maximal runs of characters that are not blank. -/
def words (t : Text) : List Text := (t.splitOnP isBlank).filter fun w => !w.isEmpty

/-- The words of a text with one space between any two. -/
def squeeze (t : Text) : Text := List.intercalate [' '] (words t)

/-- The lines of a text, cut at line feeds, each without its trailing carriage returns. -/
def lines (t : Text) : List Text :=
  (t.splitOnP (· == '\n')).map (dropEndWhile (· == '\r'))

def shown (t : Text) : String := String.ofList t

/-! ## Looking up -/

/-- Offset of the first place where `sought` stands in the text. -/
def offsetOf? (sought : Text) : Text → Option Nat
  | [] => if sought.isEmpty then some 0 else none
  | c :: rest =>
    if sought.isPrefixOf (c :: rest) then some 0 else (offsetOf? sought rest).map (· + 1)

def replaceChar (old : Char) (new : Text) (t : Text) : Text :=
  t.flatMap fun c => if c == old then new else [c]

def lineFeeds (t : Text) : Nat := t.count '\n'

end Text

end HouseStyle
