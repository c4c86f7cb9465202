/-
HouseStyle.Selector.Reader — from the text of a selector to its structure.

A text is read piece by piece (`pieces`). It is rejected at the first place where no admissible
piece can be read, or for ending before its last compound has begun; the rejection names a column.
An accepted row of pieces is gathered into compounds and combinators (`gather`).

A selector of a stylesheet is built from its text with runs of blanks made one space. When that
text is rejected the selector keeps the class names that a plain search for dots finds.
-/
import HouseStyle.Selector.Attribute
import HouseStyle.Selector.Terminal
import HouseStyle.Token

namespace HouseStyle.Selector

/-- The text is no selector; the column is that of the first character that cannot be read, or of
the last piece of a text that ends too early. -/
structure Rejection where
  column : Nat
  deriving DecidableEq, Repr

/-! ## 1. Pieces -/

/-- The pieces of a text, at a given place; `last` is the column of the piece before and `begun`
says whether the compound has begun. -/
def piecesFrom (p : Position) (last : Nat) (begun : Bool) : Text → Except Rejection (List Piece)
  | [] => if begun then .ok [] else .error ⟨last⟩
  | c :: rest =>
    match nextTerminal? begun (c :: rest) with
    | none => .error ⟨p.column⟩
    | some (terminal, n) => do
      let text := c :: rest.take (n - 1)
      let more ← piecesFrom (p.after text) p.column terminal.begins (rest.drop (n - 1))
      pure (⟨terminal, text⟩ :: more)
termination_by t => t.length

def pieces (t : Text) : Except Rejection (List Piece) := piecesFrom {} 1 false t

/-! ## 2. Structure -/

/-- Put a simple selector in front of a compound that was gathered from what follows it. -/
def Compound.prepend (piece : Piece) (c : Compound) : Compound :=
  match piece.terminal with
  | .className => { c with classes := piece.text.tail :: c.classes }
  | .id => { c with ids := piece.text.tail :: c.ids }
  | .attribute => { c with attributes := .ofText piece.text :: c.attributes }
  | .pseudoClass => { c with pseudoClasses := piece.text.tail :: c.pseudoClasses }
  | .pseudoElement => { c with pseudoElements := piece.text.drop 2 :: c.pseudoElements }
  | _ => { c with element := piece.text }

def gather : List Piece → Compound × List (Combinator × Compound)
  | [] => ({}, [])
  | piece :: rest =>
    let (first, more) := gather rest
    match piece.terminal with
    | .combinator c => ({}, (c, first) :: more)
    | _ => (first.prepend piece, more)

def Structure.ofPieces (row : List Piece) : Structure :=
  let (first, more) := gather row
  ⟨first :: more.map (·.2), more.map (·.1)⟩

/-- The structure of a text, or the column at which it is rejected. -/
def Structure.ofText (t : Text) : Except Rejection Structure := do
  let row ← pieces t
  pure (.ofPieces row)

/-! ## 3. Selectors of a stylesheet -/

/-- The names that follow a dot, from left to right. -/
def looseClasses : Text → List Text
  | [] => []
  | c :: rest =>
    if c == '.' then
      match nameLength? isNameStart rest with
      | some n => rest.take n :: looseClasses (rest.drop n)
      | none => looseClasses rest
    else looseClasses rest
termination_by t => t.length

/-- The structure of a rejected text: one compound with the classes that can be found. -/
def Structure.loose (t : Text) : Structure := ⟨[{ classes := looseClasses t }], []⟩

/-- The selector of a text of a stylesheet that starts at a given place. -/
def build (raw : Text) (line column : Nat) : Selector :=
  let text := Text.squeeze raw
  let parts :=
    match Structure.ofText text with
    | .ok parts => parts
    | .error _ => .loose text
  ⟨text, line, column, parts⟩

end HouseStyle.Selector
