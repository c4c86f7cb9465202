/-
HouseStyle.Selector.Terminal — the smallest pieces of a selector.

A terminal is read from the front of a text, as far as it goes. Which terminals may come depends
only on whether a compound has begun: in front of a compound any simple selector may come, and
behind a simple selector any but an element, or a combinator. At most one terminal of each of the
two groups can be read from a text, apart from the space, which is a combinator of its own only if
it does not belong to another one.
-/
import HouseStyle.Selector
import HouseStyle.Text.Digit
import HouseStyle.Text.Quoted

namespace HouseStyle.Selector

/-- The kinds of pieces. -/
inductive Terminal where
  | typeName
  | universal
  | parentRef
  | placeholder
  | percentage
  | className
  | id
  | attribute
  | pseudoElement
  | pseudoClass
  | combinator (c : Combinator)
  deriving DecidableEq, Repr

/-- A piece of a selector. -/
structure Piece where
  terminal : Terminal
  text : Text
  deriving DecidableEq, Repr

/-! ## 1. Names -/

/-- A letter or an underscore, with which names start. -/
def isNameStart (c : Char) : Bool := c.isAlpha || c == '_'

/-- A letter, a digit, an underscore or a hyphen, with which names go on. -/
def isNamePart (c : Char) : Bool := c.isAlphanum || c == '_' || c == '-'

/-- The length of a name whose first character satisfies `start` and may follow one hyphen. -/
def nameLength? (start : Char → Bool) (t : Text) : Option Nat :=
  match t with
  | [] => none
  | c :: rest =>
    if start c then some (1 + (rest.takeWhile isNamePart).length)
    else if c == '-' then
      match rest with
      | [] => none
      | d :: more => if start d then some (2 + (more.takeWhile isNamePart).length) else none
    else none

/-! ## 2. Attributes and arguments -/

/-- Length up to and with the bracket that closes an attribute; brackets between quotes do not
count. The second argument is the quote that is open. -/
def attributeLength? : Option Char → Text → Option Nat
  | _, [] => none
  | some quote, c :: rest =>
    (attributeLength? (if c == quote then none else some quote) rest).map (· + 1)
  | none, c :: rest =>
    if c == ']' then some 1
    else if c == Text.doubleQuote || c == Text.singleQuote then
      (attributeLength? (some c) rest).map (· + 1)
    else (attributeLength? none rest).map (· + 1)

/-- Length up to and with the parenthesis that closes an argument; one more level of parentheses
may be open inside. -/
def argumentLength? (inner : Bool) : Text → Option Nat
  | [] => none
  | c :: rest =>
    if c == '(' then if inner then none else (argumentLength? true rest).map (· + 1)
    else if c == ')' then
      if inner then (argumentLength? false rest).map (· + 1) else some 1
    else (argumentLength? inner rest).map (· + 1)

def optionalArgument (t : Text) : Nat :=
  match t with
  | '(' :: rest =>
    match argumentLength? false rest with
    | some n => n + 1
    | none => 0
  | _ => 0

/-- Length of a pseudo-class behind its colon: a name and an argument if one can be read. -/
def pseudoLength? (t : Text) : Option Nat :=
  match nameLength? Char.isAlpha t with
  | some n => some (n + optionalArgument (t.drop n))
  | none => none

def percentageLength? (t : Text) : Option Nat :=
  let whole := t.takeWhile isDecimalDigit
  let rest := t.dropWhile isDecimalDigit
  if whole.isEmpty then none
  else
    match rest with
    | '%' :: _ => some (whole.length + 1)
    | '.' :: more =>
      let fraction := more.takeWhile isDecimalDigit
      match more.dropWhile isDecimalDigit with
      | '%' :: _ => if fraction.isEmpty then none else some (whole.length + fraction.length + 2)
      | _ => none
    | _ => none

/-! ## 3. One piece -/

/-- The terminal of an element, with its length. -/
def element? (t : Text) : Option (Terminal × Nat) :=
  match t with
  | [] => none
  | c :: rest =>
    if c == '*' then some (.universal, 1)
    else if c == '&' then some (.parentRef, 1 + (rest.takeWhile isNamePart).length)
    else if c == '%' then
      let n := (rest.takeWhile isNamePart).length
      if n = 0 then none else some (.placeholder, 1 + n)
    else
      match nameLength? isNameStart (c :: rest) with
      | some n => some (.typeName, n)
      | none => (percentageLength? (c :: rest)).map fun n => (.percentage, n)

/-- The terminal of a simple selector that is no element, with its length. -/
def simple? (t : Text) : Option (Terminal × Nat) :=
  match t with
  | [] => none
  | c :: rest =>
    if c == '.' then (nameLength? isNameStart rest).map fun n => (.className, n + 1)
    else if c == '#' then (nameLength? isNameStart rest).map fun n => (.id, n + 1)
    else if c == '[' then (attributeLength? none rest).map fun n => (.attribute, n + 1)
    else if c == ':' then
      match rest with
      | ':' :: more => (pseudoLength? more).map fun n => (.pseudoElement, n + 2)
      | _ => (pseudoLength? rest).map fun n => (.pseudoClass, n + 1)
    else none

def signCombinator? (c : Char) : Option Combinator :=
  match c with
  | '>' => some .child
  | '+' => some .nextSibling
  | '~' => some .subsequentSibling
  | _ => none

def spaceLength (t : Text) : Nat := if t.head? == some ' ' then 1 else 0

/-- The terminal of a combinator, with its length: a sign with at most one space on either side, or
a space. -/
def combinator? (t : Text) : Option (Terminal × Nat) :=
  let front := spaceLength t
  match t.drop front with
  | [] => if front = 0 then none else some (.combinator .descendant, 1)
  | c :: rest =>
    match signCombinator? c with
    | some sign => some (.combinator sign, front + 1 + spaceLength rest)
    | none => if front = 0 then none else some (.combinator .descendant, 1)

/-- The next terminal: in front of a compound or behind a simple selector. -/
def nextTerminal? (begun : Bool) (t : Text) : Option (Terminal × Nat) :=
  match simple? t with
  | some found => some found
  | none => if begun then combinator? t else element? t

/-- A compound has begun behind this terminal. -/
def Terminal.begins : Terminal → Bool
  | .combinator _ => false
  | _ => true

end HouseStyle.Selector
