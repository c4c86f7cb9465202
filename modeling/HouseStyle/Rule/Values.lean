/-
HouseStyle.Rule.Values — how values are written.

No space stands in front of a colon or comma and one behind it, colors are in lower case and as
short as can be, strings are in double quotes, and a length of zero has no unit outside the
functions that calculate.
-/
import HouseStyle.Decimal.Binary64
import HouseStyle.PropertyGroup
import HouseStyle.Rule.Finding
import HouseStyle.Text.Digit

namespace HouseStyle

namespace Values

def isOneSpace (t : Token) : Bool := t.kind == .whitespace && t.lexeme == [' ']

def isSpace (t : Token) : Bool := t.kind == .whitespace

/-! ## 1. Colons -/

/-- What is wrong around the colon of a declaration; nothing is asked behind it if there is no
value. -/
def colonProblems (d : Declaration) (colon : Place) : List String :=
  (if colon.before.head?.any isSpace then
    [s!"Unexpected space before ':' in '{d.property.shown}'."]
   else []) ++
    (if d.value.isEmpty || colon.after.head?.any isOneSpace then []
     else [s!"Expected exactly one space after ':' in '{d.property.shown}'."])

def colonFindings (s : Stylesheet) (tokens : Array Token) (d : Declaration) : List Diagnostic :=
  match Place.at? tokens d.colon with
  | none => []
  | some colon =>
    (colonProblems d colon).map fun message =>
      s.finding .colonSpacing colon.token.line colon.token.column message
        (some s!"Write '{d.property.shown}: {d.value.shown}'.")

/-- No space stands in front of a colon, and one behind it. -/
def checkColons (s : Stylesheet) (_ : Options) : List Diagnostic :=
  let tokens := s.tokens.toArray
  s.allDeclarations.flatMap (colonFindings s tokens)

/-! ## 2. Commas -/

/-- What is wrong around a comma, as message and fix. A comma may end a line, and nothing is asked
behind a comma that ends its value. -/
def commaProblems (p : Place) : List (String × String) :=
  if p.token.kind ≠ .comma then []
  else
    (if p.before.head?.any isSpace then
      [("Unexpected space before ','.", "Remove the space before the comma.")]
     else []) ++
      match p.after with
      | [] => []
      | next :: _ =>
        if next.kind = .newline || isOneSpace next then []
        else [("Expected exactly one space after ','.", "Write ', ' between items.")]

/-- No space stands in front of a comma, and one space or a line break behind it. -/
def checkCommas (s : Stylesheet) (_ : Options) : List Diagnostic :=
  let tokens := s.tokens.toArray
  (s.valueSpans.flatMap (Place.ofSpan tokens)).flatMap fun p =>
    (commaProblems p).map fun (message, fix) =>
      s.finding .commaSpacing p.token.line p.token.column message (some fix)

/-! ## 3. Colors -/

def isHexDigit (c : Char) : Bool :=
  c.isDigit || ('a' ≤ c && c ≤ 'f') || ('A' ≤ c && c ≤ 'F')

def isColor (digits : Text) : Bool :=
  [3, 4, 6, 8].contains digits.length && digits.all isHexDigit

/-- Every other digit, if the digits come in equal pairs. -/
def halve? : Text → Option Text
  | [] => some []
  | [_] => none
  | a :: b :: rest => if a = b then (halve? rest).map (a :: ·) else none

/-- The preferred spelling of a color: lower case, and half as long if every channel is doubled. -/
def preferredHex (digits : Text) : Text :=
  let lowered := digits.map Char.toLower
  if lowered.length = 6 || lowered.length = 8 then (halve? lowered).getD lowered else lowered

def colorFinding? (s : Stylesheet) (t : Token) : Option Diagnostic :=
  let digits := t.lexeme.tail
  let preferred := preferredHex digits
  if t.kind = .hash && isColor digits && preferred != digits then
    some <| s.finding .hexCaseOrLength t.line t.column
      s!"Hex color '{t.lexeme.shown}' should be written '#{preferred.shown}'."
      (some s!"#{preferred.shown}")
  else none

/-- Colors have their preferred spelling. -/
def checkColors (s : Stylesheet) (_ : Options) : List Diagnostic :=
  let tokens := s.tokens.toArray
  (s.valueSpans.flatMap (·.slice tokens)).filterMap (colorFinding? s)

/-! ## 4. Strings -/

/-- The string in double quotes, with a backslash in front of every double quote inside. -/
def doubleQuoted (lexeme : Text) : Text :=
  Text.doubleQuote ::
    (Text.replaceChar Text.doubleQuote ['\\', Text.doubleQuote] lexeme.tail.dropLast ++
      [Text.doubleQuote])

/-- Strings are in double quotes. -/
def checkQuotes (s : Stylesheet) (_ : Options) : List Diagnostic :=
  (s.tokens.filter fun t => t.kind == .string && t.lexeme.head? == some Text.singleQuote).map
    fun t =>
      s.finding .quoteStyle t.line t.column s!"String {t.lexeme.shown} should use double quotes."
        (some (doubleQuoted t.lexeme).shown)

/-! ## 5. Zeros -/

def lengthUnits : List String :=
  ["px", "em", "rem", "ex", "ch", "vw", "vh", "vmin", "vmax", "cm", "mm", "q", "in", "pt", "pc"]

/-- Functions in which a zero keeps its unit. -/
def mathFunctions : List String := ["calc", "clamp", "min", "max"]

/-- The function is one in which a zero keeps its unit, its vendor prefix apart. -/
def isMath (name : Text) : Bool := mathFunctions.contains (stripVendor name).shown

def unsigned (t : Text) : Text :=
  match t with
  | '+' :: rest | '-' :: rest => rest
  | _ => t

/-- Digits in front of and behind the point, and what follows, of a decimal that ends in a digit. -/
def readDecimal? (t : Text) : Option (Text × Text × Text) :=
  let whole := t.takeWhile isDecimalDigit
  match t.dropWhile isDecimalDigit with
  | '.' :: rest =>
    let fraction := rest.takeWhile isDecimalDigit
    if fraction.isEmpty then none else some (whole, fraction, rest.dropWhile isDecimalDigit)
  | rest => if whole.isEmpty then none else some (whole, [], rest)

def isLengthUnit (t : Text) : Bool := lengthUnits.contains (Text.shown (t.map Char.toLower))

/-- The lexeme is a decimal that is zero, or too small to tell from zero, with a unit of length. -/
def isZeroLength (lexeme : Text) : Bool :=
  match readDecimal? (unsigned lexeme) with
  | some (whole, fraction, unit) =>
    unit.all Char.isAlpha && isLengthUnit unit &&
      Binary64.roundsToZero (decimalValue (whole ++ fraction)) fraction.length
  | none => false

def functionName (p : Place) : Text :=
  match p.before with
  | t :: _ => if t.kind = .ident then lowercase t.lexeme else []
  | [] => []

/-- The zeros with a unit among the tokens of a span, inside the given functions. -/
def zerosFrom (functions : List Text) : List Place → List Token
  | [] => []
  | p :: rest =>
    match p.token.kind with
    | .leftParen => zerosFrom (functionName p :: functions) rest
    | .rightParen => zerosFrom functions.tail rest
    | .number =>
      if !functions.any isMath && isZeroLength p.token.lexeme then
        p.token :: zerosFrom functions rest
      else zerosFrom functions rest
    | _ => zerosFrom functions rest

/-- A length of zero has no unit. -/
def checkZeros (s : Stylesheet) (_ : Options) : List Diagnostic :=
  let tokens := s.tokens.toArray
  (s.ordinarySpans.flatMap fun span => zerosFrom [] (Place.ofSpan tokens span)).map fun t =>
    s.finding .unitOnZeroValue t.line t.column
      s!"Zero length '{t.lexeme.shown}' should be written '0'." (some "0")

end Values

end HouseStyle
