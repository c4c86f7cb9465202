/-
HouseStyle.Declaration — `property: value`.

A declaration is read from the tokens of its statement: the name is what stands in front of the
first colon, the value what stands behind it, both without the blanks and comments around them.
Spans count tokens from the start of the stylesheet.

The calls in a value are found with a stack of open parentheses. A comma belongs to the innermost
of them, a closing parenthesis without an open one is ignored, and a call is recorded where it
closes, so that inner calls come before the calls around them.
-/
import HouseStyle.Text.Lowercase
import HouseStyle.Token

namespace HouseStyle

/-- The tokens from `start` up to `stop`, the latter not included. -/
structure Span where
  start : Nat
  stop : Nat
  deriving DecidableEq, Repr

def Span.slice (span : Span) (tokens : Array Token) : List Token :=
  (tokens.extract span.start span.stop).toList

/-- A span leaves out what stands before its start and behind its end. -/
theorem Span.slice_toArray (span : Span) (tokens : List Token) :
    span.slice tokens.toArray = (tokens.drop span.start).take (span.stop - span.start) := by
  simp [slice, List.extract_eq_take_drop]

/-- A call in a value, with the texts of its arguments. -/
structure FunctionCall where
  name : Text
  arguments : List Text
  deriving DecidableEq, Repr

namespace FunctionCall

/-- An open parenthesis: the name in front of it (empty if there is none), the arguments that are
complete, the one that is not, and all tokens from the parenthesis on. -/
structure Open where
  name : Text
  complete : List (List Token) := []
  current : List Token := []
  covered : List Token
  deriving Repr

namespace Open

def extend (o : Open) (tokens : List Token) : Open :=
  { o with current := o.current ++ tokens, covered := o.covered ++ tokens }

def separate (o : Open) (comma : Token) : Open :=
  { o with
    complete := o.complete ++ [o.current], current := [], covered := o.covered ++ [comma] }

/-- The call of a parenthesis that closes. -/
def toCall (o : Open) : FunctionCall :=
  ⟨o.name, (o.complete ++ [o.current]).map fun a => Text.trim (Token.plainText a)⟩

end Open

def extendInnermost (tokens : List Token) : List Open → List Open
  | [] => []
  | o :: outer => o.extend tokens :: outer

/-- The name of a call whose parenthesis follows this token. -/
def nameBefore (previous : Option Token) : Text :=
  match previous with
  | some t => if t.kind = .ident then t.lexeme else []
  | none => []

/-- The calls that close in a run of tokens, behind `previous` and inside the open parentheses
`stack`, innermost first. -/
def callsFrom (previous : Option Token) (stack : List Open) : List Token → List FunctionCall
  | [] => []
  | t :: rest =>
    match t.kind, stack with
    | .leftParen, _ =>
      callsFrom (some t) ({ name := nameBefore previous, covered := [t] } :: stack) rest
    | .comma, o :: outer => callsFrom (some t) (o.separate t :: outer) rest
    | .rightParen, o :: outer =>
      let more := callsFrom (some t) (extendInnermost (o.covered ++ [t]) outer) rest
      if o.name.isEmpty then more else o.toCall :: more
    | _, _ => callsFrom (some t) (extendInnermost [t] stack) rest

end FunctionCall

def functionCalls (value : List Token) : List FunctionCall := FunctionCall.callsFrom none [] value

/-- A property with its value, the lines and the column it covers, and the tokens of its colon and
of its value. -/
structure Declaration where
  property : Text
  value : Text
  line : Nat
  column : Nat
  endLine : Nat
  colon : Nat
  valueSpan : Span
  functions : List FunctionCall := []
  important : Bool := false
  deriving DecidableEq, Repr

namespace Declaration

def name (d : Declaration) : Text := lowercase d.property

def isCustom (d : Declaration) : Bool := ['-', '-'].isPrefixOf d.property

/-- The property is a preprocessor variable or a custom property. -/
def isVariable (d : Declaration) : Bool := d.property.head? == some '$' || d.isCustom

/-- The value ends with `!important`, in any case and with any spaces in it. -/
def endsImportant (value : Text) : Bool :=
  "!important".toList.isSuffixOf ((lowercase value).filter (· != ' '))

/-- The declaration of a statement whose first token, which is no trivia, is token number `base` of
the stylesheet; none without a colon or without a name. -/
def ofTokens? (base : Nat) (tokens : List Token) : Option Declaration :=
  let front := tokens.takeWhile (·.kind != .colon)
  let property := Text.trim (Token.plainText front)
  match tokens.head?, (Token.trimTrivia tokens).getLast?, tokens.dropWhile (·.kind != .colon) with
  | some first, some last, _ :: behind =>
    if property.isEmpty then none
    else
      let colon := base + front.length
      let value := Token.trimTrivia behind
      let start :=
        colon + 1 + if value.isEmpty then 0 else (behind.takeWhile (·.isTrivia)).length
      let text := Text.trim (Token.plainText value)
      some
        { property
          value := text
          line := first.line
          column := first.column
          endLine := last.endLine
          colon
          valueSpan := ⟨start, start + value.length⟩
          functions := functionCalls value
          important := endsImportant text }
  | _, _, _ => none

end Declaration

end HouseStyle
