/-
HouseStyle.Token — what a stylesheet is made of.

A token is a kind, the characters it covers and the place of the first of them. Places are found by
walking over the text in front of them, one character at a time (`Position.after`), so that the
place of a token is determined by the text before it and by nothing else.
-/
import HouseStyle.Text.Quoted

namespace HouseStyle

/-- A place in a text: how many characters stand before it, and its line and column, both counted
from one. -/
structure Position where
  offset : Nat := 0
  line : Nat := 1
  column : Nat := 1
  deriving DecidableEq, Repr

namespace Position

def next (p : Position) (c : Char) : Position :=
  if c == '\n' then ⟨p.offset + 1, p.line + 1, 1⟩ else ⟨p.offset + 1, p.line, p.column + 1⟩

def after (p : Position) (t : Text) : Position := t.foldl next p

@[simp] theorem after_nil (p : Position) : p.after [] = p := rfl

theorem after_cons (p : Position) (c : Char) (t : Text) :
    p.after (c :: t) = (p.next c).after t := rfl

/-- Passing two texts one after the other is passing them at once. -/
theorem after_append (p : Position) (s t : Text) : p.after (s ++ t) = (p.after s).after t := by
  simp [after, List.foldl_append]

theorem offset_next (p : Position) (c : Char) : (p.next c).offset = p.offset + 1 := by
  unfold next; split <;> rfl

/-- Offsets count characters. -/
theorem offset_after (p : Position) (t : Text) : (p.after t).offset = p.offset + t.length := by
  induction t generalizing p with
  | nil => rfl
  | cons c t ih => rw [after_cons, ih, offset_next, List.length_cons]; omega

/-- Lines count line feeds. -/
theorem line_after (p : Position) (t : Text) : (p.after t).line = p.line + t.lineFeeds := by
  induction t generalizing p with
  | nil => rfl
  | cons c t ih =>
    rw [after_cons, ih]
    by_cases h : c = '\n'
    · simp [next, Text.lineFeeds, h]
      omega
    · simp [next, Text.lineFeeds, h]

end Position

namespace Token

/-- The lexical category of a token. -/
inductive Kind where
  | ident
  | number
  | hash
  | url
  | leftBrace
  | rightBrace
  | leftParen
  | rightParen
  | leftBracket
  | rightBracket
  | colon
  | semicolon
  | comma
  | string
  | comment
  | docComment
  | atKeyword
  | combinator
  | delimiter
  | whitespace
  | newline
  /-- A string or comment that is never closed. -/
  | malformed
  deriving DecidableEq, Repr

def Kind.name : Kind → String
  | .ident => "IDENT"
  | .number => "NUMBER"
  | .hash => "HASH"
  | .url => "URL"
  | .leftBrace => "LBRACE"
  | .rightBrace => "RBRACE"
  | .leftParen => "LPAREN"
  | .rightParen => "RPAREN"
  | .leftBracket => "LBRACKET"
  | .rightBracket => "RBRACKET"
  | .colon => "COLON"
  | .semicolon => "SEMICOLON"
  | .comma => "COMMA"
  | .string => "STRING"
  | .comment => "COMMENT"
  | .docComment => "DOC_COMMENT"
  | .atKeyword => "AT_KEYWORD"
  | .combinator => "COMBINATOR"
  | .delimiter => "DELIM"
  | .whitespace => "WHITESPACE"
  | .newline => "NEWLINE"
  | .malformed => "ERROR"

def Kind.isComment : Kind → Bool
  | .comment | .docComment => true
  | _ => false

/-- The token carries no meaning for the structure of a stylesheet. -/
def Kind.isTrivia : Kind → Bool
  | .whitespace | .newline | .comment | .docComment => true
  | _ => false

end Token

/-- A lexeme with its kind and the place of its first character. -/
structure Token where
  kind : Token.Kind
  lexeme : Text
  place : Position
  deriving DecidableEq, Repr

namespace Token

def offset (t : Token) : Nat := t.place.offset

def line (t : Token) : Nat := t.place.line

def column (t : Token) : Nat := t.place.column

def isComment (t : Token) : Bool := t.kind.isComment

def isTrivia (t : Token) : Bool := t.kind.isTrivia

/-- The line of the last character; a line break belongs to the line that it ends. -/
def endLine (t : Token) : Nat :=
  if t.kind = .newline then t.line else t.line + t.lexeme.lineFeeds

def describe (t : Token) : String :=
  s!"{t.kind.name}({String.ofList t.lexeme.quoted}) at {t.line}:{t.column}"

def source (tokens : List Token) : Text := tokens.flatMap lexeme

/-- The text of a run of tokens, with a space in place of each comment. -/
def plainText (tokens : List Token) : Text :=
  tokens.flatMap fun t => if t.isComment then [' '] else t.lexeme

/-- The run without the trivia at its two ends. -/
def trimTrivia (tokens : List Token) : List Token :=
  Text.dropEndWhile isTrivia (tokens.dropWhile isTrivia)

end Token

end HouseStyle
