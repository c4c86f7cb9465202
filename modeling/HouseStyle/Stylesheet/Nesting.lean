/-
HouseStyle.Stylesheet.Nesting — statements, put into the blocks they belong to.

The statements are taken one by one. The blocks that are open at a statement form a stack; each
remembers what was gathered at the level outside it, so that closing a block adds one finished node
to that level. Nothing stops the walk: a closing brace without an open block is reported and
skipped, and blocks that are still open at the end of the text are closed there.

A comment is held back until the next statement shows what it belongs to. It documents the node
that follows it if at most one line break lies between the two.
-/
import HouseStyle.Diagnostic
import HouseStyle.Selector.Reader
import HouseStyle.Stylesheet.Forest
import HouseStyle.Stylesheet.Statement

namespace HouseStyle

namespace Nesting

/-! ## 1. State -/

/-- A comment that is held back, and the line breaks seen since. -/
structure Pending where
  token : Token
  breaks : Nat := 0
  deriving DecidableEq, Repr

/-- What was gathered at one level. -/
structure Level where
  declarations : List Declaration := []
  children : Forest := .nil
  pending : Option Pending := none
  deriving Repr

/-- A block that is open: the level around it, and how it began. -/
structure OpenBlock where
  outer : Level
  heading : Heading
  brace : Token
  deriving Repr

/-- How far the walk has come: tokens passed, the innermost level, the blocks around it from the
inside out, and the comments and findings so far. -/
structure State where
  index : Nat := 0
  level : Level := {}
  enclosing : List OpenBlock := []
  comments : List Comment := []
  diagnostics : List Diagnostic := []
  deriving Repr

/-- What the walk knows of the whole text: its name and its last line. -/
structure Setting where
  file : String
  lastLine : Nat

def Setting.finding (s : Setting) (rule : RuleId) (token : Token) (message fix : String) :
    Diagnostic :=
  { rule, message, file := s.file, line := token.line, column := token.column, fix := some fix }

def Level.addNode (l : Level) (b : Block) (children : Forest) : Level :=
  { l with children := l.children.append (.node b children .nil) }

def OpenBlock.close (o : OpenBlock) (inner : Level) (brace : Option Token) (endLine : Nat) :
    Level :=
  o.outer.addNode
    { heading := o.heading, openBrace := some o.brace, closeBrace := brace, endLine
      declarations := inner.declarations }
    inner.children

/-! ## 2. Comments -/

/-- The held comment documents the statement that comes now. -/
def State.attaches (s : State) : Bool :=
  match s.level.pending with
  | some p => p.breaks ≤ 1
  | none => false

def State.release (s : State) (attached : Bool) : State :=
  match s.level.pending with
  | none => s
  | some p =>
    { s with
      level := { s.level with pending := none }
      comments := s.comments ++ [⟨p.token, attached⟩] }

def State.documentation (s : State) : Option Comment :=
  match s.level.pending with
  | some p => if p.breaks ≤ 1 then some ⟨p.token, true⟩ else none
  | none => none

/-! ## 3. Selector lists -/

/-- Put a token in front of the first of some entries. -/
def consFirst (t : Token) : List (List Token) → List (List Token)
  | [] => [[t]]
  | entry :: more => (t :: entry) :: more

/-- The entries of a selector list, cut at commas outside parentheses and brackets. -/
def entries (depth : Nat) : List Token → List (List Token)
  | [] => [[]]
  | t :: rest =>
    match t.kind with
    | .leftParen | .leftBracket => consFirst t (entries (depth + 1) rest)
    | .rightParen | .rightBracket => consFirst t (entries (depth - 1) rest)
    | .comma => if depth = 0 then [] :: entries 0 rest else consFirst t (entries depth rest)
    | _ => consFirst t (entries depth rest)

/-- The selector of an entry, if it holds more than trivia. -/
def selectorOf? (entry : List Token) : Option Selector :=
  match Token.trimTrivia entry with
  | [] => none
  | t :: rest => some (Selector.build (Token.plainText (t :: rest)) t.line t.column)

def selectorsOf (prelude : List Token) : List Selector := (entries 0 prelude).filterMap selectorOf?

def emptyEntries (prelude : List Token) : Nat :=
  (entries 0 prelude).countP fun entry => (Token.trimTrivia entry).isEmpty

def selectorFindings (setting : Setting) (prelude : List Token) (brace : Token) :
    List Diagnostic :=
  let empty := emptyEntries prelude
  if (selectorsOf prelude).isEmpty then
    [setting.finding .emptySelector brace "Ruleset has no selector before '\x7b'."
      "Add a selector or remove the block."]
  else if empty = 0 then []
  else
    let ending := if empty = 1 then "y" else "ies"
    [setting.finding .emptySelector brace s!"Selector list contains {empty} empty entr{ending}."
      "Remove the stray comma."]

/-! ## 4. Headings -/

/-- The heading of a ruleset; it stands at its first selector, or else at its brace. -/
def rulesetHeading (prelude : List Token) (brace : Token) (comment : Option Comment) : Heading :=
  let selectors := selectorsOf prelude
  let (line, column) :=
    match selectors with
    | [] => (brace.line, brace.column)
    | s :: _ => (s.line, s.column)
  { shape := .ruleset selectors, prelude := Text.squeeze (Token.plainText prelude)
    line, column, comment }

/-- The tokens of a prelude without the trivia around it, where `base` tokens stand in front; an
empty prelude stands at its end. -/
def preludeSpan (base : Nat) (prelude : List Token) : Span :=
  let inner := Token.trimTrivia prelude
  let start :=
    base + if inner.isEmpty then prelude.length else (prelude.takeWhile (·.isTrivia)).length
  ⟨start, start + inner.length⟩

/-- The heading of an at-rule whose keyword has number `index`. -/
def atRuleHeading (index : Nat) (keyword : Token) (prelude : List Token)
    (comment : Option Comment) : Heading :=
  { shape := .atRule (lowercase keyword.lexeme.tail) (preludeSpan (index + 1) prelude)
    prelude := Text.squeeze (Token.plainText prelude)
    line := keyword.line, column := keyword.column, comment }

/-! ## 5. The walk -/

def State.enter (s : State) (heading : Heading) (brace : Token) : State :=
  { s with level := {}, enclosing := ⟨s.level, heading, brace⟩ :: s.enclosing }

def State.addLeaf (s : State) (heading : Heading) (endLine : Nat) : State :=
  { s with level := s.level.addNode { heading, endLine } .nil }

def State.report (s : State) (ds : List Diagnostic) : State :=
  { s with diagnostics := s.diagnostics ++ ds }

/-- Pass a closing brace. -/
def State.leave (setting : Setting) (s : State) (brace : Token) : State :=
  match s.enclosing with
  | [] =>
    s.report
      [setting.finding .unbalancedBraces brace "Unexpected '\x7d' with no matching '\x7b'."
        "Remove the extra '\x7d'."]
  | o :: outer =>
    { s with level := o.close s.level (some brace) brace.line, enclosing := outer }

def State.declare (s : State) (d : Declaration) : State :=
  { s with level := { s.level with declarations := s.level.declarations ++ [d] } }

/-- What a statement does, the count of tokens apart. -/
def State.take (setting : Setting) (s : State) : Statement → State
  | .comment t =>
    let s := s.release false
    { s with level := { s.level with pending := some { token := t } } }
  | .lineBreak _ =>
    { s with
      level :=
        { s.level with pending := s.level.pending.map fun p => { p with breaks := p.breaks + 1 } } }
  | .filler _ => s
  | .closing brace => (s.release false).leave setting brace
  | .opening prelude brace =>
    ((s.release s.attaches).report (selectorFindings setting prelude brace)).enter
      (rulesetHeading prelude brace s.documentation) brace
  | .atRule keyword prelude ending =>
    let heading := atRuleHeading s.index keyword prelude s.documentation
    let s := s.release s.attaches
    match ending with
    | .opens brace => s.enter heading brace
    | .semicolon t => s.addLeaf heading t.line
    | .closedAt line => s.addLeaf heading line
    | .endOfText => s.addLeaf heading setting.lastLine
  | .plain tokens _ =>
    let s := s.release false
    match Declaration.ofTokens? s.index tokens with
    | some d => s.declare d
    | none => s

def State.step (setting : Setting) (s : State) (st : Statement) : State :=
  { s.take setting st with index := s.index + st.tokens.length }

def closeAll (lastLine : Nat) (level : Level) : List OpenBlock → Level
  | [] => level
  | o :: outer => closeAll lastLine (o.close level none lastLine) outer

def unclosedFindings (setting : Setting) (enclosing : List OpenBlock) : List Diagnostic :=
  match enclosing with
  | [] => []
  | o :: _ =>
    [setting.finding .unbalancedBraces o.brace
      s!"Unclosed '\x7b' at end of input ({enclosing.length} block(s) closed implicitly)."
      "Add the missing '\x7d'."]

def malformedFinding (setting : Setting) (t : Token) : Diagnostic :=
  if ['/', '*'].isPrefixOf t.lexeme then
    setting.finding .unterminatedComment t "Comment is never closed."
      "Close the comment with '*/'."
  else
    let quote := String.ofList (t.lexeme.take 1)
    setting.finding .unterminatedString t
      s!"String starting with {quote} is not closed on the same line."
      s!"Close the string with {quote}."

def malformedFindings (setting : Setting) (tokens : List Token) : List Diagnostic :=
  (tokens.filter (·.kind == .malformed)).map (malformedFinding setting)

def walk (setting : Setting) (statements : List Statement) : State :=
  statements.foldl (State.step setting) {}

end Nesting

end HouseStyle
