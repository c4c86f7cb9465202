/-
HouseStyle.Stylesheet.Statement — the tokens of a stylesheet, cut into statements.

Where a statement ends does not depend on the blocks it stands in: it runs up to the first `;`, `{`
or `}` outside parentheses and brackets, a closing one counting only if it matches the last that is
open. So the cut is made before blocks are nested, and it loses nothing (`tokens_all`):
braces between parentheses belong to the statement around them.
-/
import HouseStyle.Token

namespace HouseStyle

/-- How an at-rule ends: with a block, with a semicolon, in front of a closing brace on some line,
or with the text. -/
inductive AtRuleEnd where
  | opens (brace : Token)
  | semicolon (token : Token)
  | closedAt (line : Nat)
  | endOfText
  deriving DecidableEq, Repr

/-- A statement, or a token between statements. -/
inductive Statement where
  | comment (token : Token)
  | lineBreak (token : Token)
  /-- A blank or a semicolon between statements. -/
  | filler (token : Token)
  | closing (brace : Token)
  /-- What stands in front of the block of a ruleset, and its brace. -/
  | opening (prelude : List Token) (brace : Token)
  | atRule (keyword : Token) (prelude : List Token) (ending : AtRuleEnd)
  /-- A declaration, or something that is none and is skipped. -/
  | plain (tokens : List Token) (semicolon : Option Token)
  deriving DecidableEq, Repr

def AtRuleEnd.tokens : AtRuleEnd → List Token
  | .opens brace => [brace]
  | .semicolon token => [token]
  | .closedAt _ => []
  | .endOfText => []

namespace Statement

def tokens : Statement → List Token
  | .comment t => [t]
  | .lineBreak t => [t]
  | .filler t => [t]
  | .closing t => [t]
  | .opening prelude brace => prelude ++ [brace]
  | .atRule keyword prelude ending => keyword :: (prelude ++ ending.tokens)
  | .plain ts semicolon => ts ++ semicolon.toList

/-! ## 1. The end of a statement -/

/-- The closing kinds that are awaited behind a token, the innermost first. -/
def awaitAfter (awaited : List Token.Kind) (k : Token.Kind) : List Token.Kind :=
  match k with
  | .leftParen => .rightParen :: awaited
  | .leftBracket => .rightBracket :: awaited
  | .rightParen | .rightBracket => if awaited.head? = some k then awaited.tail else awaited
  | _ => awaited

def isTerminator : Token.Kind → Bool
  | .semicolon | .leftBrace | .rightBrace => true
  | _ => false

/-- Cut a row of tokens in front of the first terminator outside parentheses and brackets. -/
def cut (awaited : List Token.Kind) : List Token → List Token × List Token
  | [] => ([], [])
  | t :: rest =>
    if awaited.isEmpty && isTerminator t.kind then ([], t :: rest)
    else
      let (front, behind) := cut (awaitAfter awaited t.kind) rest
      (t :: front, behind)

/-- A cut loses nothing. -/
theorem cut_append (awaited : List Token.Kind) (ts : List Token) :
    (cut awaited ts).1 ++ (cut awaited ts).2 = ts := by
  induction ts generalizing awaited with
  | nil => rfl
  | cons t rest ih =>
    rw [cut]
    split
    · rfl
    · simp [ih]

theorem length_cut_le (awaited : List Token.Kind) (ts : List Token) :
    (cut awaited ts).2.length ≤ ts.length := by
  have := congrArg List.length (cut_append awaited ts)
  simp at this
  omega

/-! ## 2. All statements -/

/-- The statement that starts with an at-keyword, and what follows it. -/
def readAtRule (keyword : Token) (rest : List Token) : Statement × List Token :=
  let front := (cut [] rest).1
  match (cut [] rest).2 with
  | [] => (.atRule keyword front .endOfText, [])
  | e :: more =>
    match e.kind with
    | .leftBrace => (.atRule keyword front (.opens e), more)
    | .semicolon => (.atRule keyword front (.semicolon e), more)
    | _ => (.atRule keyword front (.closedAt e.line), e :: more)

/-- The statement that starts with a token that is neither trivia nor a terminator nor an
at-keyword, and what follows it. -/
def readPlain (first : Token) (rest : List Token) : Statement × List Token :=
  let awaited := awaitAfter [] first.kind
  let front := first :: (cut awaited rest).1
  match (cut awaited rest).2 with
  | [] => (.plain front none, [])
  | e :: more =>
    match e.kind with
    | .leftBrace => (.opening front e, more)
    | .semicolon => (.plain front (some e), more)
    | _ => (.plain front none, e :: more)

def read (t : Token) (rest : List Token) : Statement × List Token :=
  match t.kind with
  | .comment | .docComment => (.comment t, rest)
  | .newline => (.lineBreak t, rest)
  | .whitespace | .semicolon => (.filler t, rest)
  | .rightBrace => (.closing t, rest)
  | .leftBrace => (.opening [] t, rest)
  | .atKeyword => readAtRule t rest
  | _ => readPlain t rest

/-- An at-rule and what it leaves make up the row. -/
theorem readAtRule_append (keyword : Token) (rest : List Token) :
    (readAtRule keyword rest).1.tokens ++ (readAtRule keyword rest).2 = keyword :: rest := by
  have h := cut_append [] rest
  unfold readAtRule
  simp only
  split
  · rename_i he
    rw [he] at h
    simpa [tokens, AtRuleEnd.tokens] using h
  · rename_i he
    rw [he] at h
    split <;> simpa [tokens, AtRuleEnd.tokens] using h

/-- A statement and what it leaves make up the row. -/
theorem readPlain_append (first : Token) (rest : List Token) :
    (readPlain first rest).1.tokens ++ (readPlain first rest).2 = first :: rest := by
  have h := cut_append (awaitAfter [] first.kind) rest
  unfold readPlain
  simp only
  split
  · rename_i he
    rw [he] at h
    simpa [tokens] using h
  · rename_i he
    rw [he] at h
    split <;> simpa [tokens] using h

/-- A statement and what follows it make up the row. -/
theorem read_append (t : Token) (rest : List Token) :
    (read t rest).1.tokens ++ (read t rest).2 = t :: rest := by
  unfold read
  split
  case h_8 => exact readAtRule_append t rest
  case h_9 => exact readPlain_append t rest
  all_goals rfl

theorem length_readAtRule_le (keyword : Token) (rest : List Token) :
    (readAtRule keyword rest).2.length ≤ rest.length := by
  have h := length_cut_le [] rest
  unfold readAtRule
  simp only
  split
  · exact Nat.zero_le _
  · rename_i he
    rw [he, List.length_cons] at h
    split <;> simp <;> omega

theorem length_readPlain_le (first : Token) (rest : List Token) :
    (readPlain first rest).2.length ≤ rest.length := by
  have h := length_cut_le (awaitAfter [] first.kind) rest
  unfold readPlain
  simp only
  split
  · exact Nat.zero_le _
  · rename_i he
    rw [he, List.length_cons] at h
    split <;> simp <;> omega

/-- What follows a statement is shorter than the row. -/
theorem length_read_le (t : Token) (rest : List Token) :
    (read t rest).2.length ≤ rest.length := by
  unfold read
  split
  case h_8 => exact length_readAtRule_le t rest
  case h_9 => exact length_readPlain_le t rest
  all_goals exact Nat.le_refl _

def all : List Token → List Statement
  | [] => []
  | t :: rest => (read t rest).1 :: all (read t rest).2
termination_by ts => ts.length
decreasing_by
  have := length_read_le t rest
  simp
  omega

/-- The statements cover every token, in order. -/
theorem tokens_all (ts : List Token) : (all ts).flatMap tokens = ts := by
  fun_induction all ts with
  | case1 => rfl
  | case2 t rest ih => rw [List.flatMap_cons, ih, read_append]

end Statement

end HouseStyle
