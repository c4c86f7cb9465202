/-
HouseStyle.Text.Glob — patterns for file names.

`*` stands for any text, slashes included, `?` for any character, and a set in brackets for one of
its members or, with `!` in front, for any other character. A closing bracket that comes first is a
member, and a bracket that is never closed stands for itself.

The members of a set are cut at hyphens into runs. Two runs are joined by the range from the end of
the one to the start of the other; if that range is in the wrong order both of its ends drop out and
the runs grow together. Only then is it seen whether a `!` comes first. Should nothing stand between
that `!` and a hyphen, the hyphen is a member.

A text is covered piece by piece from the end of the pattern: for every end of the text it is noted
whether the pieces so far cover it (`Row`), so the work is the product of the two lengths.
-/
import HouseStyle.Text

namespace HouseStyle.Glob

/-- A piece of a pattern. A set is a list of closed ranges. -/
inductive Piece where
  | anyText
  | anyChar
  | literal (c : Char)
  | set (negated : Bool) (ranges : List (Char × Char))
  deriving DecidableEq, Repr

/-! ## 1. Sets -/

/-- The runs between hyphens. The first `keep` characters of a run are no hyphens for this purpose;
behind a hyphen those are two. A hyphen at the end belongs to the run in front of it. -/
def runsFrom (keep : Nat) (t : Text) : List Text :=
  let run := t.take keep ++ (t.drop keep).takeWhile (· != '-')
  match _h : (t.drop keep).dropWhile (· != '-') with
  | [] => [run]
  | [_] => [run ++ ['-']]
  | _ :: rest => run :: runsFrom 2 rest
termination_by t.length
decreasing_by
  have h1 := (List.dropWhile_suffix (· != '-') (l := t.drop keep)).length_le
  rw [_h] at h1
  simp only [List.length_cons, List.length_drop] at h1
  omega

def runs (members : Text) : List Text :=
  runsFrom (if members.head? == some '!' then 2 else 1) members

/-- Put a run in front of others; if its range to the next one is in the wrong order, the two grow
together without the ends of that range. -/
def joinRun (run : Text) (others : List Text) : List Text :=
  match others with
  | [] => [run]
  | next :: more =>
    match run.getLast?, next.head? with
    | some a, some b => if b < a then (run.dropLast ++ next.tail) :: more else run :: next :: more
    | _, _ => run :: next :: more

def single (c : Char) : Char × Char := (c, c)

/-- The range from the end of a run to the start of the next one. -/
def rangeBetween (run next : Text) : List (Char × Char) :=
  match run.getLast?, next.head? with
  | some a, some b => [(a, b)]
  | _, _ => []

/-- The ranges of a row of runs: the characters of the runs, and between two runs everything from
the end of the one to the start of the other. -/
def rangesOf : List Text → List (Char × Char)
  | [] => []
  | [run] => run.map single
  | run :: next :: more =>
    run.dropLast.map single ++ rangeBetween run next ++ rangesOf (next.tail :: more)
termination_by rows => rows.length

/-- The set with these members between its brackets. -/
def setOf (members : Text) : Piece :=
  match (runs members).foldr joinRun [] with
  | ['!'] :: next :: more => .set true (single '-' :: rangesOf (next :: more))
  | ('!' :: run) :: more => .set true (rangesOf (run :: more))
  | rows => .set false (rangesOf rows)

/-! ## 2. Pieces -/

/-- The members of a set behind its opening bracket, and what follows the closing one. The bracket
is looked for behind a first `!` and a first `]`. -/
def readSet? (t : Text) : Option (Text × Text) :=
  let (mark, rest) : Text × Text :=
    match t with
    | '!' :: rest => (['!'], rest)
    | _ => ([], t)
  let (first, rest) : Text × Text :=
    match rest with
    | ']' :: more => ([']'], more)
    | _ => ([], rest)
  match rest.dropWhile (· != ']') with
  | [] => none
  | _ :: behind => some (mark ++ first ++ rest.takeWhile (· != ']'), behind)

/-- The pieces of a pattern; `fuel` bounds their number. -/
def piecesFrom : Nat → Text → List Piece
  | 0, _ => []
  | _ + 1, [] => []
  | fuel + 1, c :: rest =>
    if c == '*' then .anyText :: piecesFrom fuel rest
    else if c == '?' then .anyChar :: piecesFrom fuel rest
    else if c == '[' then
      match readSet? rest with
      | some (members, behind) => setOf members :: piecesFrom fuel behind
      | none => .literal '[' :: piecesFrom fuel rest
    else .literal c :: piecesFrom fuel rest

def pieces (pattern : Text) : List Piece := piecesFrom pattern.length pattern

/-! ## 3. Covering -/

def inSet (c : Char) (ranges : List (Char × Char)) : Bool :=
  ranges.any fun r => r.1 ≤ c && c ≤ r.2

def Piece.admits : Piece → Char → Bool
  | .anyText, _ => true
  | .anyChar, _ => true
  | .literal d, c => c == d
  | .set negated ranges, c => inSet c ranges != negated

/-- For every end of a text, the whole text first and the empty one last, whether it is covered. -/
abbrev Row := List Bool

/-- Without a piece only the empty end of a text is covered. -/
def emptyRow : Text → Row
  | [] => [true]
  | _ :: t => false :: emptyRow t

/-- The ends that are covered with any text in front of the ends that were covered before. -/
def starRow : Row → Row
  | [] => []
  | covered :: rest =>
    let row := starRow rest
    (covered || row.headD false) :: row

def charRow (p : Piece) : Text → Row → Row
  | c :: t, _ :: rest => (p.admits c && rest.headD false) :: charRow p t rest
  | _, _ => [false]

def stepRow (t : Text) (p : Piece) (row : Row) : Row :=
  match p with
  | .anyText => starRow row
  | _ => charRow p t row

def covers (ps : List Piece) (t : Text) : Bool := (ps.foldr (stepRow t) (emptyRow t)).headD false

def isMatch (pattern text : Text) : Bool := covers (pieces pattern) text

end HouseStyle.Glob
