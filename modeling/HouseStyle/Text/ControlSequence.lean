/-
HouseStyle.Text.ControlSequence — what is printed holds no terminal commands.

A control sequence starts with the escape character and an opening bracket; parameters, intermediate
characters and one final character follow, each from a range of ASCII of its own. The three ranges
do not overlap and none holds a line break, so a sequence has one possible end, and that is on its
own line. An escape character that starts no complete sequence stays.
-/
import HouseStyle.Text

namespace HouseStyle.ControlSequence

def escape : Char := Char.ofNat 27

/-- A parameter: a digit, a colon, a semicolon or one of `<=>?`. -/
def isParameter (c : Char) : Bool := '0' ≤ c && c ≤ '?'

/-- An intermediate character: from the space to the slash. -/
def isIntermediate (c : Char) : Bool := ' ' ≤ c && c ≤ '/'

/-- A final character: from the at sign to the tilde. -/
def isFinal (c : Char) : Bool := '@' ≤ c && c ≤ '~'

/-- What follows a control sequence, of which the escape character has been read. -/
def behind? (t : Text) : Option Text :=
  match t with
  | [] => none
  | c :: rest =>
    if c == '[' then
      match (rest.dropWhile isParameter).dropWhile isIntermediate with
      | [] => none
      | d :: more => if isFinal d then some more else none
    else none

theorem length_behind?_le {t rest : Text} (h : behind? t = some rest) :
    rest.length ≤ t.length := by
  unfold behind? at h
  split at h
  · simp at h
  · rename_i c u
    split at h
    · split at h
      · simp at h
      · rename_i d more he
        split at h
        · simp only [Option.some.injEq] at h
          subst h
          have h1 := (List.dropWhile_suffix isParameter (l := u)).length_le
          have h2 :=
            (List.dropWhile_suffix isIntermediate (l := u.dropWhile isParameter)).length_le
          rw [he, List.length_cons] at h2
          simp only [List.length_cons]
          omega
        · simp at h
    · simp at h

/-- The text without its control sequences. -/
def strip : Text → Text
  | [] => []
  | c :: t =>
    if c == escape then
      match _h : behind? t with
      | some rest => strip rest
      | none => c :: strip t
    else c :: strip t
termination_by t => t.length
decreasing_by
  · have := length_behind?_le _h
    simp only [List.length_cons]
    omega
  · simp
  · simp

end HouseStyle.ControlSequence
