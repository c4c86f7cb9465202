/-
HouseStyle.Token.Stream — the tokens of a text.

`tokenize` cuts off one token after another until nothing is left. It has an answer for every text,
and the answer loses nothing: the lexemes, joined, are the text (`source_tokenize`).
-/
import HouseStyle.Token.Lexeme

namespace HouseStyle

namespace Token

/-- The tokens of a text that starts at a given place. -/
def streamFrom (p : Position) : Text → List Token
  | [] => []
  | c :: t =>
    let lexeme := c :: (next c t).2.taken
    ⟨(next c t).1, lexeme, p⟩ :: streamFrom (p.after lexeme) (next c t).2.rest
termination_by t => t.length
decreasing_by
  have := length_rest_next_le c t
  simp
  omega

@[simp] theorem streamFrom_nil (p : Position) : streamFrom p [] = [] := by
  rw [streamFrom]

/-- The stream of a text is its first token and the stream of what that leaves. -/
theorem streamFrom_cons (p : Position) (c : Char) (t : Text) :
    streamFrom p (c :: t) =
      ⟨(next c t).1, c :: (next c t).2.taken, p⟩ ::
        streamFrom (p.after (c :: (next c t).2.taken)) (next c t).2.rest := by
  rw [streamFrom]

/-- The lexemes of a text, joined, are the text. -/
theorem source_streamFrom (p : Position) (t : Text) : source (streamFrom p t) = t := by
  fun_induction streamFrom p t with
  | case1 => rfl
  | case2 p c t lexeme ih =>
    have h := splits_next c t
    unfold Cut.Splits at h
    rw [source, List.flatMap_cons, ← source, ih]
    simp [lexeme, h]

end Token

def tokenize (t : Text) : List Token := Token.streamFrom {} t

/-- The lexemes of a text, joined, are the text. -/
theorem source_tokenize (t : Text) : Token.source (tokenize t) = t :=
  Token.source_streamFrom {} t

end HouseStyle
