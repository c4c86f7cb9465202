/-
HouseStyle.Proofs.RecordedTexts — the text that is recorded of a row of tokens.

Selectors, preludes, properties and values are recorded as the text of a row of tokens with a space
in place of each comment (`Token.plainText`), then trimmed or squeezed. All of this only changes
blanks. So texts are compared without their blanks here: trivia leaves nothing, comments leave
nothing (`withoutBlanks_plainText`), and a row that is cut at commas is made up of its entries and
the commas between them (`Nesting.Separated.withoutBlanks_eq`).
-/
import HouseStyle.Proofs.Blanks
import HouseStyle.Proofs.Entries

namespace HouseStyle

/-! ## 1. Spaces in place of comments -/

namespace Token

variable {text : Text} {t : Token} {ts : List Token}

theorem plainText_cons (t : Token) (ts : List Token) :
    plainText (t :: ts) = (if t.isComment then [' '] else t.lexeme) ++ plainText ts := rfl

theorem plainText_append (ts us : List Token) :
    plainText (ts ++ us) = plainText ts ++ plainText us := by
  simp [plainText]

/-- Without comments a run is recorded as it is written. -/
theorem plainText_eq_source (h : ∀ t ∈ ts, t.isComment = false) :
    plainText ts = source ts := by
  induction ts with
  | nil => rfl
  | cons t ts ih =>
    obtain ⟨ht, hts⟩ := List.forall_mem_cons.1 h
    rw [source_cons, ← ih hts]
    simp [plainText, ht]

theorem plainText_of_kind {t : Token} (h : t.kind.isComment = false) :
    plainText [t] = t.lexeme := by
  rw [plainText_eq_source (by simpa [isComment] using h)]
  simp [source]

/-! ## 2. Tokens without blanks -/

/-- Commas and brackets are written as such. -/
theorem lexeme_of_mark? (ht : t ∈ tokenize text) {c : Char} (h : t.kind.mark? = some c) :
    t.lexeme = [c] := by
  obtain ⟨d, rest, place, rfl⟩ := exists_next_of_mem ht
  obtain ⟨rfl, htaken⟩ := taken_of_mark? h
  rw [htaken]

/-- Trivia is recorded as blanks. -/
theorem withoutBlanks_of_isTrivia (hts : ∀ t ∈ ts, t ∈ tokenize text)
    (h : ∀ t ∈ ts, t.isTrivia = true) : Text.withoutBlanks (plainText ts) = [] := by
  induction ts with
  | nil => rfl
  | cons t ts ih =>
    obtain ⟨ht, hts⟩ := List.forall_mem_cons.1 hts
    obtain ⟨htrivia, h⟩ := List.forall_mem_cons.1 h
    have hfirst : Text.withoutBlanks (if t.isComment then [' '] else t.lexeme) = [] := by
      split
      · exact Text.withoutBlanks_space
      · rename_i hcomment
        obtain ⟨c, rest, place, rfl⟩ := exists_next_of_mem ht
        refine Text.withoutBlanks_eq_nil (List.all_eq_true.1 (all_isBlank_next ?_))
        revert htrivia hcomment
        unfold isTrivia isComment
        cases (next c rest).1 <;> simp [Kind.isTrivia, Kind.isComment]
    rw [plainText_cons, Text.withoutBlanks_append, hfirst, ih hts h, List.append_nil]

/-- Trimming trivia changes only blanks of the plain text: a comment leaves no more than a space. -/
theorem withoutBlanks_trimTrivia (hts : ∀ t ∈ ts, t ∈ tokenize text) :
    Text.withoutBlanks (plainText (trimTrivia ts)) = Text.withoutBlanks (plainText ts) := by
  obtain ⟨trail, hsplit, htrail⟩ := exists_append_trimTrivia ts
  rw [hsplit] at hts
  have hleadText : Text.withoutBlanks (plainText (ts.takeWhile (·.isTrivia))) = [] :=
    withoutBlanks_of_isTrivia (fun t ht => hts t (List.mem_append_left _ ht))
      fun t ht => List.mem_takeWhile_imp ht
  have htrailText : Text.withoutBlanks (plainText trail) = [] :=
    withoutBlanks_of_isTrivia
      (fun t ht => hts t (List.mem_append_right _ (List.mem_append_right _ ht))) htrail
  conv_rhs => rw [hsplit]
  rw [plainText_append, plainText_append, Text.withoutBlanks_append, Text.withoutBlanks_append,
    hleadText, htrailText, List.nil_append, List.append_nil]

/-- Comments are recorded as blanks, and everything else as it is written. -/
theorem withoutBlanks_plainText (ts : List Token) :
    Text.withoutBlanks (plainText ts) =
      Text.withoutBlanks (source (ts.filter fun t => !t.isComment)) := by
  induction ts with
  | nil => rfl
  | cons t ts ih =>
    rw [plainText_cons, Text.withoutBlanks_append, ih]
    cases hcomment : t.isComment with
    | true => simp [hcomment]
    | false => simp [hcomment, source_cons]

end Token

/-! ## 3. Rows with commas -/

namespace Nesting

/-- Apart from blanks a row is made up of its entries with commas between them. -/
theorem Separated.withoutBlanks_eq {text : Text} {tokens : List Token}
    {es : List (List Token)} (h : Separated tokens es) (hts : ∀ t ∈ tokens, t ∈ tokenize text) :
    Text.withoutBlanks (Token.plainText tokens) =
      List.intercalate [','] (es.map fun e => Text.withoutBlanks (Token.plainText e)) := by
  induction h with
  | last entry => simp
  | @comma entry t rest more kind h ih =>
    have ht : t ∈ tokenize text := hts t (by simp)
    have hlexeme : t.lexeme = [','] := Token.lexeme_of_mark? ht (by rw [kind]; rfl)
    have hcomment : t.isComment = false := by
      unfold Token.isComment
      rw [kind]
      rfl
    have hrest := ih fun u hu => hts u (by simp [hu])
    obtain ⟨first, others, rfl⟩ := List.exists_cons_of_ne_nil h.ne_nil
    rw [Token.plainText_append, Token.plainText_cons, Text.withoutBlanks_append,
      Text.withoutBlanks_append, hcomment, if_neg Bool.false_ne_true, hlexeme,
      Text.withoutBlanks_comma, hrest,
      List.map_cons, List.map_cons, List.map_cons, List.intercalate_cons_cons, List.append_assoc]

end Nesting

end HouseStyle
