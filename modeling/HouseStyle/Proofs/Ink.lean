/-
HouseStyle.Proofs.Ink — which lines of a text hold more than blanks, told from its tokens.

The rules about blank lines ask about lines, and a stylesheet is made of tokens. The two meet in the
characters that are no blanks (ink): a line holds more than blanks exactly if a character of some
token stands there that is none (`hasInk_iff`). Tokens come in order, and so do the lines that they
put ink on (`Inks.le_line`).

## How the proof goes

A line is what lies between two line feeds, so a character is on it if as many line feeds stand in
front of the character as in front of the line (`Text.mem_iff_of_getElem?_splitOnP`). The characters
in front of one are those of the tokens in front of its own, and some of its own
(`exists_token_of_source`).
-/
import HouseStyle.Proofs.Containment

namespace HouseStyle

/-! ## 1. Lines of a text -/

namespace Text

theorem isBlank_of_return (c : Char) (h : (c == '\r') = true) : isBlank c = true := by
  rw [eq_of_beq h]
  decide

/-- A line is a piece between line feeds, but for its carriage returns. -/
theorem line?_lines_of_piece {t piece : Text} {number : Nat} (hnumber : 1 ≤ number)
    (h : (t.splitOnP (· == '\n'))[number - 1]? = some piece) :
    Lines.line? (lines t) number = some (dropEndWhile (· == '\r') piece) := by
  unfold Lines.line? lines
  rw [if_neg (by omega), List.getElem?_map, h]
  rfl

/-- A line and the piece of text that it was trimmed from are blank alike: only carriage returns are
taken off. -/
theorem piece_of_line {t line : Text} {number : Nat}
    (h : Lines.line? (lines t) number = some line) :
    1 ≤ number ∧ ∃ piece, (t.splitOnP (· == '\n'))[number - 1]? = some piece ∧
      line.all isBlank = piece.all isBlank := by
  unfold Lines.line? lines at h
  split at h
  · cases h
  · rw [List.getElem?_map] at h
    obtain ⟨piece, hpiece, rfl⟩ := Option.map_eq_some_iff.1 h
    exact ⟨by omega, piece, hpiece, all_dropEndWhile isBlank_of_return piece⟩

end Text

namespace Lines

def HasInk (lines : List Text) (number : Nat) : Prop :=
  ∃ line, line? lines number = some line ∧ line.all isBlank = false

/-- A line that exists is blank or has ink. -/
theorem isBlankLine_iff {lines : List Text} {number : Nat} :
    isBlankLine lines number = true ↔
      1 ≤ number ∧ number ≤ lines.length ∧ ¬HasInk lines number := by
  unfold isBlankLine HasInk line?
  by_cases hzero : number = 0
  · simp [hzero]
  · rw [if_neg hzero]
    cases hline : lines[number - 1]? with
    | none =>
      have hlength := List.getElem?_eq_none_iff.1 hline
      simp only [Bool.false_eq_true, false_iff]
      omega
    | some line =>
      have hlength := (List.getElem?_eq_some_iff.1 hline).1
      have hrange : 1 ≤ number ∧ number ≤ lines.length := by omega
      simp [hrange]

/-- Some line between two others holds more than blanks if one of them has ink. -/
theorem contentBetween_iff {lines : List Text} {first last : Nat} :
    contentBetween lines first last = true ↔
      ∃ number, first < number ∧ number < last ∧ HasInk lines number := by
  unfold contentBetween between
  simp only [List.any_eq_true, Bool.not_eq_true', List.mem_iff_getElem?, List.getElem?_take,
    List.getElem?_drop]
  constructor
  · rintro ⟨line, ⟨k, hk⟩, hink⟩
    split at hk
    · exact ⟨first + k + 1, by omega, by omega, line, hk, hink⟩
    · cases hk
  · rintro ⟨number, hfirst, hlast, line, hline, hink⟩
    unfold line? at hline
    rw [if_neg (by omega)] at hline
    refine ⟨line, ⟨number - 1 - first, ?_⟩, hink⟩
    rw [if_pos (by omega), Nat.add_sub_cancel' (by omega)]
    exact hline

end Lines

/-! ## 2. Ink of tokens -/

/-- A character of the token that is no blank stands on the line. -/
def Token.Inks (t : Token) (line : Nat) : Prop :=
  ∃ front c back, t.lexeme = front ++ c :: back ∧ isBlank c = false ∧
    t.line + Text.lineFeeds front = line

namespace Token

variable {text : Text} {t u : Token} {i j number : Nat}

/-- Every character of a row of tokens is one of some token. -/
theorem exists_token_of_source {ts : List Token} {u v : Text} {c : Char}
    (h : source ts = u ++ c :: v) :
    ∃ before t after front back, ts = before ++ t :: after ∧ u = source before ++ front ∧
      t.lexeme = front ++ c :: back := by
  induction ts generalizing u with
  | nil => simp [source] at h
  | cons t ts ih =>
    rw [source_cons, List.append_eq_append_iff] at h
    rcases h with ⟨u', rfl, h⟩ | ⟨front, ht, h⟩
    · obtain ⟨before, t', after, front, back, rfl, rfl, ht'⟩ := ih h
      exact ⟨t :: before, t', after, front, back, rfl, by simp [source_cons], ht'⟩
    · cases front with
      | nil =>
        obtain ⟨before, t', after, front, back, rfl, hu, ht'⟩ := ih (u := []) h.symm
        refine ⟨t :: before, t', after, front, back, rfl, ?_, ht'⟩
        rw [source_cons, List.append_assoc, ← hu, ht]
        simp
      | cons d back =>
        obtain ⟨rfl, -⟩ := List.cons_eq_cons.1 h
        exact ⟨[], t, ts, u, back, rfl, rfl, ht⟩

/-- The line of a token counts the line feeds in front of it. -/
theorem line_eq_lineFeeds {before after : List Token} (h : tokenize text = before ++ t :: after) :
    t.line = 1 + Text.lineFeeds (source before) := by
  rw [line, place_eq_after h, Position.line_after]

/-- A line of a text has ink exactly if a token puts some on it. -/
theorem hasInk_iff :
    Lines.HasInk (Text.lines text) number ↔ ∃ t ∈ tokenize text, t.Inks number := by
  constructor
  · rintro ⟨row, hrow, hink⟩
    obtain ⟨hnumber, piece, hpiece, hblank⟩ := Text.piece_of_line hrow
    rw [hblank, List.all_eq_false] at hink
    obtain ⟨c, hc, hink⟩ := hink
    obtain ⟨-, u, v, htext, hcount⟩ := (Text.mem_iff_of_getElem?_splitOnP hpiece).1 hc
    obtain ⟨before, t, after, front, back, hts, rfl, hlexeme⟩ :=
      exists_token_of_source ((source_tokenize text).trans htext)
    refine ⟨t, by simp [hts], front, c, back, hlexeme, by simpa using hink, ?_⟩
    have hfeeds : Text.lineFeeds (source before ++ front) = number - 1 := hcount
    rw [line_eq_lineFeeds hts]
    simp only [Text.lineFeeds, List.count_append] at hfeeds ⊢
    omega
  · rintro ⟨t, ht, front, c, back, hlexeme, hink, hnumber⟩
    obtain ⟨before, after, hts⟩ := List.append_of_mem ht
    have htext : text = (source before ++ front) ++ c :: (back ++ source after) := by
      rw [text_eq_append hts, hlexeme]
      simp
    rw [line_eq_lineFeeds hts] at hnumber
    have hcount : (source before ++ front).countP (· == '\n') = number - 1 := by
      simp only [Text.lineFeeds, List.count] at hnumber
      rw [List.countP_append]
      omega
    have hpiece := Text.splitOnP_append_getElem? (· == '\n') (source before ++ front)
      (c :: (back ++ source after))
    rw [← htext, hcount] at hpiece
    have hc : c ≠ '\n' := by
      rintro rfl
      exact absurd hink (by decide)
    refine ⟨_, Text.line?_lines_of_piece (by omega) hpiece, ?_⟩
    rw [Text.all_dropEndWhile Text.isBlank_of_return, List.all_eq_false]
    refine ⟨c, ?_, by simpa using hink⟩
    exact (Text.mem_iff_of_getElem?_splitOnP hpiece).2 ⟨by simpa using hc, _, _, htext, hcount⟩

theorem Inks.line_le (h : t.Inks number) : t.line ≤ number := by
  obtain ⟨front, c, back, -, -, rfl⟩ := h
  exact Nat.le_add_right _ _

theorem pairwise_lines_streamFrom (p : Position) (text : Text) :
    (streamFrom p text).Pairwise fun a b => a.line + Text.lineFeeds a.lexeme ≤ b.line := by
  fun_induction streamFrom p text with
  | case1 => exact List.Pairwise.nil
  | case2 p c t lexeme ih =>
    refine List.Pairwise.cons (fun b hb => ?_) ih
    have hline : (p.after lexeme).line = p.line + Text.lineFeeds lexeme := Position.line_after p _
    show p.line + Text.lineFeeds lexeme ≤ b.place.line
    rcases place_of_mem_streamFrom hb with h | h
    · rw [h, hline]
    · unfold Position.Before at h
      omega

/-- A token ends in front of what follows it. -/
theorem line_add_lineFeeds_le (ht : (tokenize text)[i]? = some t)
    (hu : (tokenize text)[j]? = some u) (h : i < j) :
    t.line + Text.lineFeeds t.lexeme ≤ u.line := by
  obtain ⟨hi, rfl⟩ := List.getElem?_eq_some_iff.1 ht
  obtain ⟨hj, rfl⟩ := List.getElem?_eq_some_iff.1 hu
  exact List.pairwise_iff_getElem.1 (pairwise_lines_streamFrom {} text) i j hi hj h

/-- A token puts no ink behind the line on which a later token starts. -/
theorem Inks.le_line (hinks : t.Inks number) (ht : (tokenize text)[i]? = some t)
    (hu : (tokenize text)[j]? = some u) (h : i < j) : number ≤ u.line := by
  obtain ⟨front, c, back, hlexeme, -, rfl⟩ := hinks
  refine Nat.le_trans ?_ (line_add_lineFeeds_le ht hu h)
  rw [hlexeme]
  simp only [Text.lineFeeds, List.count_append]
  omega

/-- A token ends where a later one starts, or further up. -/
theorem endLine_le_line (ht : (tokenize text)[i]? = some t)
    (hu : (tokenize text)[j]? = some u) (h : i < j) : t.endLine ≤ u.line :=
  Nat.le_trans t.endLine_le (line_add_lineFeeds_le ht hu h)

end Token

end HouseStyle
