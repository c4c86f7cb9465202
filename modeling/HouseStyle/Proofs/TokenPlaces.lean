/-
HouseStyle.Proofs.TokenPlaces — tokens cover the text, and their places are places in it.

Two views of a text meet here. The token stream finds the place of a token by walking over the
lexemes in front of it; the rules about lines cut the same text at its line feeds. They agree:
`tokenize_partition` says that the lexemes cover the text without gap or overlap, `token_places`
that line, column and last line of a token are those of its characters in the text.

## How the proof goes

`streamFrom_eq_append` is all that is needed of the stream: a token between its neighbours is the
first token of what the ones in front leave over, and it stands behind their lexemes. The rest is
about texts. `Position.column_after` reads the column off the text in front, and
`Text.line_across` finds the line that goes across a cut of the text.
-/
import HouseStyle.Proofs.LineFeeds
import HouseStyle.Proofs.Texts
import HouseStyle.Token.Stream
import Mathlib.Algebra.GroupWithZero.Nat

namespace HouseStyle

variable {text : Text} {before after : List Token} {t : Token}

/-! ## 1. A token between its neighbours -/

namespace Token

theorem source_cons (t : Token) (ts : List Token) : source (t :: ts) = t.lexeme ++ source ts := rfl

/-- A token of a stream is the first one of what the tokens in front of it leave over, and stands
behind their lexemes. -/
theorem streamFrom_eq_append {p : Position} (h : streamFrom p text = before ++ t :: after) :
    ∃ c rest, text = source before ++ c :: rest ∧
      t = ⟨(next c rest).1, c :: (next c rest).2.taken, p.after (source before)⟩ ∧
      after = streamFrom (p.after (source before ++ t.lexeme)) (next c rest).2.rest := by
  induction before generalizing p text with
  | nil =>
    cases text with
    | nil => simp at h
    | cons c rest =>
      rw [streamFrom_cons, List.nil_append, List.cons.injEq] at h
      obtain ⟨rfl, rfl⟩ := h
      exact ⟨c, rest, rfl, rfl, rfl⟩
  | cons first before ih =>
    cases text with
    | nil => simp at h
    | cons c rest =>
      rw [streamFrom_cons, List.cons_append, List.cons.injEq] at h
      obtain ⟨hfirst, hrest⟩ := h
      obtain ⟨d, more, htext, ht, hafter⟩ := ih hrest
      have hlex : first.lexeme = c :: (next c rest).2.taken := by rw [← hfirst]
      refine ⟨d, more, ?_, ?_, ?_⟩
      · have hs := splits_next c rest
        unfold Cut.Splits at hs
        rw [source_cons, hlex, List.append_assoc, ← htext, List.cons_append, hs]
      · rw [ht, source_cons, hlex, Position.after_append]
      · rw [hafter, source_cons, hlex, List.append_assoc, Position.after_append _ (c :: _)]

/-- A token of a text is the first one of what some tokens in front of it leave over. -/
theorem exists_next_of_mem (h : t ∈ tokenize text) :
    ∃ c rest place, t = ⟨(next c rest).1, c :: (next c rest).2.taken, place⟩ := by
  obtain ⟨before, after, hs⟩ := List.append_of_mem h
  obtain ⟨c, rest, -, ht, -⟩ := streamFrom_eq_append hs
  exact ⟨c, rest, _, ht⟩

/-- Every token takes something of the text. -/
theorem lexeme_ne_nil (h : t ∈ tokenize text) : t.lexeme ≠ [] := by
  obtain ⟨c, rest, place, rfl⟩ := exists_next_of_mem h
  simp

/-- A token stands behind the text of the tokens in front of it. -/
theorem place_eq_after (h : tokenize text = before ++ t :: after) :
    t.place = ({} : Position).after (source before) := by
  obtain ⟨c, rest, -, rfl, -⟩ := streamFrom_eq_append h
  rfl

/-- The offset of a token is the length of the text in front of it. -/
theorem offset_eq_length (h : tokenize text = before ++ t :: after) :
    t.offset = (source before).length := by
  rw [offset, place_eq_after h, Position.offset_after, Nat.zero_add]

theorem text_eq_append (h : tokenize text = before ++ t :: after) :
    text = source before ++ (t.lexeme ++ source after) := by
  rw [← source_tokenize text, h]
  simp [source]

/-- The offset of a token counts the characters in front of it. -/
theorem take_offset (h : tokenize text = before ++ t :: after) :
    text.take t.offset = source before := by
  rw [offset_eq_length h, text_eq_append h, List.take_left]

/-- The text in front of the last character of a token. -/
theorem take_last (h : tokenize text = before ++ t :: after) :
    text.take (t.offset + t.lexeme.length - 1) = source before ++ t.lexeme.dropLast := by
  have hne : t.lexeme ≠ [] := lexeme_ne_nil (h ▸ List.mem_append_right _ List.mem_cons_self)
  have hpos := List.length_pos_iff.2 hne
  rw [Nat.add_sub_assoc hpos, offset_eq_length h, text_eq_append h, List.take_length_add_append,
    List.take_append_of_le_length (Nat.sub_le _ _), List.dropLast_eq_take]

theorem length_source (ts : List Token) : (source ts).length = (ts.map (·.lexeme.length)).sum := by
  induction ts with
  | nil => rfl
  | cons t ts ih => simp [source_cons, ih]

end Token

/-- **The tokens of a text partition it**: no lexeme is empty, every token starts where the lexemes
in front of it end, and all lexemes together are the text. -/
theorem tokenize_partition (text : Text) :
    (∀ t ∈ tokenize text, t.lexeme ≠ []) ∧
    (∀ i (h : i < (tokenize text).length),
      ((tokenize text)[i]).offset = (((tokenize text).take i).map (·.lexeme.length)).sum) ∧
    (tokenize text).flatMap (·.lexeme) = text := by
  refine ⟨fun t ht => Token.lexeme_ne_nil ht, fun i h => ?_, source_tokenize text⟩
  have hs : tokenize text =
      (tokenize text).take i ++ (tokenize text)[i] :: (tokenize text).drop (i + 1) := by
    rw [List.getElem_cons_drop, List.take_append_drop]
  rw [Token.offset_eq_length hs, Token.length_source]

/-! ## 2. Places and the text in front of them -/

/-- The offset behind the last line feed of a text; zero if there is none. -/
def Text.lineStart (t : Text) : Nat := t.length - t.reverse.idxOf '\n'

namespace Position

/-- The column behind a text counts from its last line feed, or goes on if it has none. -/
theorem column_after (p : Position) (t : Text) :
    (p.after t).column =
      if '\n' ∈ t then t.reverse.idxOf '\n' + 1 else p.column + t.length := by
  induction t generalizing p with
  | nil => simp
  | cons c t ih =>
    rw [after_cons, ih, List.reverse_cons, List.idxOf_append]
    by_cases ht : '\n' ∈ t
    · simp [ht]
    · by_cases hc : c = '\n'
      · subst hc
        simp [ht, next]
        omega
      · have hc' : ¬ '\n' = c := fun h => hc h.symm
        simp [ht, next, hc, hc']
        omega

/-- The column behind a text counts the characters behind its last line feed. -/
theorem column_after_start (t : Text) :
    (({} : Position).after t).column = t.reverse.idxOf '\n' + 1 := by
  rw [column_after]
  split
  · rfl
  · rename_i h
    rw [List.idxOf_eq_length (by simpa using h), List.length_reverse]
    exact Nat.add_comm 1 _

theorem column_eq_sub_lineStart (t : Text) :
    (({} : Position).after t).column = t.length - t.lineStart + 1 := by
  have hle := List.idxOf_le_length (a := '\n') (l := t.reverse)
  rw [List.length_reverse] at hle
  rw [column_after_start, Text.lineStart]
  omega

def Before (p q : Position) : Prop := p.line < q.line ∨ p.line = q.line ∧ p.column < q.column

theorem Before.trans {p q r : Position} (h : p.Before q) (h' : q.Before r) : p.Before r := by
  unfold Before at *
  omega

theorem before_next (p : Position) (c : Char) : p.Before (p.next c) := by
  unfold next
  split
  · exact .inl (Nat.lt_succ_self _)
  · exact .inr ⟨rfl, Nat.lt_succ_self _⟩

theorem before_after {p : Position} {t : Text} (h : t ≠ []) : p.Before (p.after t) := by
  induction t generalizing p with
  | nil => exact absurd rfl h
  | cons c t ih =>
    rw [after_cons]
    cases t with
    | nil => exact before_next p c
    | cons d t => exact (before_next p c).trans (ih (by simp))

end Position

namespace Token

/-- No token of a stream comes before the place where the stream starts. -/
theorem place_of_mem_streamFrom {p : Position} (h : t ∈ streamFrom p text) :
    t.place = p ∨ p.Before t.place := by
  obtain ⟨before, after, hs⟩ := List.append_of_mem h
  obtain ⟨c, rest, -, rfl, -⟩ := streamFrom_eq_append hs
  cases hb : source before with
  | nil => exact .inl rfl
  | cons d more => exact .inr (Position.before_after (by simp))

/-- Tokens come in reading order. -/
theorem pairwise_before_streamFrom (p : Position) (text : Text) :
    (streamFrom p text).Pairwise fun a b => a.place.Before b.place := by
  fun_induction streamFrom p text with
  | case1 => exact List.Pairwise.nil
  | case2 p c t lexeme ih =>
    refine List.Pairwise.cons (fun b hb => ?_) ih
    have hp : p.Before (p.after lexeme) := Position.before_after (by simp [lexeme])
    rcases place_of_mem_streamFrom hb with h | h
    · rw [h]
      exact hp
    · exact hp.trans h

/-- Tokens stand in reading order. -/
theorem pairwise_before (text : Text) :
    (tokenize text).Pairwise fun a b => a.place.Before b.place :=
  pairwise_before_streamFrom {} text

/-- No two tokens of a text share their line and column. -/
theorem nodup_places (text : Text) : ((tokenize text).map fun t => (t.line, t.column)).Nodup := by
  refine List.pairwise_map.2 ((pairwise_before text).imp fun {a b} h he => ?_)
  rw [Prod.mk.injEq] at he
  unfold Position.Before at h
  unfold line column at he
  omega

/-- The last line of a closed token is the line of its last character. -/
theorem endLine_eq (h : tokenize text = before ++ t :: after) (hk : t.kind ≠ .malformed) :
    t.endLine = 1 + Text.lineFeeds (source before ++ t.lexeme.dropLast) := by
  obtain ⟨c, rest, -, rfl, -⟩ := streamFrom_eq_append h
  have hl := lineFeeds_dropLast_next hk
  simp only [Text.lineFeeds] at hl
  simp only [Text.lineFeeds, endLine, line, Position.line_after, List.count_append, hl]
  split <;> omega

end Token

/-! ## 3. The line of a token -/

namespace Token

/-- The line of a token goes on from its column with the token and with what follows it. -/
theorem exists_line (h : tokenize text = before ++ t :: after) :
    ∃ lead, lead.length + 1 = t.column ∧ (text.splitOnP (· == '\n'))[t.line - 1]? =
      some (lead ++ (source (t :: after)).takeWhile (· != '\n')) := by
  refine ⟨((source before).reverse.takeWhile (· != '\n')).reverse, ?_, ?_⟩
  · rw [column, place_eq_after h, Position.column_after_start, List.length_reverse,
      Text.length_takeWhile_ne_lineFeed]
  · have hline : t.line - 1 = (source before).lineFeeds := by
      rw [line, place_eq_after h, Position.line_after]
      exact Nat.add_sub_cancel_left 1 _
    rw [hline, text_eq_append h, ← source_cons, Text.line_across]

/-- The line of a token, read from its column on, starts with the token up to its first line
feed. -/
theorem lexeme_on_line (h : tokenize text = before ++ t :: after) :
    ∃ line, (text.splitOnP (· == '\n'))[t.line - 1]? = some line ∧
      t.lexeme.takeWhile (· != '\n') <+: line.drop (t.column - 1) := by
  obtain ⟨lead, hlead, hline⟩ := exists_line h
  refine ⟨_, hline, ?_⟩
  rw [← hlead, Nat.add_sub_cancel, List.drop_left, source_cons]
  exact Text.takeWhile_prefix_append _ _ _

end Token

/-- **The place of a token is a place in the text**: its line counts the line feeds in front of it,
its column the characters behind the last of them, and its last line, unless it is never closed,
the line feeds in front of its last character. So tokens stand in reading order, no two at the same
place, and each can be read off the line and column it claims. -/
theorem token_places (text : Text) :
    (∀ t ∈ tokenize text,
      t.line = 1 + Text.lineFeeds (text.take t.offset) ∧
      t.column = t.offset - Text.lineStart (text.take t.offset) + 1 ∧
      (t.kind ≠ .malformed →
        t.endLine = 1 + Text.lineFeeds (text.take (t.offset + t.lexeme.length - 1))) ∧
      ∃ line, (text.splitOnP (· == '\n'))[t.line - 1]? = some line ∧
        t.lexeme.takeWhile (· != '\n') <+: line.drop (t.column - 1)) ∧
    ((tokenize text).map fun t => (t.line, t.column)).Nodup ∧
    (tokenize text).Pairwise fun a b =>
      a.line < b.line ∨ a.line = b.line ∧ a.column < b.column := by
  refine ⟨fun t ht => ?_, Token.nodup_places text, Token.pairwise_before text⟩
  obtain ⟨before, after, h⟩ := List.append_of_mem ht
  rw [Token.take_offset h]
  refine ⟨?_, ?_, fun hk => ?_, Token.lexeme_on_line h⟩
  · rw [Token.line, Token.place_eq_after h, Position.line_after]
  · rw [Token.column, Token.place_eq_after h, Position.column_eq_sub_lineStart,
      Token.offset_eq_length h]
  · rw [Token.endLine_eq h hk, Token.take_last h]

end HouseStyle
