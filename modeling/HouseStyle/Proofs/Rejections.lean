/-
HouseStyle.Proofs.Rejections — how far a text that is no selector could still become one.

A text that is rejected was read up to the place where no piece can be read, or up to its end
(`Reads`). The column of the rejection marks that place; of a text that ends too early it marks the
last piece, behind which nothing would have been a selector. In either case what stands in front of
the column is the beginning of a selector (`rejected_behind_viable`): nothing has to be taken back,
only what comes next has to be something else.

## How the proof goes

The reader looks at what follows a piece before it takes the piece, so it is not clear that it would
read the same in front of another text. But the pieces are words of their terminals, in an order
that the grammar allows, and every front of such a row can be completed, by an element if no
compound has begun (`Reads.exists_fits`). The completed row is a cut of its text, and what can be
cut is read, in whatever way (`ofText_eq_ok_iff`).
-/
import HouseStyle.Proofs.SelectorLanguage
import HouseStyle.Proofs.TokenPlaces

namespace HouseStyle.Selector

/-! ## 1. What is read -/

/-- These pieces are read off the front of a text, and none can be read off what is left. -/
inductive Reads : Bool → Text → List Piece → Text → Prop where
  | stops {begun : Bool} {left : Text} (stuck : nextTerminal? begun left = none) :
      Reads begun left [] left
  | takes {begun : Bool} {T : Terminal} {w behind left : Text} {row : List Piece}
      (next : nextTerminal? begun (w ++ behind) = some (T, w.length))
      (more : Reads T.begins behind row left) : Reads begun (w ++ behind) (⟨T, w⟩ :: row) left

section

variable {begun : Bool} {t left : Text} {row front : List Piece}

/-- A piece that is read is a word of a terminal that may come. -/
theorem mem_language_of_next {T : Terminal} {w behind : Text}
    (h : nextTerminal? begun (w ++ behind) = some (T, w.length)) :
    T.mayCome begun = true ∧ w ∈ T.language := by
  obtain ⟨hcome, v, rest, hv, ht, hlength⟩ := nextTerminal?_eq_some h
  obtain ⟨rfl, -⟩ := List.append_inj ht hlength
  exact ⟨hcome, hv⟩

/-- Something completes a selector, whether a compound has begun or not. -/
theorem exists_fits (begun : Bool) : ∃ more row, Fits begun more row := by
  cases begun with
  | true => exact ⟨[], [], rfl, by simp, rfl⟩
  | false =>
    let element : Piece := ⟨.typeName, ['a']⟩
    have hword : element.text ∈ element.terminal.language :=
      mem_optional_mul.2 (.inl (cons_mem_single_mul (by decide) (Language.nil_mem_kstar _)))
    have hempty : Fits true [] [] := ⟨rfl, by simp, rfl⟩
    exact ⟨_, [element], .cons rfl hword hempty⟩

namespace Reads

/-- What was read of a text and what was left make up the text. -/
theorem covers (h : Reads begun t row left) : row.flatMap Piece.text ++ left = t := by
  induction h with
  | stops => rfl
  | takes _ _ ih => rw [List.flatMap_cons, List.append_assoc, ih]

/-- Every front of what is read can be completed. -/
theorem exists_fits (h : Reads begun t row left) (hfront : front <+: row) :
    ∃ more rest, Fits begun (front.flatMap Piece.text ++ more) (front ++ rest) := by
  induction h generalizing front with
  | @stops begun left _ =>
    obtain rfl := List.prefix_nil.1 hfront
    exact Selector.exists_fits begun
  | @takes begun T w behind left row next _ ih =>
    cases front with
    | nil => exact Selector.exists_fits begun
    | cons piece front =>
      obtain ⟨rfl, hprefix⟩ := List.cons_prefix_cons.1 hfront
      obtain ⟨hcome, hword⟩ := mem_language_of_next next
      obtain ⟨more, rest, hfits⟩ := ih hprefix
      refine ⟨more, rest, ?_⟩
      rw [List.flatMap_cons, List.append_assoc]
      exact .cons hcome hword hfits

end Reads

/-! ## 2. The column of a rejection -/

/-- A rejected text is read up to the place of the rejection. If it is read up to its end, the
rejection names the last piece, or what stood in front of the text if there is none. -/
theorem exists_reads_of_error {p : Position} {last : Nat} {e : Rejection}
    (h : piecesFrom p last begun t = .error e) :
    ∃ row left, Reads begun t row left ∧
      ((left ≠ [] ∧ e.column = (p.after (row.flatMap Piece.text)).column) ∨
        left = [] ∧ ((row = [] ∧ e.column = last) ∨
          ∃ front piece, row = front ++ [piece] ∧
            e.column = (p.after (front.flatMap Piece.text)).column)) := by
  induction p, last, begun, t using piecesFrom.induct with
  | case1 p last =>
    rw [piecesFrom, if_pos rfl] at h
    cases h
  | case2 p last begun hbegun =>
    rw [piecesFrom, if_neg hbegun] at h
    cases h
    refine ⟨[], [], .stops ?_, .inr ⟨rfl, .inl ⟨rfl, rfl⟩⟩⟩
    rw [Bool.not_eq_true] at hbegun
    rw [hbegun]
    rfl
  | case3 p last begun c rest hnone =>
    rw [piecesFrom, hnone] at h
    cases h
    exact ⟨[], c :: rest, .stops hnone, .inl ⟨List.cons_ne_nil _ _, rfl⟩⟩
  | case4 p last begun c rest T n hread text =>
    rename_i ih
    rw [piecesFrom, hread] at h
    obtain ⟨hcome, w, behind, hword, ht, rfl⟩ := nextTerminal?_eq_some hread
    obtain ⟨d, v, rfl, -⟩ := Terminal.exists_cons_of_mem hword
    obtain ⟨rfl, hrest⟩ : c = d ∧ rest = v ++ behind := List.cons.inj ht
    subst hrest
    have hnext : nextTerminal? begun ((c :: v) ++ behind) = some (T, (c :: v).length) := hread
    have htake : (v ++ behind).take ((c :: v).length - 1) = v := List.take_left
    have hdrop : (v ++ behind).drop ((c :: v).length - 1) = behind := List.drop_left
    dsimp only at h
    rw [htake, hdrop] at h
    simp only [text, htake, hdrop] at ih
    cases hmore : piecesFrom (p.after (c :: v)) p.column T.begins behind with
    | ok more =>
      rw [hmore] at h
      cases h
    | error e' =>
      rw [hmore] at h
      cases h
      obtain ⟨row, left, hreads, hcolumn⟩ := ih hmore
      have hafter (front : List Piece) :
          (p.after (c :: v)).after (front.flatMap Piece.text) =
            p.after ((⟨T, c :: v⟩ :: front).flatMap Piece.text) := by
        rw [List.flatMap_cons, Position.after_append]
      refine ⟨⟨T, c :: v⟩ :: row, left, .takes hnext hreads, ?_⟩
      rcases hcolumn with ⟨hne, hcolumn⟩ | ⟨hnil, ⟨rfl, hcolumn⟩ | ⟨front, piece, rfl, hcolumn⟩⟩
      · exact .inl ⟨hne, by rw [hcolumn, hafter]⟩
      · exact .inr ⟨hnil, .inr ⟨[], ⟨T, c :: v⟩, rfl, hcolumn⟩⟩
      · exact .inr ⟨hnil, .inr ⟨⟨T, c :: v⟩ :: front, piece, rfl, by rw [hcolumn, hafter]⟩⟩

end

/-! ## 3. What stands in front of a rejection -/

/-- **What stands in front of a rejection is the beginning of a selector.** A text on one line that
is rejected was read, piece by piece, up to the place where no piece can be read or up to its end.
The column lies in the text or right behind it; the characters in front of it are all the pieces
that were read, or all but the last if the text was read up to its end; and they can be completed
to a selector. -/
theorem rejected_behind_viable (t : Text) (hline : '\n' ∉ t) (e : Rejection)
    (h : Structure.ofText t = .error e) :
    1 ≤ e.column ∧ e.column ≤ t.length + 1 ∧
    (∃ more s, Structure.ofText (t.take (e.column - 1) ++ more) = .ok s) ∧
    ∃ row left, Reads false t row left ∧
      (left ≠ [] → t.take (e.column - 1) = row.flatMap Piece.text) ∧
      (left = [] → t.take (e.column - 1) = row.dropLast.flatMap Piece.text) := by
  have hpieces : pieces t = .error e := by
    unfold Structure.ofText at h
    cases hrow : pieces t with
    | error e' =>
      rw [hrow] at h
      exact congrArg Except.error (Except.error.inj h)
    | ok row =>
      rw [hrow] at h
      cases h
  obtain ⟨row, left, hreads, hcolumn⟩ := exists_reads_of_error hpieces
  -- in either case the column stands behind a front of what was read
  obtain ⟨front, hfront, hcolumn, hrow⟩ : ∃ front, front <+: row ∧
      e.column = (({} : Position).after (front.flatMap Piece.text)).column ∧
      front = if left = [] then row.dropLast else row := by
    rcases hcolumn with ⟨hne, hcolumn⟩ | ⟨hnil, ⟨rfl, hcolumn⟩ | ⟨front, piece, rfl, hcolumn⟩⟩
    · exact ⟨row, List.prefix_rfl, hcolumn, by rw [if_neg hne]⟩
    · exact ⟨[], List.prefix_rfl, hcolumn, by rw [if_pos hnil]; rfl⟩
    · exact ⟨front, List.prefix_append _ _, hcolumn, by rw [if_pos hnil, List.dropLast_concat]⟩
  obtain ⟨back, hback⟩ := hfront
  have ht : t = front.flatMap Piece.text ++ (back.flatMap Piece.text ++ left) := by
    rw [← List.append_assoc, ← List.flatMap_append, hback, hreads.covers]
  have hplace : e.column = (front.flatMap Piece.text).length + 1 := by
    have hfrontLine : '\n' ∉ front.flatMap Piece.text := fun hmem =>
      hline (ht ▸ List.mem_append_left _ hmem)
    rw [hcolumn, Position.column_after, if_neg hfrontLine, Nat.add_comm]
  have htake : t.take (e.column - 1) = front.flatMap Piece.text := by
    rw [hplace, Nat.add_sub_cancel, ht, List.take_left]
  refine ⟨by omega, ?_, ?_, row, left, hreads, fun hne => ?_, fun hnil => ?_⟩
  · have hlength := congrArg List.length ht
    rw [List.length_append] at hlength
    omega
  · obtain ⟨more, rest, hfits⟩ := hreads.exists_fits ⟨back, hback⟩
    rw [htake]
    exact ⟨more, _, ofText_eq_ok_iff.2 ⟨_, isCut_iff.2 hfits, rfl⟩⟩
  · rw [htake, hrow, if_neg hne]
  · rw [htake, hrow, if_pos hnil]

/-- A second combinator behind a combinator is rejected, and what stands in front of it is all that
was read. -/
theorem rejected_behind_viable_child :
    Structure.ofText ".A >> .B".toList = .error ⟨5⟩ ∧
      (∃ more s, Structure.ofText (".A >".toList ++ more) = .ok s) ∧
      ∃ row left, Reads false ".A >> .B".toList row left ∧
        (left ≠ [] → ".A >".toList = row.flatMap Piece.text) := by
  have hrejected : Structure.ofText ".A >> .B".toList = .error ⟨5⟩ := by decide +kernel
  obtain ⟨-, -, hviable, row, left, hreads, hall, -⟩ :=
    rejected_behind_viable ".A >> .B".toList (by decide) ⟨5⟩ hrejected
  exact ⟨hrejected, hviable, row, left, hreads, hall⟩

end HouseStyle.Selector
