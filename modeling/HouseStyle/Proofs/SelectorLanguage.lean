/-
HouseStyle.Proofs.SelectorLanguage — what is read as a selector, and that it is read in one way.

A text is a selector if it can be cut into words of terminals whose row is in the grammar (`IsCut`).
The reader goes from left to right and never takes back what it has taken, and still it finds a cut
if there is one: what a piece may be and where it ends is settled by what may come behind it. As the
reader finds every cut of a text, a text has at most one. The structure of a selector is the image
of its cut (`Compound.ofPieces`).

## How the proof goes

`Fits` is `IsCut` for the rest of a text, with the bit that the grammar keeps. What the reader
returns fits (`fits_of_piecesFrom`), by induction on the reader; what fits is what the reader
returns (`piecesFrom_of_fits`), by induction on the row.
-/
import HouseStyle.Proofs.Terminals

namespace HouseStyle.Selector

/-! ## 1. Cuts -/

/-- The text cut into words of terminals, none of them empty, that are a selector. -/
structure IsCut (t : Text) (row : List Piece) : Prop where
  covers : row.flatMap Piece.text = t
  nonempty : ∀ piece ∈ row, piece.text ≠ []
  word : ∀ piece ∈ row, piece.text ∈ piece.terminal.language
  derives : row.map Piece.terminal ∈ start

/-- The rest of a text cut into words of terminals that complete a selector. -/
structure Fits (begun : Bool) (t : Text) (row : List Piece) : Prop where
  covers : row.flatMap Piece.text = t
  word : ∀ piece ∈ row, piece.text ∈ piece.terminal.language
  accepted : accepts begun (row.map Piece.terminal) = true

theorem isCut_iff {t : Text} {row : List Piece} : IsCut t row ↔ Fits false t row := by
  constructor
  · intro h
    exact ⟨h.covers, h.word, mem_start_iff.1 h.derives⟩
  · intro h
    refine ⟨h.covers, fun piece hpiece => ?_, h.word, mem_start_iff.2 h.accepted⟩
    obtain ⟨c, v, he, -⟩ := Terminal.exists_cons_of_mem (h.word piece hpiece)
    rw [he]
    exact List.cons_ne_nil c v

namespace Fits

variable {begun : Bool} {t : Text} {row : List Piece} {piece : Piece}

theorem cons (hcome : piece.terminal.mayCome begun = true)
    (hword : piece.text ∈ piece.terminal.language) (h : Fits piece.terminal.begins t row) :
    Fits begun (piece.text ++ t) (piece :: row) where
  covers := by rw [List.flatMap_cons, h.covers]
  word := List.forall_mem_cons.2 ⟨hword, h.word⟩
  accepted := accepts_cons.2 ⟨hcome, h.accepted⟩

theorem of_cons (h : Fits begun t (piece :: row)) :
    piece.terminal.mayCome begun = true ∧ piece.text ∈ piece.terminal.language ∧
      ∃ rest, t = piece.text ++ rest ∧ Fits piece.terminal.begins rest row := by
  obtain ⟨hcovers, hword, haccepted⟩ := h
  obtain ⟨hpiece, hword⟩ := List.forall_mem_cons.1 hword
  obtain ⟨hcome, haccepted⟩ := accepts_cons.1 haccepted
  exact ⟨hcome, hpiece, row.flatMap Piece.text, hcovers.symm, rfl, hword, haccepted⟩

/-- What fits goes on with a character that may come. -/
theorem follows (h : Fits begun t row) : Follows begun t := by
  cases row with
  | nil =>
    obtain rfl : [] = t := h.covers
    rintro _ ⟨⟩
  | cons piece row =>
    obtain ⟨hcome, hword, rest, rfl, -⟩ := h.of_cons
    obtain ⟨c, v, he, hc⟩ := Terminal.exists_cons_of_mem hword
    rw [he]
    rintro _ ⟨⟩
    exact Terminal.mayFollow_of_opens hcome hc

end Fits

/-! ## 2. What is read fits, and what fits is read -/

/-- What the reader accepts is a cut into words of the terminals, in an order that the grammar
allows. -/
theorem fits_of_piecesFrom {p : Position} {last : Nat} {begun : Bool} {t : Text}
    {row : List Piece} (h : piecesFrom p last begun t = .ok row) : Fits begun t row := by
  induction p, last, begun, t using piecesFrom.induct generalizing row with
  | case1 p last =>
    rw [piecesFrom, if_pos rfl] at h
    cases h
    exact ⟨rfl, by simp, rfl⟩
  | case2 p last begun hbegun =>
    rw [piecesFrom, if_neg hbegun] at h
    cases h
  | case3 p last begun c rest hnone =>
    rw [piecesFrom, hnone] at h
    cases h
  | case4 p last begun c rest T n hread text =>
    rename_i ih
    rw [piecesFrom, hread] at h
    obtain ⟨hcome, w, behind, hword, ht, rfl⟩ := nextTerminal?_eq_some hread
    obtain ⟨d, v, rfl, -⟩ := Terminal.exists_cons_of_mem hword
    obtain ⟨rfl, hrest⟩ : c = d ∧ rest = v ++ behind := List.cons.inj ht
    subst hrest
    have htake : (v ++ behind).take ((c :: v).length - 1) = v := List.take_left
    have hdrop : (v ++ behind).drop ((c :: v).length - 1) = behind := List.drop_left
    dsimp only at h
    rw [htake, hdrop] at h
    cases hmore : piecesFrom (p.after (c :: v)) p.column T.begins behind with
    | error e =>
      rw [hmore] at h
      cases h
    | ok more =>
      rw [hmore] at h
      cases h
      simp only [text, htake, hdrop] at ih
      let piece : Piece := ⟨T, c :: v⟩
      have hpiece : piece.text ∈ piece.terminal.language := hword
      exact Fits.cons hcome hpiece (ih hmore)

/-- The reader finds every cut that there is. -/
theorem piecesFrom_of_fits {begun : Bool} {t : Text} {row : List Piece} (h : Fits begun t row)
    (p : Position) (last : Nat) : piecesFrom p last begun t = .ok row := by
  induction row generalizing begun t p last with
  | nil =>
    obtain ⟨rfl, -, haccepted⟩ := h
    obtain rfl : begun = true := haccepted
    rw [List.flatMap_nil, piecesFrom, if_pos rfl]
  | cons piece row ih =>
    obtain ⟨T, w⟩ := piece
    obtain ⟨hcome, hword, rest, rfl, hrest⟩ := h.of_cons
    have hread := nextTerminal?_append hcome hword hrest.follows
    obtain ⟨c, v, rfl, -⟩ := Terminal.exists_cons_of_mem hword
    have htake : (v ++ rest).take ((c :: v).length - 1) = v := List.take_left
    have hdrop : (v ++ rest).drop ((c :: v).length - 1) = rest := List.drop_left
    rw [List.cons_append] at hread ⊢
    rw [piecesFrom, hread]
    dsimp only
    rw [htake, hdrop, ih hrest]
    rfl

/-- The reader accepts a text exactly if it has a cut, and gives that one. -/
theorem pieces_eq_ok_iff {t : Text} {row : List Piece} : pieces t = .ok row ↔ IsCut t row := by
  rw [isCut_iff]
  constructor
  · exact fits_of_piecesFrom
  · intro h
    exact piecesFrom_of_fits h {} 1

/-! ## 3. The image of a cut -/

def Piece.combinator? (piece : Piece) : Option Combinator :=
  match piece.terminal with
  | .combinator c => some c
  | _ => none

/-- The texts of the pieces of a terminal, in order, without their first `sigil` characters. -/
def bodies (T : Terminal) (sigil : Nat) (group : List Piece) : List Text :=
  (group.filter (·.terminal == T)).map fun piece => piece.text.drop sigil

/-- The compound of a run of simple selectors. -/
def Compound.ofPieces (group : List Piece) : Compound where
  element := ((group.find? (·.terminal.isHead)).map Piece.text).getD []
  classes := bodies .className 1 group
  ids := bodies .id 1 group
  attributes := (bodies .attribute 0 group).map Attribute.ofText
  pseudoClasses := bodies .pseudoClass 1 group
  pseudoElements := bodies .pseudoElement 2 group

theorem Compound.ofPieces_cons {piece : Piece} (h : piece.terminal.isCombinator = false)
    (group : List Piece) :
    Compound.ofPieces (piece :: group) = (Compound.ofPieces group).prepend piece := by
  obtain ⟨T, w⟩ := piece
  cases T with
  | combinator c => cases h
  | _ => simp [Compound.ofPieces, Compound.prepend, bodies, Terminal.isHead]

/-- Gathering splits a row at its combinators. -/
theorem gather_eq (row : List Piece) :
    (gather row).1 :: (gather row).2.map Prod.snd =
        (row.splitOnP (·.terminal.isCombinator)).map Compound.ofPieces ∧
      (gather row).2.map Prod.fst = row.filterMap Piece.combinator? := by
  induction row with
  | nil => exact ⟨rfl, rfl⟩
  | cons piece row ih =>
    obtain ⟨ihCompounds, ihCombinators⟩ := ih
    obtain ⟨T, w⟩ := piece
    by_cases hT : T.isCombinator = true
    · cases T with
      | combinator c =>
        rw [Text.splitOnP_cons_of_pos (p := fun piece : Piece => piece.terminal.isCombinator) hT]
        exact ⟨congrArg (List.cons _) ihCompounds, congrArg (List.cons c) ihCombinators⟩
      | _ => cases hT
    · have hstep : gather (⟨T, w⟩ :: row) = ((gather row).1.prepend ⟨T, w⟩, (gather row).2) ∧
          Piece.combinator? ⟨T, w⟩ = none := by
        cases T with
        | combinator c => exact absurd rfl hT
        | _ => exact ⟨rfl, rfl⟩
      have hpiece : (⟨T, w⟩ : Piece).terminal.isCombinator = false := Bool.eq_false_iff.2 hT
      obtain ⟨group, groups, hgroups, hcons⟩ :=
        Text.exists_splitOnP_cons (p := fun piece : Piece => piece.terminal.isCombinator) hpiece row
      rw [hstep.1, hcons, List.filterMap_cons_none hstep.2]
      refine ⟨?_, ihCombinators⟩
      rw [hgroups, List.map_cons, List.cons.injEq] at ihCompounds
      obtain ⟨hfirst, hmore⟩ := ihCompounds
      rw [hfirst, hmore, ← Compound.ofPieces_cons hpiece]
      rfl

/-! ## 4. The language of selectors -/

/-- The structure of a text is that of its cut. -/
theorem ofText_eq_ok_iff {t : Text} {s : Structure} :
    Structure.ofText t = .ok s ↔ ∃ row, IsCut t row ∧ s = .ofPieces row := by
  unfold Structure.ofText
  constructor
  · intro h
    cases hrow : pieces t with
    | error e =>
      rw [hrow] at h
      cases h
    | ok row =>
      rw [hrow] at h
      cases h
      exact ⟨row, pieces_eq_ok_iff.1 hrow, rfl⟩
  · rintro ⟨row, hcut, rfl⟩
    rw [pieces_eq_ok_iff.2 hcut]
    rfl

/-- A text has at most one cut. -/
theorem IsCut.unique {t : Text} {row row' : List Piece} (h : IsCut t row) (h' : IsCut t row') :
    row = row' :=
  Except.ok.inj ((pieces_eq_ok_iff.2 h).symm.trans (pieces_eq_ok_iff.2 h'))

/-- **The reader accepts the language of the grammar, and the grammar is unambiguous.** A text has a
structure if and only if it can be cut into non-empty words of terminals whose row the grammar
derives; there is one such cut, and the structure is its image: a compound for every run between
combinators, with its element and with everything else in order and without its sigil, and the
combinators in order, one fewer than there are compounds. -/
theorem ofText_isCut (t : Text) :
    ((∃ s, Structure.ofText t = .ok s) ↔ ∃ row, IsCut t row) ∧
      (∀ row row', IsCut t row → IsCut t row' → row = row') ∧
      ∀ s row, Structure.ofText t = .ok s → IsCut t row →
        s.compounds = (row.splitOnP (·.terminal.isCombinator)).map Compound.ofPieces ∧
          s.combinators = row.filterMap Piece.combinator? ∧
          s.compounds.length = s.combinators.length + 1 := by
  refine ⟨⟨?_, ?_⟩, fun row row' h h' => h.unique h', ?_⟩
  · rintro ⟨s, hs⟩
    obtain ⟨row, hcut, -⟩ := ofText_eq_ok_iff.1 hs
    exact ⟨row, hcut⟩
  · rintro ⟨row, hcut⟩
    exact ⟨.ofPieces row, ofText_eq_ok_iff.2 ⟨row, hcut, rfl⟩⟩
  · intro s row hs hcut
    obtain ⟨row', hcut', rfl⟩ := ofText_eq_ok_iff.1 hs
    obtain rfl := hcut.unique hcut'
    obtain ⟨hcompounds, hcombinators⟩ := gather_eq row
    refine ⟨hcompounds, hcombinators, ?_⟩
    show ((gather row).2.map Prod.snd).length + 1 = ((gather row).2.map Prod.fst).length + 1
    rw [List.length_map, List.length_map]

/-- A selector of two compounds: an element with a class, and a class with a pseudo-element. -/
theorem ofText_isCut_child :
    ∃ row, IsCut "a.B > .C::before".toList row ∧
      Structure.ofText "a.B > .C::before".toList =
        .ok ⟨[{ element := ['a'], classes := [['B']] },
          { classes := [['C']], pseudoElements := ["before".toList] }], [.child]⟩ := by
  have hread : Structure.ofText "a.B > .C::before".toList =
      .ok ⟨[{ element := ['a'], classes := [['B']] },
        { classes := [['C']], pseudoElements := ["before".toList] }], [.child]⟩ := by
    decide +kernel
  obtain ⟨row, hcut⟩ := (ofText_isCut "a.B > .C::before".toList).1.1 ⟨_, hread⟩
  exact ⟨row, hcut, hread⟩

end HouseStyle.Selector
