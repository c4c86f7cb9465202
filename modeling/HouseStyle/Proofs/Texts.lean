/-
HouseStyle.Proofs.Texts — laws of texts: pieces, lines, ends that are dropped, words, first places.

Everything that the other modules need to know of cutting and searching, apart from what a text
means. A list is cut into pieces at its separators (`List.splitOnP`), and lines and words of a text
are such pieces: the piece that goes across a cut of the list is known from both sides of the cut
(`splitOnP_append_getElem?`), and what is in a piece is known by how many separators stand in front
of it (`mem_iff_of_getElem?_splitOnP`).

Words are the pieces between blanks that are not empty. A squeezed text has one space between any
two of its words, so behind such a text squeezing goes on with the text as it stands, up to the next
blank (`exists_squeeze_append`).
-/
import HouseStyle.Text
import Mathlib.Data.List.DropRight
import Mathlib.Data.List.TakeWhile

namespace HouseStyle

namespace Text

/-! ## 1. Pieces -/

section Pieces

variable {α : Type} {p : α → Bool} {a : α}

theorem splitOnP_cons_of_pos (h : p a = true) (l : List α) :
    (a :: l).splitOnP p = [] :: l.splitOnP p := by
  rw [List.splitOnP_cons_eq_if_modifyHead, if_pos h]

/-- What is no separator belongs to the first piece of what stands behind it. -/
theorem exists_splitOnP_cons (h : p a = false) (l : List α) :
    ∃ first more, l.splitOnP p = first :: more ∧ (a :: l).splitOnP p = (a :: first) :: more := by
  obtain ⟨first, more, hl⟩ := List.exists_cons_of_ne_nil (List.splitOnP_ne_nil p l)
  refine ⟨first, more, hl, ?_⟩
  rw [List.splitOnP_cons_eq_if_modifyHead, if_neg (by simp [h]), hl, List.modifyHead_cons]

/-- Nothing but separators is lost. -/
theorem flatten_splitOnP (p : α → Bool) (l : List α) :
    (l.splitOnP p).flatten = l.filter fun a => !p a := by
  induction l with
  | nil => rfl
  | cons a l ih =>
    cases ha : p a with
    | true => simp [splitOnP_cons_of_pos ha, ha, ih]
    | false =>
      obtain ⟨first, more, hl, hcons⟩ := exists_splitOnP_cons ha l
      rw [hl, List.flatten_cons] at ih
      rw [hcons, List.flatten_cons, List.cons_append, ih, List.filter_cons_of_pos (by simp [ha])]

/-- No separator is left in a piece. -/
theorem not_of_mem_splitOnP {l piece : List α} (h : piece ∈ l.splitOnP p) (ha : a ∈ piece) :
    p a = false := by
  have hmem : a ∈ (l.splitOnP p).flatten := List.mem_flatten.2 ⟨piece, h, ha⟩
  rw [flatten_splitOnP] at hmem
  simpa using (List.mem_filter.1 hmem).2

/-- There is one piece more than there are separators. -/
theorem length_splitOnP (p : α → Bool) (l : List α) :
    (l.splitOnP p).length = l.countP p + 1 := by
  induction l with
  | nil => rfl
  | cons a l ih =>
    cases ha : p a with
    | true => simp [splitOnP_cons_of_pos ha, ha, ih]
    | false =>
      obtain ⟨first, more, hl, hcons⟩ := exists_splitOnP_cons ha l
      rw [hl, List.length_cons] at ih
      rw [hcons, List.length_cons, ih, List.countP_cons_of_neg (by simp [ha])]

theorem splitOnP_getElem?_zero (p : α → Bool) (l : List α) :
    (l.splitOnP p)[0]? = some (l.takeWhile fun a => !p a) := by
  induction l with
  | nil => rfl
  | cons a l ih =>
    cases ha : p a with
    | true => simp [splitOnP_cons_of_pos ha, ha]
    | false =>
      obtain ⟨first, more, hl, hcons⟩ := exists_splitOnP_cons ha l
      rw [hl, List.getElem?_cons_zero, Option.some.injEq] at ih
      simp [hcons, ha, ih]

/-- The piece that goes across a cut of a list starts behind the last separator in front of the cut
and ends in front of the first one behind it. -/
theorem splitOnP_append_getElem? (p : α → Bool) (u v : List α) :
    ((u ++ v).splitOnP p)[u.countP p]? =
      some ((u.reverse.takeWhile fun a => !p a).reverse ++ v.takeWhile fun a => !p a) := by
  induction u with
  | nil => exact splitOnP_getElem?_zero p v
  | cons a u ih =>
    have hself (h : (u.reverse.takeWhile fun a => !p a).length = u.reverse.length) :
        (u.reverse.takeWhile fun a => !p a) = u.reverse :=
      (List.takeWhile_prefix _).eq_of_length h
    rw [List.cons_append, List.reverse_cons, List.takeWhile_append]
    cases ha : p a with
    | true => simpa [splitOnP_cons_of_pos ha, ha, ih] using hself
    | false =>
      obtain ⟨first, more, hpieces, hcons⟩ := exists_splitOnP_cons ha (u ++ v)
      rw [hpieces] at ih
      rw [hcons, List.countP_cons_of_neg (by simp [ha])]
      -- the first piece grows by `a`; it is the sought one unless a separator follows
      cases hu : u.countP p with
      | zero =>
        have hall : (u.reverse.takeWhile fun a => !p a) = u.reverse := by
          have hno : ∀ b ∈ u, ¬ p b = true := List.countP_eq_zero.1 hu
          exact List.takeWhile_eq_self_iff.2 (by simpa using hno)
        rw [hu, hall, List.getElem?_cons_zero, Option.some.injEq] at ih
        simp [hall, ih, ha]
      | succ k =>
        have hlen : (u.reverse.takeWhile fun a => !p a).length ≠ u.reverse.length := by
          intro h
          have hmem : ∀ b ∈ u, ¬ p b = true := by
            simpa using List.takeWhile_eq_self_iff.1 (hself h)
          rw [List.countP_eq_zero.2 hmem] at hu
          cases hu
        rw [hu] at ih
        rw [if_neg hlen]
        simpa using ih

/-- What is in a piece is no separator and stands behind as many of them as pieces are in front. -/
theorem mem_iff_of_getElem?_splitOnP {l piece : List α} {k : Nat}
    (h : (l.splitOnP p)[k]? = some piece) :
    a ∈ piece ↔ p a = false ∧ ∃ u v, l = u ++ a :: v ∧ u.countP p = k := by
  constructor
  · intro ha
    induction l generalizing k piece with
    | nil =>
      cases k with
      | zero =>
        obtain rfl : [] = piece := by simpa using h
        cases ha
      | succ k => simp at h
    | cons b rest ih =>
      cases hb : p b with
      | true =>
        rw [splitOnP_cons_of_pos hb] at h
        cases k with
        | zero =>
          obtain rfl : [] = piece := by simpa using h
          cases ha
        | succ k =>
          obtain ⟨hpa, u, v, rfl, hk⟩ := ih (by simpa using h) ha
          exact ⟨hpa, b :: u, v, rfl, by simp [hb, hk]⟩
      | false =>
        obtain ⟨first, more, hrest, hcons⟩ := exists_splitOnP_cons hb rest
        rw [hcons] at h
        rw [hrest] at ih
        cases k with
        | zero =>
          obtain rfl : b :: first = piece := by simpa using h
          rcases List.mem_cons.1 ha with rfl | ha
          · exact ⟨hb, [], rest, rfl, rfl⟩
          · obtain ⟨hpa, u, v, rfl, hk⟩ := ih (k := 0) rfl ha
            exact ⟨hpa, b :: u, v, rfl, by simp [hb, hk]⟩
        | succ k =>
          obtain ⟨hpa, u, v, rfl, hk⟩ := ih (k := k + 1) (by simpa using h) ha
          exact ⟨hpa, b :: u, v, rfl, by simp [hb, hk]⟩
  · rintro ⟨hpa, u, v, rfl, rfl⟩
    rw [splitOnP_append_getElem?] at h
    obtain rfl := Option.some.inj h
    simp [hpa]

end Pieces

/-! ## 2. Lines -/

/-- A text has one line more than line feeds. -/
theorem length_lines (t : Text) : (lines t).length = t.lineFeeds + 1 := by
  rw [lines, List.length_map, length_splitOnP]
  rfl

/-- The line that goes across a cut of a text. -/
theorem line_across (u v : Text) :
    ((u ++ v).splitOnP (· == '\n'))[u.lineFeeds]? =
      some ((u.reverse.takeWhile (· != '\n')).reverse ++ v.takeWhile (· != '\n')) :=
  splitOnP_append_getElem? (· == '\n') u v

theorem length_takeWhile_ne_lineFeed (t : Text) :
    (t.takeWhile (· != '\n')).length = t.idxOf '\n' := by
  have hle := List.idxOf_le_length (a := '\n') (l := t)
  rw [List.takeWhile_eq_take_findIdx_not, List.length_take]
  simp only [bne, Bool.not_not]
  exact Nat.min_eq_left hle

/-! ## 3. Ends that are dropped -/

section Ends

variable {α : Type} {p q : α → Bool}

theorem dropEndWhile_eq_rdropWhile (p : α → Bool) (l : List α) :
    dropEndWhile p l = l.rdropWhile p := rfl

/-- Around what is left of a row there was only what is dropped. -/
theorem exists_append_dropEndWhile (p : α → Bool) (l : List α) :
    ∃ trail, l = l.takeWhile p ++ (dropEndWhile p (l.dropWhile p) ++ trail) ∧
      ∀ a ∈ trail, p a = true := by
  refine ⟨(l.dropWhile p).rtakeWhile p, ?_, fun a ha => List.mem_rtakeWhile_imp ha⟩
  rw [dropEndWhile_eq_rdropWhile, List.rdropWhile_append_rtakeWhile,
    List.takeWhile_append_dropWhile]

/-- What stands in front of an element that does not satisfy `p` stays when the end of a list is
dropped. -/
theorem dropEndWhile_append_cons {c : α} (hc : p c = false) (front back : List α) :
    dropEndWhile p (front ++ c :: back) = front ++ c :: dropEndWhile p back := by
  unfold dropEndWhile
  rw [List.reverse_append, List.reverse_cons, List.append_assoc, List.dropWhile_append]
  split
  · rename_i hnil
    simp [List.isEmpty_iff.1 hnil, hc]
  · simp

/-- Dropping from the end stops at the first word that has nothing to drop. -/
theorem dropEndWhile_append {word : List α} (h : ∀ c ∈ word, p c = false) (back : List α) :
    dropEndWhile p (word ++ back) = word ++ dropEndWhile p back := by
  induction word with
  | nil => rfl
  | cons c word ih =>
    obtain ⟨hc, hword⟩ := List.forall_mem_cons.1 h
    rw [List.cons_append, List.cons_append, ← ih hword]
    exact dropEndWhile_append_cons hc [] _

theorem all_dropWhile (hpq : ∀ a, p a = true → q a = true) (l : List α) :
    (l.dropWhile p).all q = l.all q := by
  induction l with
  | nil => rfl
  | cons a l ih =>
    by_cases ha : p a = true
    · rw [List.dropWhile_cons_of_pos ha, ih, List.all_cons, hpq a ha, Bool.true_and]
    · rw [List.dropWhile_cons_of_neg ha]

/-- What holds of all that is dropped holds of the whole list if it holds of what is left. -/
theorem all_dropEndWhile (hpq : ∀ a, p a = true → q a = true) (l : List α) :
    (dropEndWhile p l).all q = l.all q := by
  rw [dropEndWhile, List.all_reverse, all_dropWhile hpq, List.all_reverse]

end Ends

/-! ## 4. Runs at the front -/

section Runs

variable {α : Type} {p : α → Bool} {w rest : List α}

theorem takeWhile_prefix_append (p : α → Bool) (u v : List α) :
    u.takeWhile p <+: (u ++ v).takeWhile p := by
  rw [List.takeWhile_append]
  split
  · exact (List.takeWhile_prefix p).trans (List.prefix_append _ _)
  · exact List.prefix_rfl

/-- A run goes up to the first thing that does not belong to it. -/
theorem takeWhile_append_stop (hw : ∀ c ∈ w, p c = true) (hrest : ∀ c ∈ rest.head?, p c = false) :
    (w ++ rest).takeWhile p = w := by
  rw [List.takeWhile_append_of_pos hw]
  cases rest with
  | nil => simp
  | cons c rest =>
    have hc := hrest c rfl
    simp [hc]

theorem dropWhile_append_stop (hw : ∀ c ∈ w, p c = true) (hrest : ∀ c ∈ rest.head?, p c = false) :
    (w ++ rest).dropWhile p = rest := by
  rw [List.dropWhile_append_of_pos hw]
  cases rest with
  | nil => rfl
  | cons c rest => exact List.dropWhile_cons_of_neg (by simp [hrest c rfl])

end Runs

/-! ## 5. Words -/

section Words

variable {a t v w : Text} {c : Char}

/-- Words hold something, and no blanks. -/
theorem mem_words (h : w ∈ words t) : w ≠ [] ∧ ∀ c ∈ w, isBlank c = false := by
  obtain ⟨hw, hne⟩ := List.mem_filter.1 h
  exact ⟨by simpa using hne, fun c hc => not_of_mem_splitOnP hw hc⟩

/-- A squeezed text has no blanks but spaces. -/
theorem eq_space_of_mem_squeeze (hc : c ∈ squeeze t) (hblank : isBlank c = true) : c = ' ' := by
  have hwords : ∀ w ∈ words t, c ∉ w := by
    intro w hw hmem
    simp [(mem_words hw).2 c hmem] at hblank
  rw [squeeze] at hc
  generalize words t = ws at hc hwords
  induction ws with
  | nil => cases hc
  | cons w ws ih =>
    obtain ⟨hw, hws⟩ := List.forall_mem_cons.1 hwords
    cases ws with
    | nil => exact absurd (by simpa using hc) hw
    | cons w' ws =>
      rw [List.intercalate_cons_cons] at hc
      simp only [List.mem_append, List.mem_singleton, hw, false_or] at hc
      exact hc.elim id fun hc => ih hc hws

/-- A word in front of a text grows up to the next blank. -/
theorem exists_words_append (hne : w ≠ []) (hw : ∀ c ∈ w, isBlank c = false) (v : Text) :
    ∃ more, words (w ++ v) = (w ++ v.takeWhile (!isBlank ·)) :: more := by
  have hfirst : ∀ c ∈ w ++ v.takeWhile (!isBlank ·), isBlank c = false := by
    intro c hc
    rcases List.mem_append.1 hc with hc | hc
    · exact hw c hc
    · simpa using List.mem_takeWhile_imp hc
  have hcut : w ++ v = (w ++ v.takeWhile (!isBlank ·)) ++ v.dropWhile (!isBlank ·) := by
    rw [List.append_assoc, List.takeWhile_append_dropWhile]
  rw [hcut, words]
  cases hrest : v.dropWhile (!isBlank ·) with
  | nil =>
    rw [List.append_nil, List.splitOnP_eq_singleton hfirst]
    exact ⟨[], by simp [hne]⟩
  | cons b u =>
    have hb : isBlank b = true := by
      have hhead := List.head?_dropWhile_not (!isBlank ·) v
      rw [hrest] at hhead
      simpa using hhead
    rw [List.splitOnP_append_cons_of_forall_mem hfirst b hb]
    exact ⟨_, by simp [hne]; rfl⟩

theorem words_append_space (hne : w ≠ []) (hw : ∀ c ∈ w, isBlank c = false) (v : Text) :
    words (w ++ ' ' :: v) = w :: words v := by
  rw [words, List.splitOnP_append_cons_of_forall_mem hw ' ' (by decide),
    List.filter_cons_of_pos (by simpa using hne)]
  rfl

/-- Behind words with single spaces between them a text is squeezed as it stands, up to the next
blank. -/
theorem exists_squeeze_intercalate_append {ws : List Text} (hne : ws ≠ [])
    (hws : ∀ w ∈ ws, w ≠ [] ∧ ∀ c ∈ w, isBlank c = false) (v : Text) :
    ∃ tail, squeeze (List.intercalate [' '] ws ++ v) =
        List.intercalate [' '] ws ++ (v.takeWhile (!isBlank ·) ++ tail) ∧
      ∀ c ∈ tail.head?, c = ' ' := by
  induction ws with
  | nil => exact absurd rfl hne
  | cons w ws ih =>
    obtain ⟨⟨hword, hw⟩, hws⟩ := List.forall_mem_cons.1 hws
    cases ws with
    | nil =>
      obtain ⟨more, hmore⟩ := exists_words_append hword hw v
      rw [List.intercalate_singleton, squeeze, hmore]
      cases more with
      | nil => exact ⟨[], by simp, by simp⟩
      | cons w' more => exact ⟨' ' :: List.intercalate [' '] (w' :: more), by simp, by simp⟩
    | cons w' ws =>
      obtain ⟨tail, htail, hhead⟩ := ih (by simp) hws
      refine ⟨tail, ?_, hhead⟩
      have hword' : w' ≠ [] := (hws w' List.mem_cons_self).1
      have hbehind : List.intercalate [' '] (w' :: ws) ≠ [] := by
        cases ws <;> simp [List.intercalate_cons_cons, hword']
      rw [List.intercalate_cons_cons]
      generalize List.intercalate [' '] (w' :: ws) = behind at htail hbehind ⊢
      have hcut : w ++ [' '] ++ behind ++ v = w ++ ' ' :: (behind ++ v) := by simp
      rw [hcut, squeeze, words_append_space hword hw]
      rw [squeeze] at htail
      cases hmore : words (behind ++ v) with
      | nil =>
        rw [hmore] at htail
        exact absurd (List.append_eq_nil_iff.1 htail.symm).1 hbehind
      | cons first more =>
        rw [List.intercalate_cons_cons, ← hmore, htail]
        simp

/-- Behind a squeezed text a text is squeezed as it stands, up to the next blank. -/
theorem exists_squeeze_append (ha : squeeze a = a) (hne : a ≠ []) (v : Text) :
    ∃ tail, squeeze (a ++ v) = a ++ (v.takeWhile (!isBlank ·) ++ tail) ∧
      ∀ c ∈ tail.head?, c = ' ' := by
  have hwords : words a ≠ [] := by
    intro hnil
    rw [squeeze, hnil] at ha
    exact hne ha.symm
  have h := exists_squeeze_intercalate_append hwords (fun w hw => mem_words hw) v
  rwa [← squeeze, ha] at h

end Words

/-! ## 6. Texts without their blanks -/

def withoutBlanks (t : Text) : Text := t.filter fun c => !isBlank c

variable {t : Text}

@[simp] theorem withoutBlanks_append (t u : Text) :
    withoutBlanks (t ++ u) = withoutBlanks t ++ withoutBlanks u :=
  List.filter_append t u

@[simp] theorem withoutBlanks_space : withoutBlanks [' '] = [] := by decide

@[simp] theorem withoutBlanks_comma : withoutBlanks [','] = [','] := by decide

theorem withoutBlanks_eq_nil (h : ∀ c ∈ t, isBlank c = true) : withoutBlanks t = [] := by
  rw [withoutBlanks, List.filter_eq_nil_iff]
  intro c hc
  simp [h c hc]

theorem withoutBlanks_trim (t : Text) : withoutBlanks (trim t) = withoutBlanks t := by
  obtain ⟨trail, ht, htrail⟩ := exists_append_dropEndWhile isBlank t
  have hlead : withoutBlanks (t.takeWhile isBlank) = [] :=
    withoutBlanks_eq_nil fun c hc => List.mem_takeWhile_imp hc
  conv_rhs => rw [ht]
  rw [withoutBlanks_append, withoutBlanks_append, hlead, withoutBlanks_eq_nil htrail,
    List.nil_append, List.append_nil]
  rfl

/-- Texts that are joined with a separator lose their blanks one by one. -/
theorem withoutBlanks_intercalate (separator : Text) (ws : List Text) :
    withoutBlanks (List.intercalate separator ws) =
      List.intercalate (withoutBlanks separator) (ws.map withoutBlanks) := by
  induction ws with
  | nil => rfl
  | cons w ws ih =>
    cases ws with
    | nil => simp
    | cons w' ws =>
      rw [List.intercalate_cons_cons, withoutBlanks_append, withoutBlanks_append, ih]
      simp [List.intercalate_cons_cons]

theorem nil_intercalate (ws : List Text) : List.intercalate [] ws = ws.flatten := by
  induction ws with
  | nil => rfl
  | cons w ws ih =>
    cases ws with
    | nil => simp
    | cons w' ws =>
      rw [List.intercalate_cons_cons, ih]
      simp

/-- Squeezing changes blanks only. -/
theorem withoutBlanks_squeeze (t : Text) : withoutBlanks (squeeze t) = withoutBlanks t := by
  have hsolid : (words t).map withoutBlanks = words t := by
    refine (List.map_congr_left fun w hw => ?_).trans (List.map_id _)
    rw [withoutBlanks, id, List.filter_eq_self]
    intro c hc
    simp [(mem_words hw).2 c hc]
  rw [squeeze, withoutBlanks_intercalate, hsolid, withoutBlanks_space, nil_intercalate, words,
    List.flatten_filter_not_isEmpty, flatten_splitOnP, withoutBlanks]

/-! ## 7. The first place of a text in another -/

/-- What stands in a text is found, at the first place where it stands. -/
theorem exists_offsetOf? {sought : Text} (h : sought <:+: t) :
    ∃ front back, t = front ++ (sought ++ back) ∧ offsetOf? sought t = some front.length ∧
      ∀ front' back', t = front' ++ (sought ++ back') → front.length ≤ front'.length := by
  induction t with
  | nil =>
    obtain rfl := List.infix_nil.1 h
    exact ⟨[], [], rfl, rfl, fun _ _ _ => Nat.zero_le _⟩
  | cons c t ih =>
    rw [offsetOf?]
    by_cases hfront : sought <+: c :: t
    · obtain ⟨back, hback⟩ := hfront
      rw [if_pos (List.isPrefixOf_iff_prefix.2 ⟨back, hback⟩)]
      exact ⟨[], back, hback.symm, rfl, fun _ _ _ => Nat.zero_le _⟩
    · have hstands := (List.infix_cons_iff.1 h).resolve_left hfront
      obtain ⟨front, back, rfl, hfound, hfirst⟩ := ih hstands
      rw [if_neg (mt List.isPrefixOf_iff_prefix.1 hfront), hfound]
      refine ⟨c :: front, back, rfl, rfl, fun front' back' hsplit => ?_⟩
      cases front' with
      | nil => exact absurd ⟨back', hsplit.symm⟩ hfront
      | cons d front' =>
        exact Nat.succ_le_succ (hfirst front' back' (List.cons.inj hsplit).2)

end Text

end HouseStyle
