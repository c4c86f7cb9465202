/-
HouseStyle.Proofs.LooseClasses — the class names that a plain search for dots finds.

A selector that the grammar rejects keeps the class names that a plain search for dots finds. The
search knows nothing of attributes and arguments, and finds names inside them too. On an accepted
selector it finds every class of the selector, in order, and nothing else if the selector has no
attribute and no argument (`classes_among_loose`).

## How the proof goes

The search does not look across the end of a piece: behind a simple selector no name goes on
(`looseClasses_append`), and a combinator has no dot (`looseClasses_append_of_no_dot`). So what is
found in an accepted text is what is found in its pieces, one after the other
(`Fits.looseClasses_eq`). A class is found in its piece, and of the other pieces only attributes and
arguments have a name behind a dot (`Terminal.looseClasses_eq_nil`).
-/
import HouseStyle.Proofs.SelectorLanguage

namespace HouseStyle.Selector

open Computability

/-! ## 1. Searching in parts of a text -/

variable {c : Char} {t w rest : Text}

theorem looseClasses_nil : looseClasses [] = [] := by
  rw [looseClasses]

theorem looseClasses_cons_of_ne (hc : c ≠ '.') (rest : Text) :
    looseClasses (c :: rest) = looseClasses rest := by
  rw [looseClasses, if_neg (by simpa using hc)]

theorem looseClasses_dot_of_none (h : nameLength? isNameStart rest = none) :
    looseClasses ('.' :: rest) = looseClasses rest := by
  rw [looseClasses, if_pos (by decide), h]

/-- A dot with a name behind it gives a class, and the search goes on behind the name. -/
theorem looseClasses_dot_of_some {n : Nat} (h : nameLength? isNameStart rest = some n) :
    looseClasses ('.' :: rest) = rest.take n :: looseClasses (rest.drop n) := by
  rw [looseClasses, if_pos (by decide), h]

/-- What has no dot is passed over. -/
theorem looseClasses_append_of_no_dot (hw : '.' ∉ w) (rest : Text) :
    looseClasses (w ++ rest) = looseClasses rest := by
  induction w with
  | nil => rfl
  | cons c w ih =>
    rw [List.mem_cons, not_or] at hw
    rw [List.cons_append, looseClasses_cons_of_ne (Ne.symm hw.1), ih hw.2]

theorem looseClasses_eq_nil_of_no_dot (hw : '.' ∉ w) : looseClasses w = [] := by
  simpa [looseClasses_nil] using looseClasses_append_of_no_dot hw []

/-- No name starts with a character that no name goes on with. -/
theorem nameLength?_eq_none (hrest : ∀ c ∈ rest.head?, isNamePart c = false) :
    nameLength? isNameStart rest = none := by
  cases rest with
  | nil => rfl
  | cons c rest =>
    have hc : isNamePart c = false := hrest c rfl
    simp only [isNamePart, Char.isAlphanum, Bool.or_eq_false_iff] at hc
    obtain ⟨⟨⟨halpha, -⟩, hline⟩, hhyphen⟩ := hc
    simp [nameLength?, isNameStart, halpha, hline, hhyphen]

/-- A name is as long in a text as in a longer one, if it does not go on there. -/
theorem nameLength?_append_stop (hrest : ∀ c ∈ rest.head?, isNamePart c = false) (w : Text) :
    nameLength? isNameStart (w ++ rest) = nameLength? isNameStart w := by
  have hrun (v : Text) : (v ++ rest).takeWhile isNamePart = v.takeWhile isNamePart := by
    have hstop : rest.takeWhile isNamePart = [] := by
      cases rest with
      | nil => rfl
      | cons c rest => simp [hrest c rfl]
    rw [List.takeWhile_append]
    split
    · rename_i hall
      rw [hstop, List.append_nil, (List.takeWhile_prefix _).eq_of_length hall]
    · rfl
  cases w with
  | nil => exact nameLength?_eq_none hrest
  | cons c w =>
    cases w with
    | nil =>
      rw [List.singleton_append]
      cases rest with
      | nil => rfl
      | cons d rest =>
        have hd : isNameStart d = false := by
          have hpart : isNamePart d = false := hrest d rfl
          simp only [isNamePart, Char.isAlphanum, Bool.or_eq_false_iff] at hpart
          simp [isNameStart, hpart]
        simp [nameLength?, hd, hrest d rfl]
    | cons d w =>
      have htail := hrun (d :: w)
      rw [List.cons_append] at htail
      simp only [nameLength?, List.cons_append, htail, hrun w]

theorem length_of_nameLength? {n : Nat} (h : nameLength? isNameStart t = some n) :
    n ≤ t.length := by
  obtain ⟨w, rest, -, rfl, rfl⟩ := starts_name h
  simp

/-- Where no name goes on, the search in a text is the search in front and the search behind. -/
theorem looseClasses_append (hrest : ∀ c ∈ rest.head?, isNamePart c = false) (w : Text) :
    looseClasses (w ++ rest) = looseClasses w ++ looseClasses rest := by
  induction w using looseClasses.induct with
  | case1 => simp [looseClasses_nil]
  | case2 c w hdot n hlength ih =>
    obtain rfl := eq_of_beq hdot
    have hle := length_of_nameLength? hlength
    rw [List.cons_append, looseClasses_dot_of_some hlength,
      looseClasses_dot_of_some ((nameLength?_append_stop hrest w).trans hlength),
      List.take_append_of_le_length hle, List.drop_append_of_le_length hle, ih]
    rfl
  | case3 c w hdot hnone ih =>
    obtain rfl := eq_of_beq hdot
    rw [List.cons_append, looseClasses_dot_of_none hnone,
      looseClasses_dot_of_none ((nameLength?_append_stop hrest w).trans hnone), ih]
  | case4 c w hdot ih =>
    have hc : c ≠ '.' := by simpa using hdot
    rw [List.cons_append, looseClasses_cons_of_ne hc, looseClasses_cons_of_ne hc, ih]

/-! ## 2. Searching in a piece -/

/-- Names hold no dot. -/
theorem not_mem_of_mem_name {start : Char → Bool} (hstart : start '.' = false)
    (hw : w ∈ name start) : '.' ∉ w := by
  have hparts {v : Text} (hv : v ∈ (single isNamePart)∗) : '.' ∉ v := by
    intro hmem
    exact absurd (mem_star_single.1 hv '.' hmem) (by decide)
  have hbody {v : Text} (hv : v ∈ single start * (single isNamePart)∗) : '.' ∉ v := by
    obtain ⟨c, u, hc, hu, rfl⟩ := mem_single_mul.1 hv
    have hne : '.' ≠ c := by
      rintro rfl
      rw [hstart] at hc
      cases hc
    simp [hne, hparts hu]
  rcases mem_optional_mul.1 hw with hw | hw
  · exact hbody hw
  · obtain ⟨v, hv, rfl⟩ := mem_char_mul.1 hw
    simp [hbody hv]

theorem not_mem_of_mem_spaced {sign : Char} (hsign : '.' ≠ sign) (hw : w ∈ spaced sign) :
    '.' ∉ w := by
  have hspace {v : Text} (hv : v ∈ optional (char ' ')) : '.' ∉ v := by
    rcases mem_optional.1 hv with rfl | hv
    · simp
    · simp [mem_char.1 hv]
  obtain ⟨u, hu, v, hv, rfl⟩ := Language.mem_mul.1 hw
  obtain ⟨x, hx, rfl⟩ := mem_char_mul.1 hv
  simp [hspace hu, hspace hx, hsign]

/-- The point of a percentage has a digit behind it, with which no name starts. -/
theorem looseClasses_percentage
    (hw : w ∈ digits * (optional (char '.' * digits) * char '%')) : looseClasses w = [] := by
  have hdigits {v : Text} (hv : v ∈ digits) : '.' ∉ v := by
    intro hmem
    exact absurd ((mem_many_single.1 hv).2 '.' hmem) (by decide)
  obtain ⟨whole, hwhole, behind, hbehind, rfl⟩ := Language.mem_mul.1 hw
  rw [looseClasses_append_of_no_dot (hdigits hwhole)]
  rcases mem_optional_mul.1 hbehind with hbehind | hbehind
  · obtain rfl := mem_char.1 hbehind
    exact looseClasses_eq_nil_of_no_dot (by decide)
  · rw [mul_assoc] at hbehind
    obtain ⟨v, hv, rfl⟩ := mem_char_mul.1 hbehind
    obtain ⟨fraction, hfraction, sign, hsign, rfl⟩ := Language.mem_mul.1 hv
    obtain rfl := mem_char.1 hsign
    have hnone : nameLength? isNameStart (fraction ++ ['%']) = none := by
      obtain ⟨d, u, hd, -, rfl⟩ := mem_single_mul.1 hfraction
      have hhyphen : d ≠ '-' := by
        rintro rfl
        exact absurd hd (by decide)
      simp [nameLength?, isNameStart_of_isDecimalDigit hd, hhyphen]
    rw [looseClasses_dot_of_none hnone]
    exact looseClasses_eq_nil_of_no_dot (by simp [hdigits hfraction])

/-- In a class its name is found. -/
theorem looseClasses_className (hw : w ∈ Terminal.className.language) :
    looseClasses w = [w.drop 1] := by
  obtain ⟨v, hv, rfl⟩ := mem_char_mul.1 hw
  have hlength : nameLength? isNameStart v = some v.length := by
    have hend : ∀ c ∈ ([] : Text).head?, isNamePart c = false := by simp
    simpa using nameLength?_append (by decide) hv hend
  simp [looseClasses_dot_of_some hlength, looseClasses_nil]

theorem not_mem_of_mem_pseudo (hw : w ∈ pseudo) (hopen : '(' ∉ w) : '.' ∉ w := by
  obtain ⟨u, hu, v, hv, rfl⟩ := Language.mem_mul.1 hw
  rcases mem_optional.1 hv with rfl | hv
  · simpa using not_mem_of_mem_name (by decide) hu
  · obtain ⟨x, -, rfl⟩ := mem_char_mul.1 hv
    simp at hopen

/-- A combinator has no dot. -/
theorem Terminal.not_mem_of_isCombinator {T : Terminal} (hT : T.isCombinator = true)
    (hw : w ∈ T.language) : '.' ∉ w := by
  cases T with
  | combinator C =>
    cases C with
    | descendant => simp [mem_char.1 hw]
    | _ => exact not_mem_of_mem_spaced (by decide) hw
  | _ => cases hT

/-- Apart from classes, a name behind a dot stands only in attributes and arguments. -/
theorem Terminal.looseClasses_eq_nil {T : Terminal} (hT : T ≠ .className) (hw : w ∈ T.language)
    (hopen : '(' ∉ w) (hbracket : '[' ∉ w) : looseClasses w = [] := by
  have hparts {v : Text} (hv : ∀ c ∈ v, isNamePart c = true) : '.' ∉ v := by
    intro hmem
    exact absurd (hv '.' hmem) (by decide)
  cases T with
  | className => exact absurd rfl hT
  | percentage => exact looseClasses_percentage hw
  | typeName => exact looseClasses_eq_nil_of_no_dot (not_mem_of_mem_name (by decide) hw)
  | universal => exact looseClasses_eq_nil_of_no_dot (by simp [mem_char.1 hw])
  | parentRef =>
    obtain ⟨v, hv, rfl⟩ := mem_char_mul.1 hw
    exact looseClasses_eq_nil_of_no_dot (by simp [hparts (mem_star_single.1 hv)])
  | placeholder =>
    obtain ⟨v, hv, rfl⟩ := mem_char_mul.1 hw
    exact looseClasses_eq_nil_of_no_dot (by simp [hparts (mem_many_single.1 hv).2])
  | id =>
    obtain ⟨v, hv, rfl⟩ := mem_char_mul.1 hw
    exact looseClasses_eq_nil_of_no_dot (by simp [not_mem_of_mem_name (by decide) hv])
  | «attribute» =>
    obtain ⟨v, -, rfl⟩ := mem_char_mul.1 hw
    simp at hbracket
  | pseudoElement =>
    obtain ⟨v, hv, rfl⟩ := mem_char_mul.1 hw
    obtain ⟨u, hu, rfl⟩ := mem_char_mul.1 hv
    have hdot : '.' ∉ u := not_mem_of_mem_pseudo hu (by simpa using hopen)
    exact looseClasses_eq_nil_of_no_dot (by simp [hdot])
  | pseudoClass =>
    obtain ⟨v, hv, rfl⟩ := mem_char_mul.1 hw
    have hdot : '.' ∉ v := not_mem_of_mem_pseudo hv (by simpa using hopen)
    exact looseClasses_eq_nil_of_no_dot (by simp [hdot])
  | combinator => exact looseClasses_eq_nil_of_no_dot (not_mem_of_isCombinator rfl hw)

/-! ## 3. Searching in an accepted text -/

/-- In an accepted text is found what is found in its pieces. -/
theorem Fits.looseClasses_eq {begun : Bool} {row : List Piece} (h : Fits begun t row) :
    looseClasses t = row.flatMap fun piece => looseClasses piece.text := by
  induction row generalizing begun t with
  | nil =>
    obtain rfl : [] = t := h.covers
    simp [looseClasses_nil]
  | cons piece row ih =>
    obtain ⟨-, hword, rest, rfl, hrest⟩ := h.of_cons
    rw [List.flatMap_cons, ← ih hrest]
    cases hkind : piece.terminal.isCombinator with
    | true =>
      have hdot := Terminal.not_mem_of_isCombinator hkind hword
      rw [looseClasses_append_of_no_dot hdot, looseClasses_eq_nil_of_no_dot hdot, List.nil_append]
    | false =>
      have hfollows := hrest.follows
      rw [Terminal.begins_eq_not_isCombinator, hkind] at hfollows
      exact looseClasses_append (fun c hc => (hfollows.stop c hc).1) _

/-- The names of the classes among the pieces. -/
theorem classes_ofPieces (row : List Piece) :
    (Structure.ofPieces row).compounds.flatMap Compound.classes = bodies .className 1 row := by
  have hcompounds : (Structure.ofPieces row).compounds =
      (row.splitOnP (·.terminal.isCombinator)).map Compound.ofPieces := (gather_eq row).1
  have hgroups (groups : List (List Piece)) :
      groups.flatMap (bodies .className 1) = bodies .className 1 groups.flatten := by
    induction groups with
    | nil => rfl
    | cons group groups ih => simp [bodies, ih]
  have hkept : (row.filter fun piece => !piece.terminal.isCombinator).filter
      (·.terminal == .className) = row.filter (·.terminal == .className) := by
    rw [List.filter_filter]
    refine List.filter_congr fun piece _ => ?_
    cases hT : piece.terminal <;> simp [Terminal.isCombinator]
  rw [hcompounds, List.flatMap_map]
  show (row.splitOnP _).flatMap (bodies .className 1) = _
  rw [hgroups, Text.flatten_splitOnP, bodies, hkept, bodies]

theorem bodies_className_cons (piece : Piece) (row : List Piece) :
    bodies .className 1 (piece :: row) =
      (if piece.terminal = .className then [piece.text.drop 1] else []) ++
        bodies .className 1 row := by
  by_cases h : piece.terminal = .className <;> simp [bodies, h]

/-- The classes of a cut are found, in order, among those behind any dot of the pieces. -/
theorem sublist_bodies {row : List Piece}
    (hword : ∀ piece ∈ row, piece.text ∈ piece.terminal.language) :
    (bodies .className 1 row).Sublist (row.flatMap fun piece => looseClasses piece.text) := by
  induction row with
  | nil => exact List.Sublist.refl _
  | cons piece row ih =>
    obtain ⟨hpiece, hrow⟩ := List.forall_mem_cons.1 hword
    rw [bodies_className_cons, List.flatMap_cons]
    refine List.Sublist.append ?_ (ih hrow)
    split
    · rename_i hT
      rw [hT] at hpiece
      rw [looseClasses_className hpiece]
    · exact List.nil_sublist _

/-- Without parentheses and brackets every name behind a dot is a class of the cut. -/
theorem bodies_eq {row : List Piece}
    (hword : ∀ piece ∈ row, piece.text ∈ piece.terminal.language)
    (hopen : ∀ piece ∈ row, '(' ∉ piece.text) (hbracket : ∀ piece ∈ row, '[' ∉ piece.text) :
    bodies .className 1 row = row.flatMap fun piece => looseClasses piece.text := by
  induction row with
  | nil => rfl
  | cons piece row ih =>
    obtain ⟨hpiece, hrow⟩ := List.forall_mem_cons.1 hword
    obtain ⟨hpieceOpen, hrowOpen⟩ := List.forall_mem_cons.1 hopen
    obtain ⟨hpieceBracket, hrowBracket⟩ := List.forall_mem_cons.1 hbracket
    rw [bodies_className_cons, List.flatMap_cons, ih hrow hrowOpen hrowBracket]
    split
    · rename_i hT
      rw [hT] at hpiece
      rw [looseClasses_className hpiece]
    · rename_i hT
      rw [Terminal.looseClasses_eq_nil hT hpiece hpieceOpen hpieceBracket]

/-- **Strictly and loosely found classes agree.** The class names of an accepted text are among the
names that the plain search for dots finds in it, in the same order, and they are all that it finds
if the text has neither a parenthesis nor a bracket. So whatever selector is built from a text, its
class names are among those of the plain search, and they are all of them if the text is
rejected. -/
theorem classes_among_loose :
    (∀ t s, Structure.ofText t = .ok s →
      (s.compounds.flatMap Compound.classes).Sublist (looseClasses t) ∧
      ('(' ∉ t → '[' ∉ t → s.compounds.flatMap Compound.classes = looseClasses t)) ∧
    ∀ raw line column,
      (build raw line column).classNames.Sublist (looseClasses (build raw line column).text) ∧
      ∀ rejection, Structure.ofText (build raw line column).text = .error rejection →
        (build raw line column).classNames = looseClasses (build raw line column).text := by
  have hstrict (t : Text) (s : Structure) (h : Structure.ofText t = .ok s) :
      (s.compounds.flatMap Compound.classes).Sublist (looseClasses t) ∧
      ('(' ∉ t → '[' ∉ t → s.compounds.flatMap Compound.classes = looseClasses t) := by
    obtain ⟨row, hcut, rfl⟩ := ofText_eq_ok_iff.1 h
    rw [classes_ofPieces, (isCut_iff.1 hcut).looseClasses_eq]
    have hinside {c : Char} (hc : c ∉ t) : ∀ piece ∈ row, c ∉ piece.text := by
      intro piece hpiece hmem
      rw [← hcut.covers] at hc
      exact hc (List.mem_flatMap.2 ⟨piece, hpiece, hmem⟩)
    exact ⟨sublist_bodies hcut.word,
      fun hopen hbracket => bodies_eq hcut.word (hinside hopen) (hinside hbracket)⟩
  refine ⟨hstrict, fun raw line column => ?_⟩
  have htext : (build raw line column).text = Text.squeeze raw := rfl
  rw [htext]
  cases h : Structure.ofText (Text.squeeze raw) with
  | ok parts =>
    have hparts : (build raw line column).parts = parts := by simp [build, h]
    refine ⟨?_, fun rejection he => by cases he⟩
    rw [classNames, compounds, hparts]
    exact (hstrict _ parts h).1
  | error e =>
    have hparts : (build raw line column).parts = .loose (Text.squeeze raw) := by simp [build, h]
    have hnames : (build raw line column).classNames = looseClasses (Text.squeeze raw) := by
      simp [classNames, compounds, hparts, Structure.loose]
    rw [hnames]
    exact ⟨List.Sublist.refl _, fun _ _ => rfl⟩

/-- A name between the brackets of an attribute is found loosely only. -/
theorem classes_among_loose_attribute :
    let t := ".A[b=.c] > .D".toList
    ∃ s, Structure.ofText t = .ok s ∧ s.compounds.flatMap Compound.classes = [['A'], ['D']] ∧
      looseClasses t = [['A'], ['c'], ['D']] ∧
      (s.compounds.flatMap Compound.classes).Sublist (looseClasses t) := by
  intro t
  have hread : Structure.ofText t = .ok ⟨[{ classes := [['A']], attributes := [
      { name := ['b'], operator := ['='], value := ".c".toList }] }, { classes := [['D']] }],
      [.child]⟩ := by
    decide +kernel
  have hloose : looseClasses t = [['A'], ['c'], ['D']] := by decide +kernel
  exact ⟨_, hread, rfl, hloose, (classes_among_loose.1 t _ hread).1⟩

end HouseStyle.Selector
