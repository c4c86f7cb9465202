/-
HouseStyle.Proofs.Zeros — which zeros are asked to drop their unit.

A zero with a unit of length is reported where it stands in the value of an ordinary declaration or
in the prelude of an at-rule, unless a function around it calculates. Around it are the parentheses
of the span that are open in front of it, at whatever depth, whether they belong to a function or
not; a closing parenthesis without an open one counts for nothing (`LeftOpen`). The report has every
such zero once and nothing else (`zeros_outside_math`).

## How the proof goes

The rule keeps the names in front of the open parentheses on a stack. The same stack with numbers of
tokens in place of names (`openedFrom`) holds the parentheses that open no pair of those that match
(`mem_openedFrom_iff`), and what the rule does with a token depends on the names in front of these
(`mem_zerosFrom_iff`). A lexeme is taken apart in one way only, since a unit has neither digits nor
points in it (`isZeroLength_iff`). No zero is found twice, because the spans of values have no token
in common (`Stylesheet.nodup_slices`).
-/
import HouseStyle.Proofs.Calls
import HouseStyle.Proofs.Fetching
import HouseStyle.Proofs.Positions
import HouseStyle.Proofs.Terminals

namespace HouseStyle

/-! ## 1. Zeros with a unit -/

namespace Values

/-- The lexeme is a decimal with or without a sign, of which the digits denote zero, and a unit of
length in any case. -/
def IsZeroLength (lexeme : Text) : Prop :=
  ∃ sign whole point fraction unit : Text,
    lexeme = sign ++ (whole ++ (point ++ (fraction ++ unit))) ∧
    (sign = [] ∨ sign = ['+'] ∨ sign = ['-']) ∧
    (∀ c ∈ whole ++ fraction, isDecimalDigit c = true) ∧
    (point = [] ∧ fraction = [] ∧ whole ≠ [] ∨ point = ['.'] ∧ fraction ≠ []) ∧
    Text.shown (unit.map Char.toLower) ∈ lengthUnits ∧
    Binary64.roundsToZero (decimalValue (whole ++ fraction)) fraction.length = true

variable {t whole fraction unit : Text}

/-- What is no capital stays as it is. -/
theorem toLower_of_not_isUpper {c : Char} (h : ¬c.isUpper = true) : c.toLower = c :=
  dif_neg fun hc => h (decide_eq_true ⟨hc.1, hc.2⟩)

/-- A unit of length consists of letters. -/
theorem isAlpha_of_mem_lengthUnits (h : Text.shown (unit.map Char.toLower) ∈ lengthUnits) :
    ∀ c ∈ unit, c.isAlpha = true := by
  have hlower : lengthUnits.all (fun u => u.toList.all Char.isLower) = true := by decide
  have hunit := List.all_eq_true.1 (List.all_eq_true.1 hlower _ h)
  intro c hc
  by_cases hupper : c.isUpper = true
  · exact Bool.or_eq_true_iff.2 (.inl hupper)
  · have hmem : c.toLower ∈ (Text.shown (unit.map Char.toLower)).toList := by
      rw [Text.shown, String.toList_ofList]
      exact List.mem_map_of_mem hc
    have hletter := hunit _ hmem
    rw [toLower_of_not_isUpper hupper] at hletter
    exact Bool.or_eq_true_iff.2 (.inr hletter)

/-- A letter is no digit. -/
theorem isDecimalDigit_of_isAlpha {c : Char} (h : c.isAlpha = true) : isDecimalDigit c = false := by
  by_contra hdigit
  have hstart : Selector.isNameStart c = false :=
    Selector.isNameStart_of_isDecimalDigit (Bool.not_eq_false _ ▸ hdigit)
  rw [Selector.isNameStart, h] at hstart
  cases hstart

/-- A decimal that is read stands in front of what follows. -/
theorem exists_of_readDecimal?_eq_some (h : readDecimal? t = some (whole, fraction, unit)) :
    ∃ point, t = whole ++ (point ++ (fraction ++ unit)) ∧
      (∀ c ∈ whole ++ fraction, isDecimalDigit c = true) ∧
      (point = [] ∧ fraction = [] ∧ whole ≠ [] ∨ point = ['.'] ∧ fraction ≠ []) := by
  have ht := List.takeWhile_append_dropWhile (p := isDecimalDigit) (l := t)
  have hwhole : ∀ c ∈ t.takeWhile isDecimalDigit, isDecimalDigit c = true := fun c hc =>
    List.mem_takeWhile_imp hc
  unfold readDecimal? at h
  dsimp only at h
  split at h
  · rename_i rest hrest
    split at h
    · cases h
    · rename_i hfraction
      cases h
      refine ⟨['.'], ?_, ?_, .inr ⟨rfl, by simpa using hfraction⟩⟩
      · rw [List.takeWhile_append_dropWhile, List.singleton_append, ← hrest, ht]
      · exact List.forall_mem_append.2 ⟨hwhole, fun c hc => List.mem_takeWhile_imp hc⟩
  · split at h
    · cases h
    · rename_i hne
      cases h
      refine ⟨[], ht.symm, ?_, .inl ⟨rfl, rfl, by simpa using hne⟩⟩
      rwa [List.append_nil]

/-- Digits without a point are read up to the unit. -/
theorem readDecimal?_whole (hne : whole ≠ []) (hdigits : ∀ c ∈ whole, isDecimalDigit c = true)
    (hunit : ∀ c ∈ unit, c.isAlpha = true) :
    readDecimal? (whole ++ unit) = some (whole, [], unit) := by
  have hstop : ∀ c ∈ unit.head?, isDecimalDigit c = false := fun c hc =>
    isDecimalDigit_of_isAlpha (hunit c (List.mem_of_head? hc))
  have hempty : whole.isEmpty = false := List.isEmpty_eq_false_iff.2 hne
  unfold readDecimal?
  rw [Text.takeWhile_append_stop hdigits hstop, Text.dropWhile_append_stop hdigits hstop]
  dsimp only
  split
  · rename_i rest
    exact absurd (hunit '.' List.mem_cons_self) (by decide)
  · rw [hempty]
    rfl

/-- Digits around a point are read up to the unit. -/
theorem readDecimal?_fraction (hne : fraction ≠ [])
    (hdigits : ∀ c ∈ whole ++ fraction, isDecimalDigit c = true)
    (hunit : ∀ c ∈ unit, c.isAlpha = true) :
    readDecimal? (whole ++ '.' :: (fraction ++ unit)) = some (whole, fraction, unit) := by
  obtain ⟨hwhole, hfraction⟩ := List.forall_mem_append.1 hdigits
  have hpoint : ∀ c ∈ ('.' :: (fraction ++ unit)).head?, isDecimalDigit c = false := by
    rintro _ ⟨⟩
    decide
  have hstop : ∀ c ∈ unit.head?, isDecimalDigit c = false := fun c hc =>
    isDecimalDigit_of_isAlpha (hunit c (List.mem_of_head? hc))
  have hempty : fraction.isEmpty = false := List.isEmpty_eq_false_iff.2 hne
  unfold readDecimal?
  rw [Text.takeWhile_append_stop hwhole hpoint, Text.dropWhile_append_stop hwhole hpoint]
  show (if ((fraction ++ unit).takeWhile isDecimalDigit).isEmpty then none
    else some (whole, (fraction ++ unit).takeWhile isDecimalDigit,
      (fraction ++ unit).dropWhile isDecimalDigit)) = _
  rw [Text.takeWhile_append_stop hfraction hstop,
    Text.dropWhile_append_stop hfraction hstop, hempty]
  rfl

/-- A text has at most one sign in front of the rest. -/
theorem exists_sign (t : Text) :
    ∃ sign : Text, t = sign ++ unsigned t ∧ (sign = [] ∨ sign = ['+'] ∨ sign = ['-']) := by
  unfold unsigned
  split
  · exact ⟨['+'], rfl, .inr (.inl rfl)⟩
  · exact ⟨['-'], rfl, .inr (.inr rfl)⟩
  · exact ⟨[], rfl, .inl rfl⟩

/-- A sign in front of a number is taken off. -/
theorem unsigned_append {sign : Text} (hsign : sign = [] ∨ sign = ['+'] ∨ sign = ['-'])
    (ht : ∀ c ∈ t.head?, isDecimalDigit c = true ∨ c = '.') : unsigned (sign ++ t) = t := by
  rcases hsign with rfl | rfl | rfl
  · rw [List.nil_append]
    unfold unsigned
    split
    · exact absurd (ht '+' rfl) (by decide)
    · exact absurd (ht '-' rfl) (by decide)
    · rfl
  · rfl
  · rfl

/-- What the rule takes for a zero with a unit is one. -/
theorem isZeroLength_iff {lexeme : Text} : isZeroLength lexeme = true ↔ IsZeroLength lexeme := by
  constructor
  · intro h
    obtain ⟨sign, hsplit, hsign⟩ := exists_sign lexeme
    unfold isZeroLength at h
    split at h
    · rename_i whole fraction unit hread
      obtain ⟨point, hunsigned, hdigits, hpoint⟩ := exists_of_readDecimal?_eq_some hread
      obtain ⟨hunit, hzero⟩ := Bool.and_eq_true_iff.1 h
      have hlength := List.contains_iff_mem.1 (Bool.and_eq_true_iff.1 hunit).2
      exact ⟨sign, whole, point, fraction, unit, by rw [← hunsigned, ← hsplit], hsign, hdigits,
        hpoint, hlength, hzero⟩
    · cases h
  · rintro ⟨sign, whole, point, fraction, unit, rfl, hsign, hdigits, hpoint, hlength, hzero⟩
    have hunit := isAlpha_of_mem_lengthUnits hlength
    have hhead : ∀ c ∈ (whole ++ (point ++ (fraction ++ unit))).head?,
        isDecimalDigit c = true ∨ c = '.' := by
      intro c hc
      cases whole with
      | cons d whole =>
        obtain rfl : d = c := Option.some.inj hc
        exact .inl (hdigits d List.mem_cons_self)
      | nil =>
        rcases hpoint with ⟨-, -, hne⟩ | ⟨rfl, -⟩
        · exact absurd rfl hne
        · exact .inr (Option.some.inj hc).symm
    have hread : readDecimal? (whole ++ (point ++ (fraction ++ unit))) =
        some (whole, fraction, unit) := by
      rcases hpoint with ⟨rfl, rfl, hne⟩ | ⟨rfl, hne⟩
      · exact readDecimal?_whole hne (by simpa using hdigits) hunit
      · exact readDecimal?_fraction hne hdigits hunit
    rw [isZeroLength, unsigned_append hsign hhead, hread]
    dsimp only
    rw [isLengthUnit, List.contains_iff_mem.2 hlength, hzero, List.all_eq_true.2 hunit]
    rfl

end Values

/-! ## 2. Parentheses that are open -/

def LeftOpen (row : List Token) (j : Nat) : Prop :=
  (∃ t, row[j]? = some t ∧ t.kind = .leftParen) ∧ ∀ k, ¬ Matched Token.Kind.parentheses row j k

namespace FunctionCall

/-- The parentheses that are open behind a token of this kind and number, innermost first. -/
def openAfter (place : Nat) (opened : List Nat) (k : Token.Kind) : List Nat :=
  match k with
  | .leftParen => place :: opened
  | .rightParen => opened.tail
  | _ => opened

/-- The parentheses that are open behind a row, innermost first. The row starts with a token of the
given number, inside the parentheses `opened`. -/
def openedFrom (place : Nat) (opened : List Nat) : List Token → List Nat
  | [] => opened
  | t :: rest => openedFrom (place + 1) (openAfter place opened t.kind) rest

theorem openAfter_other {place : Nat} {opened : List Nat} {k : Token.Kind} (hleft : k ≠ .leftParen)
    (h : opened = [] ∨ k ≠ .rightParen) : openAfter place opened k = opened := by
  cases k <;> simp_all [openAfter]

/-- A row of which the first token has the given number has an opening parenthesis with number
`j`. -/
def OpensAt (place : Nat) (row : List Token) (j : Nat) : Prop :=
  ∃ i t, row[i]? = some t ∧ t.kind = .leftParen ∧ j = place + i

theorem opensAt_cons {place j : Nat} {t : Token} {row : List Token} :
    OpensAt place (t :: row) j ↔ t.kind = .leftParen ∧ j = place ∨ OpensAt (place + 1) row j := by
  constructor
  · rintro ⟨i, u, hu, hkind, rfl⟩
    cases i with
    | zero =>
      obtain rfl := Option.some.inj hu
      exact .inl ⟨hkind, rfl⟩
    | succ i => exact .inr ⟨i, u, hu, hkind, by omega⟩
  · rintro (⟨hkind, rfl⟩ | ⟨i, u, hu, hkind, rfl⟩)
    · exact ⟨0, t, rfl, hkind, rfl⟩
    · exact ⟨i + 1, u, hu, hkind, by omega⟩

/-- What is open behind a row was open or is opened, and opens no pair. -/
theorem mem_openedFrom_iff {place j : Nat} {opened : List Nat} {row : List Token}
    (hnodup : opened.Nodup) (hlt : ∀ i ∈ opened, i < place) :
    j ∈ openedFrom place opened row ↔
      (j ∈ opened ∨ OpensAt place row j) ∧ ∀ k, (j, k) ∉ pairsFrom place opened row := by
  induction row generalizing place opened with
  | nil => simp [openedFrom, pairsFrom, OpensAt]
  | cons t row ih =>
    have hlt' : ∀ i ∈ opened, i < place + 1 := fun i hi => Nat.lt_succ_of_lt (hlt i hi)
    rw [openedFrom, opensAt_cons]
    by_cases hleft : t.kind = .leftParen
    · have hopen : openAfter place opened t.kind = place :: opened := by rw [hleft]; rfl
      have hfresh : place ∉ opened := fun hmem => Nat.lt_irrefl _ (hlt place hmem)
      rw [hopen, pairsFrom_left hleft, ih (List.nodup_cons.2 ⟨hfresh, hnodup⟩)
        (List.forall_mem_cons.2 ⟨Nat.lt_succ_self _, hlt'⟩), List.mem_cons]
      tauto
    by_cases hright : t.kind = .rightParen
    · cases opened with
      | nil =>
        rw [openAfter_other hleft (.inl rfl), pairsFrom_other hleft (.inl rfl), ih hnodup hlt']
        tauto
      | cons start outer =>
        have hopen : openAfter place (start :: outer) t.kind = outer := by rw [hright]; rfl
        obtain ⟨hstart, houter⟩ := List.nodup_cons.1 hnodup
        obtain ⟨hbefore, hlt''⟩ := List.forall_mem_cons.1 hlt'
        rw [hopen, pairsFrom_right hright, ih houter hlt'']
        -- the parenthesis that is closed here is not open any more
        have hclosed : ¬(start ∈ outer ∨ OpensAt (place + 1) row start) := by
          rintro (hmem | ⟨i, u, -, -, hi⟩)
          · exact hstart hmem
          · omega
        constructor
        · rintro ⟨hj, hpairs⟩
          refine ⟨hj.imp (List.mem_cons_of_mem _) .inr, fun k hk => ?_⟩
          rcases List.mem_cons.1 hk with hk | hk
          · obtain rfl : j = start := congrArg Prod.fst hk
            exact hclosed hj
          · exact hpairs k hk
        · rintro ⟨hj, hpairs⟩
          have hne : j ≠ start := by
            rintro rfl
            exact hpairs place List.mem_cons_self
          refine ⟨?_, fun k hk => hpairs k (List.mem_cons_of_mem _ hk)⟩
          rcases hj with hj | ⟨hkind, -⟩ | hj
          · exact .inl ((List.mem_cons.1 hj).resolve_left hne)
          · exact absurd hkind hleft
          · exact .inr hj
    · rw [openAfter_other hleft (.inr hright), pairsFrom_other hleft (.inr hright), ih hnodup hlt']
      tauto

/-- A stack holds the parentheses that are left open. -/
theorem mem_openedFrom_iff_leftOpen {text : Text} {row : List Token} {j : Nat}
    (hmem : ∀ t ∈ row, t ∈ tokenize text) : j ∈ openedFrom 0 [] row ↔ LeftOpen row j := by
  have hread : ∀ t ∈ [] ++ row, t ∈ tokenize text := hmem
  have hmatched := (Opened.calls hread (.none [])).1
  rw [mem_openedFrom_iff List.nodup_nil (by simp), LeftOpen]
  refine and_congr ?_ (forall_congr' fun k => not_congr ⟨fun h => hmatched (j, k) h,
    mem_pairs_of_matched⟩)
  constructor
  · rintro (hj | ⟨i, t, ht, hkind, rfl⟩)
    · cases hj
    · exact ⟨t, by rwa [Nat.zero_add], hkind⟩
  · rintro ⟨t, ht, hkind⟩
    exact .inr ⟨j, t, ht, hkind, (Nat.zero_add j).symm⟩

end FunctionCall

/-! ## 3. The zeros of a span -/

open FunctionCall

namespace Values

section

variable {functions : List Text} {p : Place} {ps : List Place} {t : Token}

theorem zerosFrom_left (kind : p.token.kind = .leftParen) :
    zerosFrom functions (p :: ps) = zerosFrom (functionName p :: functions) ps := by
  simp [zerosFrom, kind]

theorem zerosFrom_right (kind : p.token.kind = .rightParen) :
    zerosFrom functions (p :: ps) = zerosFrom functions.tail ps := by
  simp [zerosFrom, kind]

/-- A zero with a unit is reported unless some function around it calculates. -/
theorem zerosFrom_number (kind : p.token.kind = .number) :
    zerosFrom functions (p :: ps) =
      if !functions.any isMath && isZeroLength p.token.lexeme then
        p.token :: zerosFrom functions ps
      else zerosFrom functions ps := by
  simp [zerosFrom, kind]

theorem zerosFrom_other (hleft : p.token.kind ≠ .leftParen) (hright : p.token.kind ≠ .rightParen)
    (hnumber : p.token.kind ≠ .number) :
    zerosFrom functions (p :: ps) = zerosFrom functions ps := by
  rw [zerosFrom.eq_def]
  dsimp only
  split <;> simp_all

/-- The first token of a row is reported if it is a zero with a unit and nothing around it
calculates; what is open changes with the token. -/
theorem mem_zerosFrom_cons {names : Nat → Text} {place : Nat} {opened : List Nat}
    (hname : functionName p = names place) :
    t ∈ zerosFrom (opened.map names) (p :: ps) ↔
      (p.token = t ∧ t.kind = .number ∧ isZeroLength t.lexeme = true ∧
        ∀ j ∈ opened, isMath (names j) = false) ∨
      t ∈ zerosFrom ((openAfter place opened p.token.kind).map names) ps := by
  have hskip (h : p.token.kind ≠ .number) : ¬(p.token = t ∧ t.kind = .number ∧
      isZeroLength t.lexeme = true ∧ ∀ j ∈ opened, isMath (names j) = false) := by
    rintro ⟨rfl, hnumber, -⟩
    exact h hnumber
  by_cases hleft : p.token.kind = .leftParen
  · rw [zerosFrom_left hleft, or_iff_right (hskip (by simp [hleft])), hleft, hname]
    rfl
  by_cases hright : p.token.kind = .rightParen
  · rw [zerosFrom_right hright, or_iff_right (hskip (by simp [hright])), hright, ← List.map_tail]
    rfl
  rw [openAfter_other hleft (.inr hright)]
  by_cases hnumber : p.token.kind = .number
  · rw [zerosFrom_number hnumber]
    have hmath : (!(opened.map names).any isMath) = true ↔
        ∀ j ∈ opened, isMath (names j) = false := by
      simp
    split
    · rename_i hzero
      rw [Bool.and_eq_true, hmath] at hzero
      rw [List.mem_cons]
      refine or_congr_left ⟨?_, fun h => h.1.symm⟩
      rintro rfl
      exact ⟨rfl, hnumber, hzero.2, hzero.1⟩
    · rename_i hzero
      rw [Bool.and_eq_true, hmath] at hzero
      refine (or_iff_right ?_).symm
      rintro ⟨rfl, -, hlength, hopen⟩
      exact hzero ⟨hopen, hlength⟩
  · rw [zerosFrom_other hleft hright hnumber, or_iff_right (hskip hnumber)]

/-- A token is reported if it is a zero with a unit and none of the parentheses that are open in
front of it has the name of a function that calculates. -/
theorem mem_zerosFrom_iff {names : Nat → Text} {place : Nat} {opened : List Nat}
    (hnames : ∀ i p, ps[i]? = some p → functionName p = names (place + i)) :
    t ∈ zerosFrom (opened.map names) ps ↔
      t.kind = .number ∧ isZeroLength t.lexeme = true ∧ ∃ i, (ps.map Place.token)[i]? = some t ∧
        ∀ j ∈ openedFrom place opened ((ps.map Place.token).take i), isMath (names j) = false := by
  induction ps generalizing place opened with
  | nil => simp [zerosFrom]
  | cons p ps ih =>
    have hrest : ∀ i q, ps[i]? = some q → functionName q = names (place + 1 + i) := by
      intro i q hq
      rw [Nat.add_right_comm]
      exact hnames (i + 1) q hq
    rw [mem_zerosFrom_cons (hnames 0 p rfl), ih hrest, List.map_cons]
    constructor
    · rintro (⟨rfl, hnumber, hlength, hopen⟩ | ⟨hnumber, hlength, i, ht, hopen⟩)
      · exact ⟨hnumber, hlength, 0, rfl, hopen⟩
      · exact ⟨hnumber, hlength, i + 1, ht, hopen⟩
    · rintro ⟨hnumber, hlength, i, ht, hopen⟩
      cases i with
      | zero => exact .inl ⟨Option.some.inj ht, hnumber, hlength, hopen⟩
      | succ i => exact .inr ⟨hnumber, hlength, i, ht, hopen⟩

/-- Tokens are reported in order. -/
theorem sublist_zerosFrom (functions : List Text) (ps : List Place) :
    (zerosFrom functions ps).Sublist (ps.map Place.token) := by
  induction ps generalizing functions with
  | nil => exact List.Sublist.refl _
  | cons p ps ih =>
    rw [zerosFrom, List.map_cons]
    split
    · exact (ih _).cons _
    · exact (ih _).cons _
    · split
      · exact (ih _).cons_cons _
      · exact (ih _).cons _
    · exact (ih _).cons _

end

end Values

/-- The token with this number has a function that calculates right in front: an identifier that,
in lower case and without a vendor prefix, is the name of one. -/
def FollowsMath (tokens : List Token) (i : Nat) : Prop :=
  ∃ k name, i = k + 1 ∧ tokens[k]? = some name ∧ name.kind = .ident ∧
    (stripVendor (lowercase name.lexeme)).shown ∈ Values.mathFunctions

namespace Place

variable {before row : List Token} {p : Place} {i : Nat}

theorem getElem?_allFrom (h : (allFrom before row)[i]? = some p) :
    row[i]? = some p.token ∧ p.before = (row.take i).reverse ++ before := by
  induction row generalizing before i with
  | nil => simp [allFrom] at h
  | cons t row ih =>
    cases i with
    | zero =>
      obtain rfl := Option.some.inj h
      exact ⟨rfl, rfl⟩
    | succ i =>
      obtain ⟨htoken, hbefore⟩ := ih h
      refine ⟨htoken, ?_⟩
      rw [hbefore, List.take_succ_cons, List.reverse_cons, List.append_assoc]
      rfl

/-- A token of a span by its number. -/
theorem getElem?_slice {tokens : List Token} {span : Span} (h : i < span.stop - span.start) :
    (span.slice tokens.toArray)[i]? = tokens[span.start + i]? := by
  rw [Span.slice_toArray, List.getElem?_take_of_lt h, List.getElem?_drop]

/-- The neighbour in front of a token of a span is the token with the number before. -/
theorem head?_before_ofSpan {tokens : List Token} {span : Span}
    (h : (ofSpan tokens.toArray span)[i]? = some p) :
    p.before.head?.toList = previous tokens.toArray (span.start + i) := by
  obtain ⟨htoken, hbefore⟩ := getElem?_allFrom h
  cases i with
  | zero =>
    have hprevious : p.before = previous tokens.toArray span.start := hbefore
    rw [hprevious, Nat.add_zero]
    cases span.start with
    | zero => rfl
    | succ k => cases hk : tokens.toArray[k]? <;> simp [previous, hk]
  | succ i =>
    obtain ⟨hlength, -⟩ := List.getElem?_eq_some_iff.1 htoken
    have hslice : i + 1 < span.stop - span.start := by
      rw [Span.slice_toArray, List.length_take] at hlength
      omega
    obtain ⟨u, hu⟩ : ∃ u, (span.slice tokens.toArray)[i]? = some u :=
      ⟨_, List.getElem?_eq_getElem (Nat.lt_of_succ_lt hlength)⟩
    have hlast : ((span.slice tokens.toArray).take (i + 1)).getLast? = some u := by
      rw [List.getLast?_take, if_neg (Nat.succ_ne_zero i), Nat.add_sub_cancel, hu, Option.some_or]
    rw [getElem?_slice (by omega)] at hu
    rw [hbefore, List.head?_append, List.head?_reverse, hlast, Option.some_or, ← Nat.add_assoc,
      previous, List.getElem?_toArray, hu]

theorem mem_previous {tokens : List Token} {t : Token} {n : Nat} :
    t ∈ previous tokens.toArray n ↔ ∃ k, n = k + 1 ∧ tokens[k]? = some t := by
  cases n with
  | zero => simp [previous]
  | succ k => simp [previous]

end Place

namespace Values

/-- The name in front of a parenthesis is that of a function which calculates if the neighbour in
front says so. -/
theorem isMath_functionName_iff {p : Place} :
    isMath (functionName p) = true ↔ ∃ name ∈ p.before.head?.toList, name.kind = .ident ∧
      (stripVendor (lowercase name.lexeme)).shown ∈ mathFunctions := by
  have hnone : isMath [] = false := by decide
  unfold functionName
  cases p.before with
  | nil => simp [hnone]
  | cons name more =>
    by_cases hkind : name.kind = .ident
    · simp [hkind, isMath]
    · simp [hkind, hnone]

/-- A parenthesis belongs to a function that calculates exactly if the name of one stands right in
front of it. -/
theorem isMath_functionName_ofSpan {tokens : List Token} {span : Span} {p : Place} {i : Nat}
    (h : (Place.ofSpan tokens.toArray span)[i]? = some p) :
    isMath (functionName p) = true ↔ FollowsMath tokens (span.start + i) := by
  rw [isMath_functionName_iff, Place.head?_before_ofSpan h]
  simp only [Place.mem_previous, FollowsMath]
  constructor
  · rintro ⟨name, ⟨k, hk, hname⟩, hmath⟩
    exact ⟨k, name, hk, hname, hmath⟩
  · rintro ⟨k, name, hk, hname, hmath⟩
    exact ⟨name, ⟨k, hk, hname⟩, hmath⟩

/-- A token of a span is reported if it is a zero with a unit and no parenthesis that is open in
front of it belongs to a function that calculates. -/
theorem mem_zerosFrom_ofSpan {text : Text} {span : Span} {t : Token} :
    t ∈ zerosFrom [] (Place.ofSpan (tokenize text).toArray span) ↔
      t.kind = .number ∧ IsZeroLength t.lexeme ∧
        ∃ i, (span.slice (tokenize text).toArray)[i]? = some t ∧
          ∀ j, LeftOpen ((span.slice (tokenize text).toArray).take i) j →
            ¬FollowsMath (tokenize text) (span.start + j) := by
  let row := span.slice (tokenize text).toArray
  let ps := Place.ofSpan (tokenize text).toArray span
  let names (j : Nat) : Text := (ps[j]?.map functionName).getD []
  have htokens : ps.map Place.token = row := Fetching.token_allFrom _ _
  have hnames : ∀ i p, ps[i]? = some p → functionName p = names (0 + i) := by
    intro i p hp
    simp [names, hp]
  have hzeros : t ∈ zerosFrom (List.map names []) ps ↔ _ := mem_zerosFrom_iff hnames
  rw [List.map_nil] at hzeros
  rw [hzeros, htokens, isZeroLength_iff]
  refine and_congr_right fun _ => and_congr_right fun _ => exists_congr fun i =>
    and_congr_right fun _ => forall_congr' fun j => ?_
  rw [mem_openedFrom_iff_leftOpen fun u hu => Span.mem_of_mem_slice (List.mem_of_mem_take hu)]
  refine imp_congr_right fun hopen => ?_
  obtain ⟨⟨u, hu, -⟩, -⟩ := hopen
  have hrow : row[j]? = some u := by
    rw [List.getElem?_take] at hu
    split at hu
    · exact hu
    · cases hu
  rw [← htokens, List.getElem?_map] at hrow
  obtain ⟨p, hp, -⟩ := Option.map_eq_some_iff.1 hrow
  have hname : names j = functionName p := by simp [names, hp]
  rw [hname, ← isMath_functionName_ofSpan hp, Bool.not_eq_true]

end Values

/-! ## 4. The zeros of a stylesheet -/

namespace Stylesheet

variable {s : Stylesheet} {span : Span}

/-- The values that are looked through are those of declarations other than custom properties, and
the preludes of at-rules. -/
theorem mem_ordinarySpans :
    span ∈ s.ordinarySpans ↔
      (∃ d ∈ s.allDeclarations, ¬['-', '-'] <+: d.property ∧ d.valueSpan = span) ∨
        ∃ n ∈ s.nodes, ∃ name, n.atRule? = some (name, span) := by
  rw [ordinarySpans, mem_spansOf]
  refine or_congr_left (exists_congr fun d => ?_)
  rw [List.mem_filter, and_assoc, Bool.not_eq_true', Declaration.isCustom, ← Bool.not_eq_true,
    List.isPrefixOf_iff_prefix]

/-- No zero is found twice, since no token is in two values. -/
theorem nodup_zeros (file : String) (text : Text) :
    ((ofText file text).1.ordinarySpans.flatMap fun span =>
      Values.zerosFrom [] (Place.ofSpan (tokenize text).toArray span)).Nodup := by
  have hspans : (ofText file text).1.ordinarySpans.Sublist (ofText file text).1.valueSpans :=
    (List.filter_sublist.map _).append (List.Sublist.refl _)
  have hzeros (span : Span) : (Values.zerosFrom []
      (Place.ofSpan (tokenize text).toArray span)).Sublist (span.slice (tokenize text).toArray) :=
    Fetching.token_allFrom _ (span.slice (tokenize text).toArray) ▸ Values.sublist_zerosFrom [] _
  exact ((List.Sublist.flatMap_right _ fun span _ => hzeros span).trans
    (hspans.flatMap _)).nodup (nodup_slices file text)

end Stylesheet

/-- **The zeros that are asked to drop their unit**, for every text. There is one finding for each,
and none for anything else: a number in the value of a declaration, other than that of a custom
property, or in the prelude of an at-rule, which is written as a decimal with or without a sign that
denotes zero, followed by a unit of length in any case, and in front of which no parenthesis of the
span is left open that has `calc`, `clamp`, `min` or `max` right in front of it, in any case and
with or without a vendor prefix. -/
theorem zeros_outside_math (file : String) (text : Text) (o : Options) :
    let s := (Stylesheet.ofText file text).1
    ∃ zeros : List Token, zeros.Nodup ∧
      Values.checkZeros s o = zeros.map (fun t =>
        s.finding .unitOnZeroValue t.line t.column
          s!"Zero length '{t.lexeme.shown}' should be written '0'." (some "0")) ∧
      ∀ t, t ∈ zeros ↔
        t.kind = .number ∧ Values.IsZeroLength t.lexeme ∧
        ∃ span : Span,
          ((∃ d ∈ s.allDeclarations, ¬['-', '-'] <+: d.property ∧ d.valueSpan = span) ∨
            ∃ n ∈ s.nodes, ∃ name, n.atRule? = some (name, span)) ∧
          ∃ i, (span.slice s.tokens.toArray)[i]? = some t ∧
            ∀ j, LeftOpen ((span.slice s.tokens.toArray).take i) j →
              ¬FollowsMath s.tokens (span.start + j) := by
  intro s
  refine ⟨_, Stylesheet.nodup_zeros file text, rfl, fun t => ?_⟩
  rw [List.mem_flatMap]
  constructor
  · rintro ⟨span, hspan, ht⟩
    obtain ⟨hnumber, hlength, hopen⟩ := Values.mem_zerosFrom_ofSpan.1 ht
    exact ⟨hnumber, hlength, span, Stylesheet.mem_ordinarySpans.1 hspan, hopen⟩
  · rintro ⟨hnumber, hlength, span, hspan, hopen⟩
    exact ⟨span, Stylesheet.mem_ordinarySpans.2 hspan,
      Values.mem_zerosFrom_ofSpan.2 ⟨hnumber, hlength, hopen⟩⟩

end HouseStyle
