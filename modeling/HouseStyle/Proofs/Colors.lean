/-
HouseStyle.Proofs.Colors — every color has one accepted spelling.

A color is written with three, four, six or eight hexadecimal digits in either case, and one of
three or four digits stands for two equal ones. Two spellings denote the same color if they are the
same once they are written in full and in lower case (`SameColor`). Of all spellings of a color one
is accepted, the one in lower case that is not longer than any other (`Canonical`), and it is the
preferred one; a color is reported if, and only if, it is written in another way
(`colors_canonical`).

## How the proof goes

The preferred spelling depends on nothing but the color in full: it is every other digit of it, if
the digits come in equal pairs (`preferredHex_eq_shorten`). So all spellings of a color have the
same preferred one. Writing it in full gives the color back (`expand_shorten`), so it is itself a
spelling of the color. Two canonical spellings of a color are equally long and hence the same
(`Canonical.unique`).
-/
import HouseStyle.Proofs.Containment
import HouseStyle.Proofs.Positions

namespace HouseStyle

namespace Values

variable {c : Char} {d e t u : Text}

/-! ## 1. Spellings -/

def hexDigits : List Char :=
  ['0', '1', '2', '3', '4', '5', '6', '7', '8', '9', 'a', 'b', 'c', 'd', 'e', 'f',
   'A', 'B', 'C', 'D', 'E', 'F']

/-- The text is a spelling of a color. -/
structure IsColor (t : Text) : Prop where
  length : t.length ∈ [3, 4, 6, 8]
  digits : ∀ c ∈ t, c ∈ hexDigits

def lowered (t : Text) : Text := t.map Char.toLower

def doubled (t : Text) : Text := t.flatMap fun c => [c, c]

/-- A spelling of three or four digits with every digit twice; longer ones stay as they are. -/
def expand (t : Text) : Text := if t.length = 3 ∨ t.length = 4 then doubled t else t

/-- The spellings are the same in full and in lower case. -/
def SameColor (d e : Text) : Prop := expand (lowered d) = expand (lowered e)

/-- The spelling is in lower case, and no spelling of the same color is shorter. -/
structure Canonical (d : Text) : Prop where
  lower : lowered d = d
  shortest : ∀ e, IsColor e → SameColor e d → d.length ≤ e.length

/-! ## 2. Digits -/

theorem toNat_lt_of_isHexDigit (h : isHexDigit c = true) : c.toNat < 128 := by
  have hbelow {x : Char} (hx : x.toNat < 128) (hc : c ≤ x) : c.toNat < 128 :=
    Nat.lt_of_le_of_lt hc hx
  simp only [isHexDigit, Bool.or_eq_true, Bool.and_eq_true, decide_eq_true_eq] at h
  rcases h with (h | ⟨-, h⟩) | ⟨-, h⟩
  · exact Nat.lt_of_le_of_lt (Char.isDigit_iff_toNat.1 h).2 (by decide)
  · exact hbelow (by decide) h
  · exact hbelow (by decide) h

/-- The hexadecimal digits can be listed, so facts about all of them can be checked one by one. -/
theorem isHexDigit_iff : isHexDigit c = true ↔ c ∈ hexDigits := by
  constructor
  · intro h
    have hall : ∀ n < 128, isHexDigit (Char.ofNat n) = true → Char.ofNat n ∈ hexDigits := by
      decide
    have hc := hall c.toNat (toNat_lt_of_isHexDigit h)
    rw [Char.ofNat_toNat] at hc
    exact hc h
  · have hall : hexDigits.all isHexDigit = true := by decide
    exact List.all_eq_true.1 hall c

theorem isColor_iff : isColor t = true ↔ IsColor t := by
  simp only [isColor, Bool.and_eq_true, List.contains_iff_mem, List.all_eq_true, isHexDigit_iff]
  exact ⟨fun h => ⟨h.1, h.2⟩, fun h => ⟨h.length, h.digits⟩⟩

instance (t : Text) : Decidable (IsColor t) := decidable_of_iff _ isColor_iff

/-- Digits in lower case are digits, and stay as they are. -/
theorem toLower_of_mem_hexDigits (h : c ∈ hexDigits) :
    c.toLower ∈ hexDigits ∧ c.toLower.toLower = c.toLower := by
  have hall : hexDigits.all
      (fun c => c.toLower ∈ hexDigits ∧ c.toLower.toLower = c.toLower) = true := by
    decide
  exact of_decide_eq_true (List.all_eq_true.1 hall c h)

theorem isNameChar_of_mem_hexDigits (h : c ∈ hexDigits) : Token.isNameChar c = true := by
  have hall : hexDigits.all Token.isNameChar = true := by decide
  exact List.all_eq_true.1 hall c h

theorem lowered_eq_self (h : ∀ c ∈ t, c.toLower = c) : lowered t = t :=
  (List.map_congr_left h).trans (List.map_id t)

theorem IsColor.lowered (h : IsColor d) : IsColor (lowered d) := by
  refine ⟨by simpa [Values.lowered] using h.length, fun c hc => ?_⟩
  obtain ⟨x, hx, rfl⟩ := List.mem_map.1 hc
  exact (toLower_of_mem_hexDigits (h.digits x hx)).1

theorem IsColor.toLower_eq (h : IsColor d) : ∀ c ∈ Values.lowered d, c.toLower = c := by
  intro c hc
  obtain ⟨x, hx, rfl⟩ := List.mem_map.1 hc
  exact (toLower_of_mem_hexDigits (h.digits x hx)).2

/-! ## 3. Twice and every other -/

@[simp] theorem doubled_nil : doubled [] = [] := rfl

@[simp] theorem doubled_cons (c : Char) (t : Text) : doubled (c :: t) = c :: c :: doubled t := rfl

theorem length_doubled (t : Text) : (doubled t).length = 2 * t.length := by
  induction t with
  | nil => rfl
  | cons c t ih =>
    rw [doubled_cons, List.length_cons, List.length_cons, List.length_cons, ih]
    omega

theorem mem_doubled : c ∈ doubled t ↔ c ∈ t := by
  simp [doubled]

/-- Every other digit is left of a text in which every digit stands twice, and of no other text. -/
theorem halve?_eq_some_iff : halve? t = some u ↔ t = doubled u := by
  fun_induction halve? t generalizing u with
  | case1 => cases u <;> simp
  | case2 a => cases u <;> simp
  | case3 b rest ih =>
    cases u with
    | nil => simp
    | cons c u =>
      rw [Option.map_eq_some_iff, doubled_cons]
      simp [ih, and_comm]
  | case4 a b rest hne =>
    have hodd : a :: b :: rest ≠ doubled u := by
      cases u with
      | nil => simp
      | cons c u =>
        intro h
        rw [doubled_cons, List.cons.injEq, List.cons.injEq] at h
        exact hne (h.1.trans h.2.1.symm)
    simp [hodd]

/-- Every other digit, if the digits come in equal pairs; else all of them. -/
def shorten (t : Text) : Text := (halve? t).getD t

/-- Doubling the digits can be taken back. -/
theorem shorten_doubled (t : Text) : shorten (doubled t) = t := by
  rw [shorten, halve?_eq_some_iff.2 rfl, Option.getD_some]

/-- A text is shortened to what it is the double of, which is half as long, or it stays. -/
theorem shorten_cases (t : Text) :
    (t = doubled (shorten t) ∧ t.length = 2 * (shorten t).length) ∨ shorten t = t := by
  unfold shorten
  cases h : halve? t with
  | none => exact .inr rfl
  | some u =>
    have ht := halve?_eq_some_iff.1 h
    exact .inl ⟨ht, (congrArg List.length ht).trans (length_doubled u)⟩

theorem mem_of_mem_shorten (h : c ∈ shorten t) : c ∈ t := by
  rcases shorten_cases t with ⟨ht, -⟩ | ht
  · rw [ht]
    exact mem_doubled.2 h
  · rwa [ht] at h

theorem length_shorten_le (t : Text) : (shorten t).length ≤ t.length := by
  rcases shorten_cases t with ⟨-, hlength⟩ | ht
  · omega
  · rw [ht]

/-! ## 4. In full -/

theorem expand_short (h : t.length = 3 ∨ t.length = 4) : expand t = doubled t := if_pos h

theorem expand_long (h : t.length = 6 ∨ t.length = 8) : expand t = t := if_neg (by omega)

theorem mem_lengths {n : Nat} : n ∈ [3, 4, 6, 8] ↔ (n = 3 ∨ n = 4) ∨ n = 6 ∨ n = 8 := by
  simp [or_assoc]

/-- A spelling has the same digits, written short or in full. -/
theorem mem_expand : c ∈ expand t ↔ c ∈ t := by
  unfold expand
  split
  · exact mem_doubled
  · rfl

theorem IsColor.length_expand (h : IsColor d) :
    (expand d).length = 6 ∨ (expand d).length = 8 := by
  rcases mem_lengths.1 h.length with hshort | hlong
  · rw [expand_short hshort, length_doubled]
    omega
  · rwa [expand_long hlong]

/-- Spellings of one length that are the same in full are the same. -/
theorem eq_of_expand_eq (hlength : d.length = e.length) (h : expand d = expand e) : d = e := by
  unfold expand at h
  rw [hlength] at h
  split at h
  · rw [← shorten_doubled d, h, shorten_doubled]
  · exact h

/-- What was shortened is the same in full. -/
theorem expand_shorten (h : t.length = 6 ∨ t.length = 8) : expand (shorten t) = t := by
  rcases shorten_cases t with ⟨ht, hlength⟩ | ht
  · rw [expand_short (by omega), ← ht]
  · rw [ht, expand_long h]

theorem IsColor.shorten_expand (h : IsColor d) : IsColor (shorten (expand d)) := by
  refine ⟨mem_lengths.2 ?_, fun c hc => h.digits c (mem_expand.1 (mem_of_mem_shorten hc))⟩
  have hlong := h.length_expand
  rcases shorten_cases (expand d) with ⟨-, hlength⟩ | ht
  · omega
  · rw [ht]
    exact .inr hlong

theorem length_shorten_expand_le (t : Text) : (shorten (expand t)).length ≤ t.length := by
  unfold expand
  split
  · rw [shorten_doubled]
  · exact length_shorten_le t

/-! ## 5. The preferred spelling -/

theorem length_lowered (d : Text) : (lowered d).length = d.length := List.length_map _

/-- The preferred spelling is the color in full, shortened. -/
theorem preferredHex_eq_shorten (h : IsColor d) :
    preferredHex d = shorten (expand (lowered d)) := by
  show (if (lowered d).length = 6 || (lowered d).length = 8 then shorten (lowered d)
    else lowered d) = _
  -- a short spelling stays as it is, which is to double it and to take every other digit
  rcases mem_lengths.1 h.lowered.length with hshort | hlong
  · have hnot : ¬((lowered d).length = 6 || (lowered d).length = 8) = true := by
      simp only [Bool.or_eq_true, decide_eq_true_eq]
      omega
    rw [if_neg hnot, expand_short hshort, shorten_doubled]
  · rw [if_pos (by simpa using hlong), expand_long hlong]

/-- The preferred spelling of a color is a spelling of a color. -/
theorem isColor_preferredHex (h : IsColor d) : IsColor (preferredHex d) := by
  rw [preferredHex_eq_shorten h]
  exact h.lowered.shorten_expand

/-- The preferred spelling is in lower case. -/
theorem lowered_preferredHex (h : IsColor d) : lowered (preferredHex d) = preferredHex d := by
  rw [preferredHex_eq_shorten h]
  exact lowered_eq_self fun c hc => h.toLower_eq c (mem_expand.1 (mem_of_mem_shorten hc))

/-- The preferred spelling denotes the same color. -/
theorem expand_preferredHex (h : IsColor d) : expand (preferredHex d) = expand (lowered d) := by
  rw [preferredHex_eq_shorten h, expand_shorten h.lowered.length_expand]

/-- The preferred spelling is one of the same color. -/
theorem sameColor_preferredHex (h : IsColor d) : SameColor (preferredHex d) d := by
  rw [SameColor, lowered_preferredHex h, expand_preferredHex h]

/-- Spellings of one color, and no others, have the same preferred one. -/
theorem preferredHex_eq_iff (hd : IsColor d) (he : IsColor e) :
    preferredHex d = preferredHex e ↔ SameColor d e := by
  constructor
  · intro h
    rw [SameColor, ← expand_preferredHex hd, h, expand_preferredHex he]
  · intro h
    rw [preferredHex_eq_shorten hd, h, preferredHex_eq_shorten he]

/-- The preferred spelling is preferred: rewriting it once more changes nothing. -/
theorem preferredHex_preferredHex (h : IsColor d) :
    preferredHex (preferredHex d) = preferredHex d :=
  (preferredHex_eq_iff (isColor_preferredHex h) h).2 (sameColor_preferredHex h)

/-- The preferred spelling is never longer. -/
theorem length_preferredHex_le (h : IsColor d) : (preferredHex d).length ≤ d.length := by
  rw [preferredHex_eq_shorten h, ← length_lowered d]
  exact length_shorten_expand_le (lowered d)

theorem canonical_preferredHex (h : IsColor d) : Canonical (preferredHex d) := by
  refine ⟨lowered_preferredHex h, fun e he hsame => ?_⟩
  have hpreferred := (preferredHex_eq_iff he (isColor_preferredHex h)).2 hsame
  rw [← preferredHex_preferredHex h, ← hpreferred]
  exact length_preferredHex_le he

/-- No color has two canonical spellings. -/
theorem Canonical.unique (hd : IsColor d) (he : IsColor e) (hcd : Canonical d) (hce : Canonical e)
    (hsame : SameColor d e) : d = e := by
  have hlength : d.length = e.length :=
    Nat.le_antisymm (hcd.shortest e he hsame.symm) (hce.shortest d hd hsame)
  rw [SameColor, hcd.lower, hce.lower] at hsame
  exact eq_of_expand_eq hlength hsame

/-- The preferred spelling is the canonical one. -/
theorem eq_preferredHex_iff (h : IsColor d) :
    e = preferredHex d ↔ IsColor e ∧ SameColor e d ∧ Canonical e := by
  constructor
  · rintro rfl
    exact ⟨isColor_preferredHex h, sameColor_preferredHex h, canonical_preferredHex h⟩
  · rintro ⟨he, hsame, hcanonical⟩
    exact hcanonical.unique he (isColor_preferredHex h) (canonical_preferredHex h)
      (hsame.trans (sameColor_preferredHex h).symm)

/-- A spelling is left alone exactly if it is the preferred one. -/
theorem preferredHex_eq_self_iff (h : IsColor d) : preferredHex d = d ↔ Canonical d := by
  rw [eq_comm, eq_preferredHex_iff h]
  exact ⟨fun hd => hd.2.2, fun hd => ⟨h, rfl, hd⟩⟩

/-! ## 6. Colors among the tokens -/

/-- The token is a color and not written as preferred. -/
def isMisspelled (t : Token) : Bool :=
  t.kind = .hash && isColor t.lexeme.tail && preferredHex t.lexeme.tail != t.lexeme.tail

/-- A token is reported exactly if it spells a color in another than the preferred way. -/
theorem isMisspelled_iff {t : Token} :
    isMisspelled t = true ↔
      t.kind = .hash ∧ IsColor t.lexeme.tail ∧ ¬Canonical t.lexeme.tail := by
  simp only [isMisspelled, Bool.and_eq_true, decide_eq_true_eq, bne_iff_ne, isColor_iff, and_assoc]
  exact and_congr_right fun _ => and_congr_right fun hcolor =>
    not_congr (preferredHex_eq_self_iff hcolor)

/-- There is a finding for every color that is not written as preferred. -/
theorem checkColors_eq (s : Stylesheet) (o : Options) :
    checkColors s o =
      ((s.valueSpans.flatMap (·.slice s.tokens.toArray)).filter isMisspelled).map fun t =>
        let preferred := (preferredHex t.lexeme.tail).shown
        s.finding .hexCaseOrLength t.line t.column
          s!"Hex color '{t.lexeme.shown}' should be written '#{preferred}'."
          (some s!"#{preferred}") := by
  rw [← List.filterMap_eq_filter, List.map_filterMap, checkColors]
  refine congrArg (List.filterMap · _) (funext fun t => ?_)
  show (if isMisspelled t then some _ else none) = (Option.guard isMisspelled t).map _
  cases h : isMisspelled t <;> simp [Option.guard, h]

end Values

namespace Token

variable {c : Char} {digits text : Text} {t : Token}

/-- A hash token starts with its sign. -/
theorem lexeme_of_hash (ht : t ∈ tokenize text) (hkind : t.kind = .hash) :
    t.lexeme = '#' :: t.lexeme.tail := by
  obtain ⟨c, rest, place, rfl⟩ := exists_next_of_mem ht
  rw [List.tail_cons, (first_of_next _ _).1 hkind]

/-- A number sign with the characters of a name is read as one token. -/
theorem tokenize_numberSign (hne : digits ≠ [])
    (hname : ∀ c ∈ digits, isNameChar c = true) :
    tokenize ('#' :: digits) = [⟨.hash, '#' :: digits, {}⟩] := by
  have hnext : next '#' digits = (.hash, .everything digits) := by
    show hashTail digits = _
    cases digits with
    | nil => exact absurd rfl hne
    | cons c rest =>
      have hc := hname c List.mem_cons_self
      have hbrace : ¬(c == '{') = true := by
        intro hopen
        rw [eq_of_beq hopen] at hc
        exact absurd hc (by decide)
      rw [hashTail, if_neg hbrace, if_pos hc, Cut.spanning, List.takeWhile_eq_self_iff.2 hname,
        List.dropWhile_eq_nil_iff.2 hname]
      rfl
  rw [tokenize, streamFrom_cons, hnext]
  exact congrArg _ (streamFrom_nil _)

end Token

namespace Values

/-- The preferred spelling, behind a number sign, is read as one token. -/
theorem tokenize_preferredHex (h : IsColor d) :
    tokenize ('#' :: preferredHex d) = [⟨.hash, '#' :: preferredHex d, {}⟩] := by
  have hpreferred := isColor_preferredHex h
  refine Token.tokenize_numberSign ?_ fun c hc => ?_
  · intro hempty
    exact absurd (hempty ▸ hpreferred.length) (by decide)
  · exact isNameChar_of_mem_hexDigits (hpreferred.digits c hc)

end Values

open Values

/-- **Every color has one accepted spelling.** For any two spellings: the preferred spelling of a
color denotes the same color, is a spelling of a color that is read as one token, and is its own
preferred spelling; two spellings have the same preferred one if, and only if, they denote the same
color; and of all spellings of a color the preferred one is the only one that is canonical. For
every text there is one finding for each color in the value of a declaration or in the prelude of an
at-rule that is not written in its canonical way, and none for anything else. -/
theorem colors_canonical (d e : Text) (hd : IsColor d) (he : IsColor e) (file : String)
    (text : Text) (o : Options) :
    let s := (Stylesheet.ofText file text).1
    expand (preferredHex d) = expand (lowered d) ∧
      IsColor (preferredHex d) ∧
      (∃ t, tokenize ('#' :: preferredHex d) = [t] ∧ t.kind = .hash ∧
        t.lexeme = '#' :: preferredHex d) ∧
      preferredHex (preferredHex d) = preferredHex d ∧
      (expand (lowered d) = expand (lowered e) ↔ preferredHex d = preferredHex e) ∧
      (∀ c, IsColor c ∧ SameColor c d ∧ Canonical c ↔ c = preferredHex d) ∧
      ∃ reported : List Token, reported.Nodup ∧
        checkColors s o = reported.map (fun t =>
          let preferred := (preferredHex t.lexeme.tail).shown
          s.finding .hexCaseOrLength t.line t.column
            s!"Hex color '{t.lexeme.shown}' should be written '#{preferred}'."
            (some s!"#{preferred}")) ∧
        ∀ t, t ∈ reported ↔
          t.kind = .hash ∧
          (∃ digits, t.lexeme = '#' :: digits ∧ IsColor digits ∧ ¬Canonical digits) ∧
          ∃ span : Span,
            ((∃ d ∈ s.allDeclarations, d.valueSpan = span) ∨
              ∃ n ∈ s.nodes, ∃ name, n.atRule? = some (name, span)) ∧
            t ∈ span.slice s.tokens.toArray := by
  intro s
  refine ⟨expand_preferredHex hd, isColor_preferredHex hd, ⟨_, tokenize_preferredHex hd, rfl, rfl⟩,
    preferredHex_preferredHex hd, (preferredHex_eq_iff hd he).symm,
    fun c => (eq_preferredHex_iff hd).symm, _, (Stylesheet.nodup_slices file text).filter _,
    checkColors_eq s o, fun t => ?_⟩
  rw [List.mem_filter, List.mem_flatMap, isMisspelled_iff]
  constructor
  · rintro ⟨⟨span, hspan, ht⟩, hkind, hcolor, hcanonical⟩
    have hlexeme := Token.lexeme_of_hash (Span.mem_of_mem_slice ht) hkind
    exact ⟨hkind, ⟨_, hlexeme, hcolor, hcanonical⟩, span, Stylesheet.mem_spansOf.1 hspan, ht⟩
  · rintro ⟨hkind, ⟨digits, hlexeme, hcolor, hcanonical⟩, span, hspan, ht⟩
    rw [hlexeme]
    exact ⟨⟨span, Stylesheet.mem_spansOf.2 hspan, ht⟩, hkind, hcolor, hcanonical⟩

/-- Six capital digits in equal pairs and three digits of mixed case denote one color, the first is
reported, and its fix is the canonical spelling of both. -/
theorem colors_canonical_pairs :
    let d : Text := ['A', 'A', 'B', 'B', 'C', 'C']
    let e : Text := ['a', 'B', 'c']
    let s := (Stylesheet.ofText "a.css" ".A \x7b\n  color: #AABBCC #abc;\n\x7d\n".toList).1
    IsColor d ∧ IsColor e ∧ preferredHex d = preferredHex e ∧ Canonical ['a', 'b', 'c'] ∧
      ∃ f ∈ checkColors s {}, f.line = 2 ∧ f.column = 10 ∧ f.fix = some "#abc" := by
  intro d e s
  have hd : IsColor d := by decide
  have he : IsColor e := by decide
  obtain ⟨-, -, -, -, hsame, hcanonical, reported, -, hcheck, hreported⟩ :=
    colors_canonical d e hd he "a.css" ".A \x7b\n  color: #AABBCC #abc;\n\x7d\n".toList {}
  obtain ⟨declaration, hdeclared, t, hslice, hkind, hlexeme, hline, hcolumn⟩ :
      ∃ declaration ∈ s.allDeclarations, ∃ t ∈ declaration.valueSpan.slice s.tokens.toArray,
        t.kind = .hash ∧ t.lexeme = '#' :: d ∧ t.line = 2 ∧ t.column = 10 := by
    decide +kernel
  have ht : t ∈ reported := (hreported t).2
    ⟨hkind, ⟨d, hlexeme, hd, fun h => absurd h.lower (by decide)⟩, _,
      .inl ⟨declaration, hdeclared, rfl⟩, hslice⟩
  have hfix : (preferredHex t.lexeme.tail).shown = "abc" := by
    rw [hlexeme]
    decide
  refine ⟨hd, he, hsame.1 (by decide), ((hcanonical _).2 (by decide)).2.2, ?_⟩
  rw [hcheck]
  refine ⟨_, List.mem_map_of_mem ht, ?_, ?_, ?_⟩
  · exact congrArg Int.ofNat hline
  · exact congrArg Int.ofNat hcolumn
  · show some s!"#{(preferredHex t.lexeme.tail).shown}" = some "#abc"
    rw [hfix]
    decide

end HouseStyle
