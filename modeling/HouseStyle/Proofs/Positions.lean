/-
HouseStyle.Proofs.Positions — every finding points into the text.

A finding names a line and a column. The line is a line of the text, and the column is that of one
of its characters or of the place right behind the last of them, where the carriage returns at the
end of a line do not count (`PlaceIn`). The rule about class names is left out: it counts from the
start of a selector, which may go on over several lines.

## How the proof goes

Findings take their places from three sources. Most stand at a token that can be seen, and such a
token starts with a character that ends no line, so that no carriage return behind it matters
(`Token.placeIn_of_lexeme`); a finding about a tab stands inside a token, at the tab. The rules
about lines count characters of a line. The rule about the end of the text counts line feeds.
-/
import HouseStyle.Proofs.Advice
import HouseStyle.Proofs.Indentation

namespace HouseStyle

/-! ## 1. Places in a text -/

/-- The place is on a line of the text, at one of its characters or right behind the last; the
carriage returns at the end of a line do not count. -/
def PlaceIn (text : Text) (line column : Nat) : Prop :=
  ∃ row, Lines.line? (Text.lines text) line = some row ∧ 1 ≤ column ∧ column ≤ 1 + row.length

namespace PlaceIn

variable {text : Text}

theorem of_line {number column : Nat} {row : Text}
    (hrow : (Text.lines text)[number]? = some row) (hpos : 1 ≤ column)
    (hle : column ≤ 1 + row.length) : PlaceIn text (number + 1) column :=
  ⟨row, by simpa [Lines.line?] using hrow, hpos, hle⟩

/-- Every line starts somewhere. -/
theorem start {line : Nat} (hpos : 0 < line) (hle : line ≤ (Text.lines text).length) :
    PlaceIn text line 1 := by
  obtain ⟨number, rfl⟩ := Nat.exists_eq_succ_of_ne_zero (Nat.ne_of_gt hpos)
  exact of_line (List.getElem?_eq_getElem hle) (Nat.le_refl 1) (Nat.le_add_right 1 _)

end PlaceIn

variable {file : String} {text : Text} {o : Options}

/-- A character of a token that ends no line is a place in the text, if it stands on the first line
of the token. -/
theorem Token.placeIn_of_lexeme {t : Token} (ht : t ∈ tokenize text) {front back : Text} {c : Char}
    (hlexeme : t.lexeme = front ++ c :: back) (hfront : '\n' ∉ front) (hc : isLineEnd c = false) :
    PlaceIn text t.line (t.column + front.length) := by
  obtain ⟨before, after, hs⟩ := List.append_of_mem ht
  obtain ⟨lead, hlead, hraw⟩ := exists_line hs
  obtain ⟨hpos, -⟩ := Stylesheet.line_of_mem_tokenize ht
  have hc' : c ≠ '\n' ∧ c ≠ '\r' := by
    simpa [isLineEnd] using hc
  -- the line has the character where the token has it
  have hsource : (source (t :: after)).takeWhile (· != '\n') =
      front ++ c :: (back ++ source after).takeWhile (· != '\n') := by
    rw [source_cons, hlexeme, List.append_assoc,
      List.takeWhile_append_of_pos (bne_of_not_mem hfront), List.cons_append,
      List.takeWhile_cons_of_pos (by simp [hc'.1])]
  have hrow : (Text.lines text)[t.line - 1]? = some ((lead ++ front) ++ c ::
      Text.dropEndWhile (· == '\r') ((back ++ source after).takeWhile (· != '\n'))) := by
    rw [← Text.dropEndWhile_append_cons (by simp [hc'.2]), List.append_assoc, ← hsource, Text.lines,
      List.getElem?_map, hraw]
    rfl
  have hplace : PlaceIn text (t.line - 1 + 1) (t.column + front.length) := by
    refine PlaceIn.of_line hrow (by omega) ?_
    simp only [List.length_append, List.length_cons]
    omega
  rwa [Nat.sub_add_cancel hpos] at hplace

/-- What can be seen stands in the text. -/
theorem Token.placeIn {t : Token} (ht : t ∈ tokenize text) (hvisible : t.isVisible = true) :
    PlaceIn text t.line t.column := by
  obtain ⟨c, back, hlexeme, hc⟩ := isLineEnd_of_isVisible ht hvisible
  have hplace : PlaceIn text t.line (t.column + ([] : Text).length) :=
    placeIn_of_lexeme ht hlexeme List.not_mem_nil hc
  exact hplace

/-- A visible token stands at a place of the text. -/
theorem VisibleAt.placeIn {line column : Nat} (h : VisibleAt (tokenize text) line column) :
    PlaceIn text line column := by
  obtain ⟨t, ht, hvisible, rfl, rfl⟩ := h
  exact Token.placeIn ht hvisible

/-- The finding points into the text. -/
def Diagnostic.PointsInto (text : Text) (d : Diagnostic) : Prop :=
  ∃ line column : Nat, d.line = line ∧ d.column = column ∧ PlaceIn text line column

/-- A finding points into the text if its line and column do. -/
theorem Stylesheet.pointsInto_finding {s : Stylesheet} {rule : RuleId} {line column : Nat}
    {message : String} {fix : Option String} (h : PlaceIn text line column) :
    (s.finding rule line column message fix).PointsInto text :=
  ⟨line, column, rfl, rfl, h⟩

/-! ## 2. Findings of the parser -/

namespace Nesting

variable {setting : Setting} {tokens : List Token} {d : Diagnostic}

/-- The finding stands at a token that can be seen. -/
def AtVisible (tokens : List Token) (d : Diagnostic) : Prop :=
  ∃ t ∈ tokens, t.isVisible = true ∧ d.line = t.line ∧ d.column = t.column

theorem atVisible_finding {rule : RuleId} {t : Token} {message fix : String} (ht : t ∈ tokens)
    (hvisible : t.isVisible = true) : AtVisible tokens (setting.finding rule t message fix) :=
  ⟨t, ht, hvisible, rfl, rfl⟩

theorem isVisible_of_brace {t : Token} (h : t.kind = .leftBrace ∨ t.kind = .rightBrace) :
    t.isVisible = true := by
  rcases h with h | h <;> simp [Token.isVisible, h]

theorem atVisible_of_mem_findingsAt {s : State} {st : Statement} (hst : st ∈ Statement.all tokens)
    (h : d ∈ s.findingsAt setting st) : AtVisible tokens d := by
  cases st with
  | opening prelude brace =>
    obtain ⟨hmem, hkind⟩ := brace_of_opener? hst rfl
    have hbrace := Statement.subset_of_mem_all hst hmem
    have hvisible := isVisible_of_brace (.inl hkind)
    unfold State.findingsAt selectorFindings at h
    dsimp only at h
    split at h
    · rw [List.mem_singleton.1 h]
      exact atVisible_finding hbrace hvisible
    · split at h
      · cases h
      · rw [List.mem_singleton.1 h]
        exact atVisible_finding hbrace hvisible
  | closing brace =>
    obtain ⟨hmem, hkind⟩ := brace_of_closer? hst rfl
    dsimp only [State.findingsAt] at h
    split at h
    · rw [List.mem_singleton.1 h]
      exact atVisible_finding (Statement.subset_of_mem_all hst hmem)
        (isVisible_of_brace (.inr hkind))
    · cases h
  | _ => cases h

theorem mem_begunAround {enclosing : List OpenBlock} {o : OpenBlock} (h : o ∈ enclosing) :
    ∃ b ∈ begunAround enclosing, b.brace = some o.brace := by
  induction enclosing with
  | nil => cases h
  | cons first outer ih =>
    rcases List.mem_cons.1 h with rfl | h
    · exact ⟨_, List.mem_append_right _ (List.mem_append_right _ List.mem_cons_self), rfl⟩
    · obtain ⟨b, hb, hbrace⟩ := ih h
      exact ⟨b, List.mem_append_left _ hb, hbrace⟩

/-- The brace of a block that is left open is an opening brace of the text. -/
theorem brace_of_mem_enclosing {o : OpenBlock}
    (h : o ∈ (walk setting (Statement.all tokens)).enclosing) :
    o.brace ∈ tokens ∧ o.brace.kind = .leftBrace := by
  obtain ⟨b, hb, hbrace⟩ := mem_begunAround h
  have hbegun : b.plain ∈ outline 0 0 [] (Statement.all tokens) := by
    rw [← begun_walk setting]
    exact List.mem_map_of_mem (List.mem_append_left _ hb)
  have hopener : o.brace ∈ (Statement.all tokens).filterMap Statement.opener? := by
    rw [← filterMap_brace_outline 0 0 []]
    exact List.mem_filterMap.2 ⟨b.plain, hbegun, hbrace⟩
  obtain ⟨st, hst, hopens⟩ := List.mem_filterMap.1 hopener
  obtain ⟨hmem, hkind⟩ := brace_of_opener? hst hopens
  exact ⟨Statement.subset_of_mem_all hst hmem, hkind⟩

/-- What the parser reports stands at tokens that can be seen. -/
theorem atVisible_of_mem_parse {file : String} (h : d ∈ (Stylesheet.parse file tokens).2) :
    AtVisible tokens d := by
  rw [Stylesheet.parse] at h
  dsimp only at h
  rw [List.mem_append, List.mem_append, State.diagnostics_release, State.enclosing_release] at h
  rcases h with (h | h) | h
  · obtain ⟨t, ht, rfl⟩ := List.mem_map.1 h
    obtain ⟨ht, hkind⟩ := List.mem_filter.1 ht
    have hvisible : t.isVisible = true := by
      rw [beq_iff_eq] at hkind
      simp [Token.isVisible, hkind]
    unfold malformedFinding
    split
    · exact atVisible_finding ht hvisible
    · exact atVisible_finding ht hvisible
  · obtain ⟨st, hst, s, hd⟩ := exists_findingsAt_of_mem_walk h
    exact atVisible_of_mem_findingsAt hst hd
  · unfold unclosedFindings at h
    split at h
    · cases h
    · rename_i o outer hopen
      have hmem : o ∈
          (walk ⟨file, Stylesheet.lastLine tokens⟩ (Statement.all tokens)).enclosing := by
        rw [hopen]
        exact List.mem_cons_self
      obtain ⟨hbrace, hkind⟩ := brace_of_mem_enclosing hmem
      rw [List.mem_singleton.1 h]
      exact atVisible_finding hbrace (isVisible_of_brace (.inl hkind))

end Nesting

/-- A finding at a visible token points into the text. -/
theorem Nesting.AtVisible.pointsInto {d : Diagnostic} (h : AtVisible (tokenize text) d) :
    d.PointsInto text := by
  obtain ⟨t, ht, hvisible, hline, hcolumn⟩ := h
  exact ⟨t.line, t.column, hline, hcolumn, Token.placeIn ht hvisible⟩

/-! ## 3. Findings at something that the stylesheet records -/

section

variable {d : Diagnostic}

/-- Judged declarations are declarations of the stylesheet. -/
theorem DeclarationOrder.mem_allDeclarations_of_mem_pairs {s : Stylesheet}
    {pair : Declaration × Declaration} (h : pair ∈ pairs s) : pair.2 ∈ s.allDeclarations := by
  obtain ⟨ds, hds, hpair⟩ := List.mem_flatMap.1 h
  obtain ⟨r, hr, rfl⟩ := List.mem_map.1 hds
  have hmem : pair.2 ∈ r.declarations.filter fun d => !d.isVariable :=
    List.mem_of_mem_tail (List.of_mem_zip hpair).2
  have hnode : r ∈ s.nodes := (List.mem_filter.1 (List.mem_filter.1 hr).1).1
  exact List.mem_append_right _ (List.mem_flatMap.2 ⟨r, hnode, (List.mem_filter.1 hmem).1⟩)

/-- A declaration with one in front of it stands in the text. -/
theorem DeclarationOrder.placeIn_of_mem_pairs {pair : Declaration × Declaration}
    (h : pair ∈ pairs (Stylesheet.ofText file text).1) : PlaceIn text pair.2.line pair.2.column :=
  (Stylesheet.visibleAt_declaration (mem_allDeclarations_of_mem_pairs h)).placeIn

theorem DeclarationOrder.pointsInto_checkGroups
    (h : d ∈ checkGroups (Stylesheet.ofText file text).1 o) : d.PointsInto text := by
  obtain ⟨pair, hpair, rfl⟩ := List.mem_map.1 h
  exact Stylesheet.pointsInto_finding (placeIn_of_mem_pairs (List.mem_filter.1 hpair).1)

theorem DeclarationOrder.pointsInto_checkNames
    (h : d ∈ checkNames (Stylesheet.ofText file text).1 o) : d.PointsInto text := by
  obtain ⟨pair, hpair, rfl⟩ := List.mem_map.1 h
  exact Stylesheet.pointsInto_finding (placeIn_of_mem_pairs (List.mem_filter.1 hpair).1)

theorem DeclarationOrder.pointsInto_checkSeparation
    (h : d ∈ checkSeparation (Stylesheet.ofText file text).1 o) : d.PointsInto text := by
  obtain ⟨pair, hpair, hd⟩ := List.mem_filterMap.1 h
  have hplace := placeIn_of_mem_pairs hpair
  rcases separationFinding?_cases hd with ⟨message, rfl⟩ | ⟨message, rfl⟩
  · exact Stylesheet.pointsInto_finding hplace
  · exact Stylesheet.pointsInto_finding hplace

namespace Blocks

theorem pointsInto_checkDepth (h : d ∈ checkDepth (Stylesheet.ofText file text).1 o) :
    d.PointsInto text := by
  obtain ⟨n, hn, rfl⟩ := List.mem_map.1 h
  have hnode := (List.mem_filter.1 (List.mem_filter.1 hn).1).1
  exact Stylesheet.pointsInto_finding (Stylesheet.visibleAt_node hnode).placeIn

/-- A node with its comment stands in the text. -/
theorem placeIn_start {n : Node} (hn : n ∈ (Stylesheet.ofText file text).1.nodes) :
    PlaceIn text n.startLine (startColumn n) := by
  unfold Node.startLine startColumn
  cases hc : n.comment with
  | none => exact (Stylesheet.visibleAt_node hn).placeIn
  | some c => exact (Stylesheet.visibleAt_comment_of_node hn hc).placeIn

theorem mem_nodes_of_mem_siblings {s : Stylesheet} {siblings : List Node}
    (h : siblings ∈ s.siblingGroups) {n : Node} (hn : n ∈ siblings) : n ∈ s.nodes := by
  have hpick {indices : List Nat} (hn : n ∈ indices.filterMap (s.nodes[·]?)) : n ∈ s.nodes := by
    obtain ⟨index, -, hfound⟩ := List.mem_filterMap.1 hn
    exact List.mem_of_getElem? hfound
  rcases List.mem_cons.1 h with rfl | h
  · exact hpick hn
  · obtain ⟨owner, -, rfl⟩ := List.mem_map.1 h
    exact hpick hn

theorem pointsInto_checkSeparation (h : d ∈ checkSeparation (Stylesheet.ofText file text).1 o) :
    d.PointsInto text := by
  obtain ⟨siblings, hsiblings, hd⟩ := List.mem_flatMap.1 h
  obtain ⟨⟨previous, current⟩, hpair, hd⟩ := List.mem_filterMap.1 hd
  have hcurrent : current ∈ siblings :=
    (List.mem_filter.1 (List.mem_of_mem_tail (List.of_mem_zip hpair).2)).1
  have hplace := placeIn_start (mem_nodes_of_mem_siblings hsiblings hcurrent)
  dsimp only at hd
  split at hd
  · cases hd
  · unfold separationFinding? at hd
    dsimp only at hd
    split at hd
    · cases hd
    · obtain rfl := Option.some.inj hd
      exact Stylesheet.pointsInto_finding hplace

theorem pointsInto_checkSelectorLines
    (h : d ∈ checkSelectorLines (Stylesheet.ofText file text).1 o) : d.PointsInto text := by
  obtain ⟨r, hr, hd⟩ := List.mem_flatMap.1 h
  obtain ⟨⟨p, c⟩, hpair, rfl⟩ := List.mem_map.1 hd
  have hselector : c ∈ r.selectors :=
    List.mem_of_mem_tail (List.of_mem_zip (List.mem_filter.1 hpair).1).2
  have hnode := (List.mem_filter.1 hr).1
  exact Stylesheet.pointsInto_finding (Stylesheet.visibleAt_selector hnode hselector).placeIn

/-- The brace that closes a node is a closing brace of the text. -/
theorem brace_of_closeBrace {n : Node} (hn : n ∈ (Stylesheet.ofText file text).1.nodes)
    {brace : Token} (hbrace : n.block.closeBrace = some brace) :
    brace ∈ tokenize text ∧ brace.kind = .rightBrace := by
  have hclosed := (Stylesheet.perm_closeBrace file (tokenize text)).subset
    (List.mem_filterMap.2 ⟨n, hn, hbrace⟩)
  obtain ⟨st, hst, hcloses⟩ := Nesting.exists_closer_of_mem_matched hclosed
  obtain ⟨hmem, hkind⟩ := Nesting.brace_of_closer? hst hcloses
  exact ⟨Statement.subset_of_mem_all hst hmem, hkind⟩

theorem pointsInto_checkAlignment (h : d ∈ checkAlignment (Stylesheet.ofText file text).1 o) :
    d.PointsInto text := by
  obtain ⟨n, hn, hd⟩ := List.mem_filterMap.1 h
  unfold alignmentFinding? at hd
  split at hd
  · rename_i opening closing line hopen hclose hline
    dsimp only at hd
    split at hd
    · cases hd
    · obtain ⟨hmem, hkind⟩ := brace_of_closeBrace hn hclose
      obtain rfl := Option.some.inj hd
      exact Stylesheet.pointsInto_finding
        (Token.placeIn hmem (Nesting.isVisible_of_brace (.inr hkind)))
  · cases hd

end Blocks

theorem CommentShape.pointsInto_check (h : d ∈ check (Stylesheet.ofText file text).1 o) :
    d.PointsInto text := by
  obtain ⟨c, hc, hd⟩ := List.mem_filterMap.1 h
  obtain ⟨message, -, rfl⟩ := Option.map_eq_some_iff.1 hd
  exact Stylesheet.pointsInto_finding
    (Stylesheet.visibleAt_comment (List.mem_filter.1 hc).1).placeIn

/-! ## 4. Findings at a token -/

theorem Place.token_mem_of_mem_allFrom {before ts : List Token} {p : Place}
    (h : p ∈ allFrom before ts) : p.token ∈ ts := by
  induction ts generalizing before with
  | nil => cases h
  | cons t ts ih =>
    rcases List.mem_cons.1 h with rfl | h
    · exact List.mem_cons_self
    · exact List.mem_cons_of_mem _ (ih h)

theorem Span.mem_of_mem_slice {span : Span} {tokens : List Token} {t : Token}
    (h : t ∈ span.slice tokens.toArray) : t ∈ tokens := by
  rw [slice_toArray] at h
  exact List.mem_of_mem_drop (List.mem_of_mem_take h)

/-- A token of a kind that is neither blank nor line break stands in the text. -/
theorem Token.placeIn_of_kind {t : Token} (ht : t ∈ tokenize text) {k : Kind} (hkind : t.kind = k)
    (hblank : k ≠ .whitespace) (hnewline : k ≠ .newline) : PlaceIn text t.line t.column := by
  refine placeIn ht ?_
  simp [isVisible, hkind, hblank, hnewline]

theorem Blocks.pointsInto_checkSpacing (h : d ∈ checkSpacing (Stylesheet.ofText file text).1 o) :
    d.PointsInto text := by
  obtain ⟨p, hp, hd⟩ := List.mem_filterMap.1 h
  obtain ⟨message, hproblem, rfl⟩ := Option.map_eq_some_iff.1 hd
  have hkind : p.token.kind = .leftBrace := by
    unfold spacingProblem? at hproblem
    dsimp only at hproblem
    split at hproblem
    · cases hproblem
    · rename_i hkind
      simpa using hkind
  have hmem : p.token ∈ tokenize text := Place.token_mem_of_mem_allFrom hp
  exact Stylesheet.pointsInto_finding (Token.placeIn_of_kind hmem hkind (by decide) (by decide))

namespace Values

theorem pointsInto_checkCommas (h : d ∈ checkCommas (Stylesheet.ofText file text).1 o) :
    d.PointsInto text := by
  obtain ⟨p, hp, hd⟩ := List.mem_flatMap.1 h
  obtain ⟨problem, hproblem, rfl⟩ := List.mem_map.1 hd
  obtain ⟨span, -, hp⟩ := List.mem_flatMap.1 hp
  have hkind : p.token.kind = .comma := by
    unfold commaProblems at hproblem
    split at hproblem
    · cases hproblem
    · rename_i hkind
      simpa using hkind
  have hmem : p.token ∈ tokenize text :=
    Span.mem_of_mem_slice (Place.token_mem_of_mem_allFrom hp)
  exact Stylesheet.pointsInto_finding (Token.placeIn_of_kind hmem hkind (by decide) (by decide))

theorem pointsInto_checkColors (h : d ∈ checkColors (Stylesheet.ofText file text).1 o) :
    d.PointsInto text := by
  obtain ⟨t, ht, hd⟩ := List.mem_filterMap.1 h
  obtain ⟨span, -, ht⟩ := List.mem_flatMap.1 ht
  have hmem : t ∈ tokenize text := Span.mem_of_mem_slice ht
  unfold colorFinding? at hd
  dsimp only at hd
  split at hd
  · rename_i hcolor
    have hkind : t.kind = .hash := by
      simp only [Bool.and_eq_true, decide_eq_true_eq] at hcolor
      exact hcolor.1.1
    obtain rfl := Option.some.inj hd
    exact Stylesheet.pointsInto_finding (Token.placeIn_of_kind hmem hkind (by decide) (by decide))
  · cases hd

theorem pointsInto_checkQuotes (h : d ∈ checkQuotes (Stylesheet.ofText file text).1 o) :
    d.PointsInto text := by
  obtain ⟨t, ht, rfl⟩ := List.mem_map.1 h
  obtain ⟨hmem, hquote⟩ := List.mem_filter.1 ht
  have hkind : t.kind = .string := by
    simp only [Bool.and_eq_true, beq_iff_eq] at hquote
    exact hquote.1
  exact Stylesheet.pointsInto_finding (Token.placeIn_of_kind hmem hkind (by decide) (by decide))

/-- A zero with a unit is a number among the tokens. -/
theorem mem_of_mem_zerosFrom {functions : List Text} {places : List Place} {t : Token}
    (h : t ∈ zerosFrom functions places) :
    t.kind = .number ∧ ∃ p ∈ places, p.token = t := by
  induction places generalizing functions with
  | nil => cases h
  | cons p rest ih =>
    have hrest {functions : List Text} (h : t ∈ zerosFrom functions rest) :
        t.kind = .number ∧ ∃ q ∈ p :: rest, q.token = t := by
      obtain ⟨hkind, q, hq, hqt⟩ := ih h
      exact ⟨hkind, q, List.mem_cons_of_mem _ hq, hqt⟩
    rw [zerosFrom] at h
    split at h
    · exact hrest h
    · exact hrest h
    · rename_i hkind
      split at h
      · rcases List.mem_cons.1 h with rfl | h
        · exact ⟨hkind, p, List.mem_cons_self, rfl⟩
        · exact hrest h
      · exact hrest h
    · exact hrest h

theorem pointsInto_checkZeros (h : d ∈ checkZeros (Stylesheet.ofText file text).1 o) :
    d.PointsInto text := by
  obtain ⟨t, ht, rfl⟩ := List.mem_map.1 h
  obtain ⟨span, -, ht⟩ := List.mem_flatMap.1 ht
  obtain ⟨hkind, p, hp, rfl⟩ := mem_of_mem_zerosFrom ht
  have hmem : p.token ∈ tokenize text :=
    Span.mem_of_mem_slice (Place.token_mem_of_mem_allFrom hp)
  exact Stylesheet.pointsInto_finding (Token.placeIn_of_kind hmem hkind (by decide) (by decide))

end Values

/-- The token that a declaration names as its colon is a colon. -/
theorem Nesting.colon_of_mem_declared {passed : Nat} {statements : List Statement}
    {x : Declaration} (h : x ∈ declared passed statements) :
    ∃ t, (statements.flatMap Statement.tokens)[x.colon - passed]? = some t ∧ t.kind = .colon := by
  obtain ⟨before, st, after, rfl, hx⟩ := exists_split_of_mem_declared h
  obtain ⟨-, -, -, -, hle, -⟩ := declaration?_eq_some hx
  cases st with
  | plain ts semicolon =>
    obtain ⟨t, ht, hkind⟩ := Declaration.colon_of_ofTokens? hx
    refine ⟨t, ?_, hkind⟩
    have hlt : x.colon - (passed + (before.flatMap Statement.tokens).length) < ts.length :=
      (List.getElem?_eq_some_iff.1 ht).1
    have hbefore : (before.flatMap Statement.tokens).length ≤ x.colon - passed :=
      Nat.le_sub_of_add_le' hle
    rw [List.flatMap_append, List.getElem?_append_right hbefore, Nat.sub_sub, List.flatMap_cons,
      Statement.tokens, List.append_assoc, List.getElem?_append_left hlt]
    exact ht
  | _ => cases hx

theorem Values.pointsInto_checkColons (h : d ∈ checkColons (Stylesheet.ofText file text).1 o) :
    d.PointsInto text := by
  obtain ⟨x, hx, hd⟩ := List.mem_flatMap.1 h
  obtain ⟨t, ht, hline, hcolumn, -⟩ := mem_colonFindings hd
  have hdeclared := (Stylesheet.perm_allDeclarations file (tokenize text)).mem_iff.1 hx
  obtain ⟨u, hu, hkind⟩ := Nesting.colon_of_mem_declared hdeclared
  rw [Statement.tokens_all, Nat.sub_zero] at hu
  have hsame : t = u := Option.some.inj (ht.symm.trans hu)
  subst hsame
  exact ⟨t.line, t.column, hline, hcolumn,
    Token.placeIn_of_kind (List.mem_of_getElem? hu) hkind (by decide) (by decide)⟩

/-! ## 5. Findings about lines -/

namespace Layout

/-- Lines are numbered from one. -/
theorem mem_numbered {lines : List Text} {row : Text} {number : Nat}
    (h : (row, number) ∈ numbered lines) : ∃ i, number = i + 1 ∧ lines[i]? = some row := by
  obtain ⟨hle, hfound⟩ := List.mk_mem_zipIdx_iff_le_and_getElem?_sub.1 h
  exact ⟨number - 1, (Nat.sub_add_cancel hle).symm, hfound⟩

theorem pointsInto_checkLength (h : d ∈ checkLength (Stylesheet.ofText file text).1 o) :
    d.PointsInto text := by
  obtain ⟨⟨row, number⟩, hrow, rfl⟩ := List.mem_map.1 h
  obtain ⟨hmem, hlong⟩ := List.mem_filter.1 hrow
  obtain ⟨i, rfl, hfound⟩ := mem_numbered hmem
  rw [Stylesheet.lines, Stylesheet.text_ofText] at hfound
  have hlong' : o.maxLineLength < row.length := by
    simpa using hlong
  exact Stylesheet.pointsInto_finding (PlaceIn.of_line hfound (by omega) (by omega))

theorem pointsInto_checkTrailing (h : d ∈ checkTrailing (Stylesheet.ofText file text).1 o) :
    d.PointsInto text := by
  obtain ⟨⟨row, number⟩, hrow, hd⟩ := List.mem_filterMap.1 h
  obtain ⟨i, rfl, hfound⟩ := mem_numbered hrow
  rw [Stylesheet.lines, Stylesheet.text_ofText] at hfound
  dsimp only at hd
  split at hd
  · cases hd
  · obtain rfl := Option.some.inj hd
    have hkept : (Text.dropEndWhile isTrailing row).length ≤ row.length :=
      (List.rdropWhile_prefix isTrailing row).length_le
    exact Stylesheet.pointsInto_finding (PlaceIn.of_line hfound (by omega) (by omega))

theorem pointsInto_checkTabs (h : d ∈ checkTabs (Stylesheet.ofText file text).1 o) :
    d.PointsInto text := by
  obtain ⟨t, ht, rfl⟩ := List.mem_map.1 h
  obtain ⟨hmem, htab⟩ := List.mem_filter.1 ht
  simp only [Bool.and_eq_true, beq_iff_eq, List.contains_iff_mem] at htab
  obtain ⟨hkind, htab⟩ := htab
  have hfeed := Token.not_mem_lexeme_of_whitespace hmem hkind
  obtain ⟨front, back, hlexeme, hfront⟩ := List.eq_append_cons_of_mem htab
  have htake : t.lexeme.takeWhile (· != '\t') = front := by
    rw [hlexeme, List.takeWhile_append_of_pos (bne_of_not_mem hfront)]
    simp
  rw [htake]
  refine Stylesheet.pointsInto_finding (Token.placeIn_of_lexeme hmem hlexeme ?_ (by decide))
  intro hc
  rw [hlexeme] at hfeed
  exact hfeed (List.mem_append_left _ hc)

theorem pointsInto_checkIndentation
    (h : d ∈ checkIndentation (Stylesheet.ofText file text).1 o) : d.PointsInto text := by
  obtain ⟨x, hx, rfl⟩ := List.mem_map.1 h
  obtain ⟨lead, t, hlead, -, -, rfl⟩ := mem_misplacedFrom_iff.1 hx
  obtain ⟨hpos, hle⟩ := Stylesheet.line_of_mem_tokenize hlead.mem
  exact Stylesheet.pointsInto_finding (PlaceIn.start hpos hle)

theorem pointsInto_checkEnd (h : d ∈ checkEnd (Stylesheet.ofText file text).1 o) :
    d.PointsInto text := by
  unfold checkEnd at h
  dsimp only at h
  rw [Stylesheet.lines, Stylesheet.text_ofText] at h
  have hlength := Text.length_lines text
  split at h
  · cases h
  split at h
  · obtain rfl := List.mem_singleton.1 h
    -- the last line, behind its last character
    have hlast : (Text.lines text)[text.lineFeeds]? = some ((Text.lines text).getLastD []) := by
      have hlt : text.lineFeeds < (Text.lines text).length := by
        omega
      rw [List.getLastD_eq_getLast?, List.getLast?_eq_getElem?, hlength, Nat.add_sub_cancel,
        List.getElem?_eq_getElem hlt]
      rfl
    rw [hlength]
    exact Stylesheet.pointsInto_finding (PlaceIn.of_line hlast (by omega) (by omega))
  · split at h
    · cases h
    · rename_i hbreaks
      obtain rfl := List.mem_singleton.1 h
      have hfeeds : Text.lineFeeds (Text.trimEnd text) +
          Text.lineFeeds (text.drop (Text.trimEnd text).length) = Text.lineFeeds text := by
        obtain ⟨blanks, hsplit⟩ : Text.trimEnd text <+: text :=
          List.rdropWhile_prefix isBlank text
        generalize Text.trimEnd text = content at hsplit ⊢
        rw [← hsplit, List.drop_left]
        exact List.count_append.symm
      exact Stylesheet.pointsInto_finding (PlaceIn.start (by omega) (by omega))

end Layout

end

/-! ## 6. All findings -/

/-- What a rule finds points into the text, the rule about class names apart. -/
theorem Rule.pointsInto_run {r : Rule} (hr : r ≠ .classNaming) {d : Diagnostic}
    (h : d ∈ r.run (Stylesheet.ofText file text).1 o) : d.PointsInto text := by
  cases r with
  | classNaming => exact absurd rfl hr
  | groupOrder => exact DeclarationOrder.pointsInto_checkGroups (o := o) h
  | alphabeticalOrder => exact DeclarationOrder.pointsInto_checkNames (o := o) h
  | groupSeparation => exact DeclarationOrder.pointsInto_checkSeparation (o := o) h
  | nestingDepth => exact Blocks.pointsInto_checkDepth (o := o) h
  | blockSeparation => exact Blocks.pointsInto_checkSeparation (o := o) h
  | commentShape => exact CommentShape.pointsInto_check (o := o) h
  | lineLength => exact Layout.pointsInto_checkLength (o := o) h
  | tabs => exact Layout.pointsInto_checkTabs (o := o) h
  | indentation => exact Layout.pointsInto_checkIndentation (o := o) h
  | braceSpacing => exact Blocks.pointsInto_checkSpacing (o := o) h
  | braceAlignment => exact Blocks.pointsInto_checkAlignment (o := o) h
  | selectorLines => exact Blocks.pointsInto_checkSelectorLines (o := o) h
  | colonSpacing => exact Values.pointsInto_checkColons (o := o) h
  | hexColors => exact Values.pointsInto_checkColors (o := o) h
  | quoteStyle => exact Values.pointsInto_checkQuotes (o := o) h
  | zeroUnits => exact Values.pointsInto_checkZeros (o := o) h
  | commaSpacing => exact Values.pointsInto_checkCommas (o := o) h
  | trailingWhitespace => exact Layout.pointsInto_checkTrailing (o := o) h
  | fileEnd => exact Layout.pointsInto_checkEnd (o := o) h

/-- **Every finding points into the text**, whatever the text and the options are, the findings
about class names apart. It is about the file; its line is a line of the text, and its column is
that of a character of the line or of the place behind the last one, the carriage returns at the
end of the line left out. -/
theorem check_points_into (file : String) (text : Text) (o : Options) :
    ∀ d ∈ check file text o, d.rule ≠ .unknownNamingPattern →
      d.file = file ∧ 1 ≤ d.line ∧ d.line ≤ (Text.lines text).length ∧
      ∃ row, (Text.lines text)[d.line.toNat - 1]? = some row ∧
        1 ≤ d.column ∧ d.column ≤ 1 + row.length := by
  intro d hd hrule
  refine ⟨file_eq_of_mem_check hd, ?_⟩
  have hpoints : d.PointsInto text := by
    obtain ⟨e, he, rfl⟩ := List.mem_map.1 (Diagnostic.mem_of_mem_consolidate hd)
    rw [rawFindings_eq_filter] at he
    show e.PointsInto text
    rcases mem_madeFindings.1 (List.mem_filter.1 he).1 with he | ⟨r, he⟩
    · exact (Nesting.atVisible_of_mem_parse he).pointsInto
    · refine Rule.pointsInto_run (o := o) ?_ he
      rintro rfl
      have hemits := Rule.rule_mem_emits he
      exact hrule (List.mem_singleton.1 hemits)
  obtain ⟨line, column, hline, hcolumn, row, hrow, hpos, hle⟩ := hpoints
  unfold Lines.line? at hrow
  split at hrow
  · cases hrow
  · have hlt := (List.getElem?_eq_some_iff.1 hrow).1
    rw [hline, hcolumn]
    refine ⟨by omega, by omega, row, ?_, by omega, by omega⟩
    rw [Int.toNat_natCast]
    exact hrow

/-- The blank in front of a carriage return is reported behind the last character of its line. -/
theorem check_points_into_trailing :
    let text := "a \x7b\n  b: c; \r\n\x7d\n".toList
    ∃ d ∈ check "a.css" text {}, d.rule = .trailingWhitespace ∧ d.line = 2 ∧ d.column = 8 ∧
      ∃ row, (Text.lines text)[d.line.toNat - 1]? = some row ∧ d.column ≤ 1 + row.length := by
  intro text
  have hfound : ∃ d ∈ check "a.css" text {},
      d.rule = .trailingWhitespace ∧ d.line = 2 ∧ d.column = 8 := by
    decide +kernel
  obtain ⟨d, hd, hrule, hline, hcolumn⟩ := hfound
  have hnaming : d.rule ≠ .unknownNamingPattern := by
    rw [hrule]
    decide
  obtain ⟨-, -, -, row, hrow, -, hle⟩ := check_points_into "a.css" text {} d hd hnaming
  exact ⟨d, hd, hrule, hline, hcolumn, row, hrow, hle⟩

end HouseStyle
