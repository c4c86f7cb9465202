/-
HouseStyle.Proofs.Adjacency — declarations with something between them are not judged.

Two declarations that follow each other in a ruleset need not stand next to each other in the text:
a nested block, an at-rule or a variable of the ruleset may lie between them (`Stylesheet.Item`).
Blank lines are asked for only where nothing does, and this is told from the lines between the two,
those on which neither of them stands. So the two are passed over if what lies between them puts ink
on such a line (`separation_passes_over`). What shares all its lines with the two declarations is
overlooked (`variable_overlooked`).

## How the proof goes

A declaration ends with the last token of its value, or with its colon
(`Declaration.last_of_ofTokens?`), and declarations of a text come one behind the other with all
their tokens (`stop_le_start`); nodes were seen to lie apart from the declarations around them. So
what lies between the two puts ink neither in front of the line where the first ends nor behind the
line where the second starts, and any other line lies between these. A finding tells its declaration
by its place, and with it the one before.
-/
import HouseStyle.Proofs.Advice
import HouseStyle.Proofs.CleanOrder
import HouseStyle.Proofs.Ink
import HouseStyle.Proofs.Standing

namespace HouseStyle

/-! ## 1. Where declarations end -/

namespace Nesting

/-- The declaration is read off a statement that starts with this number and ends in front of the
other. -/
structure ReadAt (tokens : List Token) (d : Declaration) (start stop : Nat) : Prop where
  first : ∃ t, tokens[start]? = some t ∧ d.line = t.line ∧ d.column = t.column
  last : ∃ t, tokens[d.valueSpan.stop - 1]? = some t ∧ d.endLine = t.endLine
  start_lt : start < d.colon
  colon_lt : d.colon < d.valueSpan.stop
  stop_le : d.valueSpan.stop ≤ stop

/-- A declaration is read off the tokens of its own statement, at the place where the statement
stands. -/
theorem readAt_of_declaration? {tokens more : List Token} {passed : Nat} {st : Statement}
    {d : Declaration} (hin : st.StandsIn tokens passed more)
    (h : st.declaration? passed = some d) :
    ReadAt tokens d passed (passed + st.tokens.length) := by
  cases st with
  | plain ts semicolon =>
    obtain ⟨first, hfirst, hline, hcolumn, hstart⟩ := Declaration.first_of_ofTokens? h
    obtain ⟨k, last, hlast, hend, hstop⟩ := Declaration.last_of_ofTokens? h
    have hwithin := Declaration.within_of_ofTokens? h
    have hin' {i : Nat} {t : Token} (ht : ts[i]? = some t) : tokens[passed + i]? = some t := by
      refine hin.getElem? ?_
      rw [Statement.tokens, List.append_assoc,
        List.getElem?_append_left (List.getElem?_eq_some_iff.1 ht).1, ht]
    refine ⟨⟨first, hin' hfirst, hline, hcolumn⟩, ⟨last, ?_, hend⟩, hstart, ?_, ?_⟩
    · rw [← hstop, Nat.add_sub_cancel]
      exact hin' hlast
    · exact Nat.lt_of_lt_of_le hwithin.passed_lt hwithin.start_le
    · refine Nat.le_trans hwithin.stop_le ?_
      simp [Statement.tokens]
  | _ => cases h

end Nesting

namespace Stylesheet

variable {file : String} {text : Text} {d d' : Declaration}

/-- Every declaration belongs to one statement of the text; the statements in front of it say where
its tokens are. -/
theorem exists_split_of_mem_allDeclarations (hd : d ∈ (ofText file text).1.allDeclarations) :
    ∃ before st after, Statement.all (tokenize text) = before ++ st :: after ∧
      st.declaration? (Nesting.covered before) = some d ∧
      Nesting.ReadAt (tokenize text) d (Nesting.covered before)
        (Nesting.covered before + st.tokens.length) := by
  rw [ofText, (perm_allDeclarations file (tokenize text)).mem_iff] at hd
  obtain ⟨before, st, after, hsplit, hst⟩ := Nesting.exists_split_of_mem_declared hd
  rw [Nat.zero_add] at hst
  have hin : st.StandsIn (tokenize text) (Nesting.covered before)
      (after.flatMap Statement.tokens) := by
    refine ⟨before.flatMap Statement.tokens, ?_, rfl⟩
    rw [← List.flatMap_cons, ← List.flatMap_append, ← hsplit, Statement.tokens_all]
  exact ⟨before, st, after, hsplit, hst, Nesting.readAt_of_declaration? hin hst⟩

/-- A declaration ends on the line where one of its tokens does. -/
theorem endLine_of_mem_allDeclarations (hd : d ∈ (ofText file text).1.allDeclarations) :
    ∃ i t, (tokenize text)[i]? = some t ∧ d.endLine = t.endLine ∧ i < d.valueSpan.stop := by
  obtain ⟨before, st, after, -, -, hat⟩ := exists_split_of_mem_allDeclarations hd
  obtain ⟨t, ht, hend⟩ := hat.last
  have hcolon := hat.colon_lt
  exact ⟨_, t, ht, hend, by omega⟩

/-- Declarations come one behind the other, with all their tokens. -/
theorem stop_le_start (hd : d ∈ (ofText file text).1.allDeclarations)
    (hd' : d' ∈ (ofText file text).1.allDeclarations) (h : d.colon < d'.colon) {start : Nat}
    {t : Token} (ht : (tokenize text)[start]? = some t) (hline : d'.line = t.line)
    (hcolumn : d'.column = t.column) : d.valueSpan.stop ≤ start := by
  obtain ⟨before, st, after, hsplit, hst, hat⟩ := exists_split_of_mem_allDeclarations hd
  obtain ⟨before', st', after', hsplit', hst', hat'⟩ := exists_split_of_mem_allDeclarations hd'
  have hstart : start = Nesting.covered before' := by
    obtain ⟨u, hu, hline', hcolumn'⟩ := hat'.first
    obtain rfl : t = u := Token.eq_of_place (List.mem_of_getElem? ht) (List.mem_of_getElem? hu)
      (Prod.ext (hline.symm.trans hline') (hcolumn.symm.trans hcolumn'))
    have hlength := (List.getElem?_eq_some_iff.1 ht).1
    exact (List.getElem?_inj hlength (Token.nodup_tokenize text)).1 (ht.trans hu.symm)
  have hle := hat.stop_le
  have hlt := hat.start_lt
  have hle' := hat'.stop_le
  have hlt' := hat'.colon_lt
  rw [hsplit, List.append_eq_append_iff] at hsplit'
  rw [hstart]
  rcases hsplit' with ⟨mid, rfl, hmid⟩ | ⟨mid, rfl, hmid⟩
  · cases mid with
    | nil =>
      obtain ⟨rfl, -⟩ := List.cons_eq_cons.1 hmid
      rw [List.append_nil, hst] at hst'
      obtain rfl := Option.some.inj hst'
      exact absurd h (lt_irrefl _)
    | cons first mid =>
      obtain ⟨rfl, -⟩ := List.cons_eq_cons.1 hmid
      rw [Nesting.covered_append, Nesting.covered_cons]
      omega
  · cases mid with
    | nil =>
      obtain ⟨rfl, -⟩ := List.cons_eq_cons.1 hmid
      rw [List.append_nil, hst'] at hst
      obtain rfl := Option.some.inj hst
      exact absurd h (lt_irrefl _)
    | cons first mid =>
      -- the statement of the later colon would stand in front
      obtain ⟨rfl, -⟩ := List.cons_eq_cons.1 hmid
      rw [Nesting.covered_append, Nesting.covered_cons] at hlt
      omega

/-! ## 2. What lies between declarations -/

theorem exists_index_of_mem_slice {tokens : List Token} {span : Span} {t : Token}
    (h : t ∈ span.slice tokens.toArray) :
    ∃ i, tokens[i]? = some t ∧ span.start ≤ i ∧ i < span.stop := by
  rw [Span.slice_toArray] at h
  obtain ⟨k, hk⟩ := List.mem_iff_getElem?.1 h
  rw [List.getElem?_take, List.getElem?_drop] at hk
  split at hk
  · exact ⟨span.start + k, hk, by omega, by omega⟩
  · cases hk

/-- What a ruleset holds besides declarations that are in order or not, with its tokens: its nested
blocks and at-rules, and its variables. -/
inductive Item (s : Stylesheet) (r : Node) : Span → Prop where
  | nested {n : Node} {e : Extent} (mem : n ∈ s.nodes) (child : n.index ∈ r.children)
      (extent : s.extents[n.index]? = some e) : Item s r ⟨e.start, e.stop⟩
  | assigned {v : Declaration} {own : Span} (mem : v ∈ r.declarations)
      (isVariable : v.isVariable = true) (liesAt : v.LiesAt s.tokens own) : Item s r own

variable {r : Node} {p c : Declaration} {span : Span}

theorem mem_allDeclarations {s : Stylesheet} (hr : r ∈ s.nodes) (hd : d ∈ r.declarations) :
    d ∈ s.allDeclarations :=
  List.mem_append_right _ (List.mem_flatMap.2 ⟨r, hr, hd⟩)

/-- What lies behind the colon of one declaration and in front of the colon of another lies behind
all of the one and in front of all of the other. -/
theorem Item.apart (h : (ofText file text).1.Item r span) (hr : r ∈ (ofText file text).1.nodes)
    (hp : p ∈ r.declarations) (hc : c ∈ r.declarations) (hstart : p.colon < span.start)
    (hstop : span.stop ≤ c.colon) :
    p.valueSpan.stop ≤ span.start ∧ ∃ i t, (tokenize text)[i]? = some t ∧ c.line = t.line ∧
      span.stop ≤ i := by
  obtain ⟨outer, -, -, hholds⟩ := exists_extent hr
  obtain ⟨ownp, hownp, -, -, hpapart⟩ := hholds.declared.within p hp
  obtain ⟨ownc, hownc, -, -, hcapart⟩ := hholds.declared.within c hc
  obtain ⟨t, ht, hline, hcolumn⟩ := hownc.place
  cases h with
  | @nested n e hn hchild he =>
    obtain ⟨e', he', hlies, -⟩ := exists_extent hn
    obtain rfl : e = e' := Option.some.inj (he.symm.trans he')
    have hp' := hpapart n.index hchild e he
    have hc' := hcapart n.index hchild e he
    have h1 := hlies.start_lt
    have h2 := hlies.start_le_inside
    have h3 := hlies.inside_le_stop
    have h4 := hownp.start_lt
    have h5 := hownp.stop_eq
    have h6 := hownc.stop_eq
    have h7 := hownc.colon_lt
    have h8 := hownc.value_le
    dsimp only at hstart hstop ⊢
    exact ⟨by omega, ownc.start, t, ht, hline, by omega⟩
  | @assigned v _ hv hvariable hlies =>
    obtain ⟨u, hu, huline, hucolumn⟩ := hlies.place
    have h1 := hlies.start_lt
    have h2 := hlies.colon_lt
    have h3 := hlies.value_le
    have h4 := hlies.stop_eq
    refine ⟨?_, ownc.start, t, ht, hline, ?_⟩
    · exact stop_le_start (mem_allDeclarations hr hp) (mem_allDeclarations hr hv) (by omega) hu
        huline hucolumn
    · rw [h4]
      exact stop_le_start (mem_allDeclarations hr hv) (mem_allDeclarations hr hc) (by omega) ht
        hline hcolumn

/-- What lies between two declarations puts ink on no line in front of where the first ends and on
none behind where the second starts. -/
theorem Item.line_bounds (h : (ofText file text).1.Item r span)
    (hr : r ∈ (ofText file text).1.nodes) (hp : p ∈ r.declarations) (hc : c ∈ r.declarations)
    (hstart : p.colon < span.start) (hstop : span.stop ≤ c.colon) {t : Token}
    (ht : t ∈ span.slice (tokenize text).toArray) {number : Nat} (hinks : t.Inks number) :
    p.endLine ≤ number ∧ number ≤ c.line := by
  obtain ⟨hpstop, j, u, hu, hcline, hcstart⟩ := h.apart hr hp hc hstart hstop
  obtain ⟨k, last, hlast, hpline, hk⟩ := endLine_of_mem_allDeclarations (mem_allDeclarations hr hp)
  obtain ⟨i, hi, hle, hlt⟩ := exists_index_of_mem_slice ht
  have hfront : last.endLine ≤ t.line := Token.endLine_le_line hlast hi (by omega)
  have hback : number ≤ u.line := hinks.le_line hi hu (by omega)
  have hline := hinks.line_le
  omega

end Stylesheet

namespace DeclarationOrder

variable {file : String} {text : Text}

/-- A declaration stands directly inside one node only. -/
theorem eq_of_mem_declarations {r r' : Node} {c : Declaration}
    (hr : r ∈ (Stylesheet.ofText file text).1.nodes)
    (hr' : r' ∈ (Stylesheet.ofText file text).1.nodes) (hc : c ∈ r.declarations)
    (hc' : c ∈ r'.declarations) : r = r' := by
  by_contra hne
  have hnodup := (Stylesheet.nodup_places_declarations file text).of_map _
  have hdisjoint := (List.nodup_flatMap.1 (List.nodup_append.1 hnodup).2.1).2
  have hsymm : Std.Symm (Function.onFun List.Disjoint Node.declarations) :=
    ⟨fun _ _ h _ hx hy => h hy hx⟩
  exact hdisjoint.forall hr hr' hne hc hc'

/-- The pairs that are judged are the neighbours in rulesets outside at-rules. -/
theorem mem_pairs_iff {s : Stylesheet} {p c : Declaration} :
    (p, c) ∈ pairs s ↔ ∃ r ∈ s.rulesets, r.inAtRule = false ∧ (p, c) ∈ neighbours (judged r) := by
  rw [pairs, ordered, List.flatMap_map, List.mem_flatMap]
  simp only [List.mem_filter, Bool.not_eq_true', and_assoc, judged]

theorem mem_judged_of_mem_neighbours {r : Node} {p c : Declaration}
    (h : (p, c) ∈ neighbours (judged r)) : p ∈ r.declarations ∧ c ∈ r.declarations := by
  obtain ⟨hp, hc⟩ := List.of_mem_zip h
  exact ⟨(List.mem_filter.1 hp).1, (List.mem_filter.1 (List.mem_of_mem_tail hc)).1⟩

/-- A missing or unexpected blank line is reported where the later declaration stands. -/
theorem place_of_separationFinding? {s : Stylesheet} {lines : List Text} {p c : Declaration}
    {d : Diagnostic} (h : separationFinding? s lines p c = some d) :
    d.line = c.line ∧ d.column = c.column := by
  rcases separationFinding?_cases h with ⟨message, rfl⟩ | ⟨message, rfl⟩ <;> exact ⟨rfl, rfl⟩

/-- A finding about blank lines tells by its place the two declarations that it is about. -/
theorem separationFinding?_of_place {r : Node} {p c : Declaration} {o : Options} {d : Diagnostic}
    (hr : r ∈ (Stylesheet.ofText file text).1.rulesets) (hpair : (p, c) ∈ neighbours (judged r))
    (hd : d ∈ checkSeparation (Stylesheet.ofText file text).1 o)
    (hplace : d.line = c.line ∧ d.column = c.column) :
    r.inAtRule = false ∧
      separationFinding? (Stylesheet.ofText file text).1
        (Stylesheet.ofText file text).1.lines p c = some d := by
  obtain ⟨⟨p', c'⟩, hpair', hd⟩ := List.mem_filterMap.1 hd
  obtain ⟨r', hr', hat, hmem'⟩ := mem_pairs_iff.1 hpair'
  have hnode := (List.mem_filter.1 hr).1
  have hnode' := (List.mem_filter.1 hr').1
  have hc := (mem_judged_of_mem_neighbours hpair).2
  have hc' := (mem_judged_of_mem_neighbours hmem').2
  have hplace' := place_of_separationFinding? hd
  obtain rfl : c' = c :=
    List.inj_on_of_nodup_map (Stylesheet.nodup_places_declarations file text)
      (Stylesheet.mem_allDeclarations hnode' hc') (Stylesheet.mem_allDeclarations hnode hc)
      (Prod.ext (by exact_mod_cast hplace'.1.symm.trans hplace.1)
        (by exact_mod_cast hplace'.2.symm.trans hplace.2))
  obtain rfl := eq_of_mem_declarations hnode hnode' hc hc'
  obtain ⟨rfl, -⟩ := Prod.ext_iff.1 (List.inj_on_of_nodup_map (nodup_places_pairs file text)
    hpair' (mem_pairs_iff.2 ⟨r, hr, hat, hpair⟩) rfl)
  exact ⟨hat, hd⟩

theorem blankBetween_of_no_content {lines : List Text} {first last : Nat}
    (h : Lines.contentBetween lines first last = false) (hlast : last ≤ lines.length) :
    Lines.blankBetween lines first last = last - (first + 1) := by
  have hblank : Lines.blankBetween lines first last = (Lines.between lines first last).length := by
    refine List.countP_eq_length.2 fun line hline => ?_
    have hall := List.any_eq_false.1 h line hline
    simpa using hall
  rw [hblank, Lines.between, List.length_take, List.length_drop]
  omega

/-- A pair of declarations is judged if no line between them has ink, and then by the number of
these lines: there is one if and only if the groups differ. -/
theorem separationFinding?_eq_none_iff {s : Stylesheet} {lines : List Text} {p c : Declaration}
    (hlast : c.line ≤ lines.length) :
    separationFinding? s lines p c = none ↔
      Lines.contentBetween lines p.endLine c.line = true ∨
        (group p = group c ↔ c.line ≤ p.endLine + 1) := by
  unfold separationFinding?
  cases hcontent : Lines.contentBetween lines p.endLine c.line with
  | true => simp
  | false =>
    rw [blankBetween_of_no_content hcontent hlast]
    by_cases hgroup : group p = group c <;> simp [hgroup] <;> omega

/-- **When two declarations are reported.** Of two declarations of a ruleset that follow each other,
variables apart, the second is reported exactly if the ruleset lies in no at-rule, no token puts ink
on a line between the two, and there are such lines although both belong to one group, or none
although they do not. -/
theorem exists_finding_iff {r : Node} {p c : Declaration} {o : Options}
    (hr : r ∈ (Stylesheet.ofText file text).1.rulesets)
    (hpair : (p, c) ∈ neighbours (judged r)) :
    (∃ d ∈ checkSeparation (Stylesheet.ofText file text).1 o,
      d.line = c.line ∧ d.column = c.column) ↔
        r.inAtRule = false ∧
          (∀ t ∈ tokenize text, ∀ number, p.endLine < number → number < c.line →
            ¬t.Inks number) ∧
          (group p = group c ↔ p.endLine + 1 < c.line) := by
  let s := (Stylesheet.ofText file text).1
  have hc := Stylesheet.mem_allDeclarations (List.mem_filter.1 hr).1
    (mem_judged_of_mem_neighbours hpair).2
  have hlast : c.line ≤ s.lines.length := by
    obtain ⟨t, ht, -, hline, -⟩ := Stylesheet.visibleAt_declaration hc
    rw [hline, Stylesheet.lines, Stylesheet.text_ofText]
    exact (Stylesheet.line_of_mem_tokenize ht).2
  have hcontent : Lines.contentBetween s.lines p.endLine c.line = false ↔
      ∀ t ∈ tokenize text, ∀ number, p.endLine < number → number < c.line → ¬t.Inks number := by
    rw [← Bool.not_eq_true, Stylesheet.lines, Stylesheet.text_ofText, Lines.contentBetween_iff]
    simp only [Token.hasInk_iff, not_exists, not_and]
    exact ⟨fun h t ht number hfirst hlast => h number hfirst hlast t ht,
      fun h number hfirst hlast t ht => h t ht number hfirst hlast⟩
  have hfinding : separationFinding? s s.lines p c ≠ none ↔
      Lines.contentBetween s.lines p.endLine c.line = false ∧
        (group p = group c ↔ p.endLine + 1 < c.line) := by
    rw [ne_eq, separationFinding?_eq_none_iff hlast, not_or, Bool.not_eq_true]
    refine and_congr_right fun _ => ?_
    by_cases hgroup : group p = group c <;> simp [hgroup]
  rw [← hcontent, ← hfinding]
  constructor
  · rintro ⟨d, hd, hplace⟩
    obtain ⟨hat, hsome⟩ := separationFinding?_of_place hr hpair hd hplace
    exact ⟨hat, by simp [s, hsome]⟩
  · rintro ⟨hat, hsome⟩
    obtain ⟨d, hd⟩ := Option.ne_none_iff_exists'.1 hsome
    have hmem : d ∈ checkSeparation s o :=
      List.mem_filterMap.2 ⟨(p, c), mem_pairs_iff.2 ⟨r, hr, hat, hpair⟩, hd⟩
    exact ⟨d, hmem, place_of_separationFinding? hd⟩

end DeclarationOrder

open DeclarationOrder

/-- **Declarations with something between them are not judged**, if it shows in the lines between
them. Take two declarations of a ruleset that follow each other, variables apart. If a nested
block, an at-rule or a variable of the ruleset lies between them, and has a character that is no
blank on a line on which neither the first declaration ends nor the second starts, then no finding
about blank lines stands at the second. -/
theorem separation_passes_over (file : String) (text : Text) :
    let s := (Stylesheet.ofText file text).1
    ∀ r ∈ s.rulesets, ∀ p c, (p, c) ∈ neighbours (judged r) →
      ∀ span, s.Item r span → p.colon < span.start → span.stop ≤ c.colon →
        (∃ t ∈ span.slice s.tokens.toArray, ∃ number, t.Inks number ∧ number ≠ p.endLine ∧
          number ≠ c.line) →
        ∀ o, ∀ d ∈ checkSeparation s o, ¬(d.line = c.line ∧ d.column = c.column) := by
  intro s r hr p c hpair span hitem hstart hstop ⟨t, ht, number, hinks, hnp, hnc⟩ o d hd hplace
  obtain ⟨hp, hc⟩ := mem_judged_of_mem_neighbours hpair
  have hbounds := hitem.line_bounds (List.mem_filter.1 hr).1 hp hc hstart hstop ht hinks
  obtain ⟨-, hblank, -⟩ := (exists_finding_iff hr hpair).1 ⟨d, hd, hplace⟩
  obtain ⟨i, hi, -, -⟩ := Stylesheet.exists_index_of_mem_slice ht
  exact hblank t (List.mem_of_getElem? hi) number (by omega) (by omega) hinks

/-- A nested block on a line of its own keeps two declarations apart. -/
theorem separation_passes_over_nested :
    let s := (Stylesheet.ofText "a.css" ".A\x7bcolor:red;\n.B\x7b\x7d\ndisplay:block\x7d".toList).1
    ∃ r ∈ s.rulesets, ∃ p c, (p, c) ∈ neighbours (judged r) ∧ group p ≠ group c ∧
      c.line ≤ p.endLine + 2 ∧
      ∀ o, ∀ d ∈ checkSeparation s o, ¬(d.line = c.line ∧ d.column = c.column) := by
  intro s
  obtain ⟨r, hr, ⟨⟨p, c⟩, hpair, hgroup, hline, hstart, hstop, hnp, hnc⟩, n, hn, hchild, he⟩ :
      ∃ r ∈ s.rulesets,
        (∃ pair ∈ neighbours (judged r), group pair.1 ≠ group pair.2 ∧
          pair.2.line ≤ pair.1.endLine + 2 ∧ pair.1.colon < 8 ∧ 12 ≤ pair.2.colon ∧
          2 ≠ pair.1.endLine ∧ 2 ≠ pair.2.line) ∧
        ∃ n ∈ s.nodes, n.index ∈ r.children ∧ s.extents[n.index]? = some ⟨8, ⟨11, 11⟩, 12⟩ := by
    decide +kernel
  obtain ⟨t, ht, hlexeme, htline⟩ : ∃ t ∈ (⟨8, 12⟩ : Span).slice s.tokens.toArray,
      t.lexeme = ['.'] ∧ t.line = 2 := by
    decide +kernel
  have hinks : t.Inks 2 := ⟨[], '.', [], hlexeme, by decide, htline⟩
  exact ⟨r, hr, p, c, hpair, hgroup, hline, separation_passes_over "a.css" _ r hr p c hpair _
    (.nested hn hchild he) hstart hstop ⟨t, ht, 2, hinks, hnp, hnc⟩⟩

/-- A variable that stands on the line of the second declaration is overlooked: the two declarations
around it are judged as if nothing lay between them. -/
theorem variable_overlooked :
    let s := (Stylesheet.ofText "<input>"
      ".A \x7b\n  color: red;\n  $x: 1; display: block;\n\x7d\n".toList).1
    ∃ r ∈ s.rulesets, ∃ p c, (p, c) ∈ neighbours (judged r) ∧
      (∃ span, s.Item r span ∧ p.colon < span.start ∧ span.stop ≤ c.colon) ∧
      ∃ d ∈ checkSeparation s {}, d.rule = .missingGroupSeparator ∧
        d.line = c.line ∧ d.column = c.column := by
  intro s
  obtain ⟨r, hr, ⟨⟨p, c⟩, hpair, hstart, hstop, hfinding⟩, v, hv, hvariable, hplace, hcolon,
      hvalue⟩ :
      ∃ r ∈ s.rulesets,
        (∃ pair ∈ neighbours (judged r), pair.1.colon < 13 ∧ 18 ≤ pair.2.colon ∧
          ∃ d ∈ checkSeparation s {}, d.rule = .missingGroupSeparator ∧
            d.line = pair.2.line ∧ d.column = pair.2.column) ∧
        ∃ v ∈ r.declarations, v.isVariable = true ∧
          (s.tokens[13]?.map fun t => (t.line, t.column)) = some (v.line, v.column) ∧
          v.colon = 15 ∧ v.valueSpan = ⟨17, 18⟩ := by
    decide +kernel
  obtain ⟨t, ht, hplace⟩ := Option.map_eq_some_iff.1 hplace
  obtain ⟨hline, hcolumn⟩ := Prod.ext_iff.1 hplace
  have hlies : v.LiesAt s.tokens ⟨13, 18⟩ := by
    refine ⟨⟨t, ht, hline.symm, hcolumn.symm⟩, ?_, ?_, ?_, ?_⟩ <;> simp [hcolon, hvalue]
  exact ⟨r, hr, p, c, hpair, ⟨_, .assigned hv hvariable hlies, hstart, hstop⟩, hfinding⟩

end HouseStyle
