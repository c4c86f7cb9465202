/-
HouseStyle.Proofs.Containment — everything in a stylesheet lies inside what it belongs to.

A node has its extent among the tokens, found by matching braces (`Stylesheet.extents`). Its
children lie between its braces, one behind the other, and so do its declarations, apart from the
children; what is outside all blocks lies in the whole text in the same way (`Holds`). The spans
that the rules about values look at never share a token, and no node ends in front of its first
line or behind the last line of the text (`source_containment`).

## How the proof goes

The forest lies where the extents say (`Stylesheet.lies_parse`), and what is said there of a row of
siblings is said of every node here (`Forest.Lies.of_mem_number`). From numbers of tokens to offsets
and lines it is one step, since tokens come in order. The spans of values are followed by statement:
each lies inside its own statement, so in order of the statements they are in order
(`Nesting.pairwise_valueSpans`), and a stylesheet has the same spans in another order.
-/
import HouseStyle.Proofs.Extents

namespace HouseStyle

/-! ## 1. Offsets and lines -/

namespace Token

theorem pairwise_offset_streamFrom (p : Position) (text : Text) :
    (streamFrom p text).Pairwise fun a b => a.offset < b.offset := by
  fun_induction streamFrom p text with
  | case1 => exact List.Pairwise.nil
  | case2 p c t lexeme ih =>
    refine List.Pairwise.cons ?_ ih
    intro b hb
    obtain ⟨before, after, hs⟩ := List.append_of_mem hb
    obtain ⟨d, rest, -, rfl, -⟩ := streamFrom_eq_append hs
    have hlexeme : 0 < lexeme.length := by
      simp [lexeme]
    simp only [offset, Position.offset_after]
    omega

/-- The tokens of a text come in the order of their offsets. -/
theorem pairwise_offset (text : Text) :
    (tokenize text).Pairwise fun a b => a.offset < b.offset :=
  pairwise_offset_streamFrom {} text

variable {text : Text} {i j : Nat} {a b : Token}

/-- A token starts behind the start of every token in front of it. -/
theorem offset_lt (ha : (tokenize text)[i]? = some a) (hb : (tokenize text)[j]? = some b)
    (h : i < j) : a.offset < b.offset := by
  obtain ⟨hi, rfl⟩ := List.getElem?_eq_some_iff.1 ha
  obtain ⟨hj, rfl⟩ := List.getElem?_eq_some_iff.1 hb
  exact List.pairwise_iff_getElem.1 (pairwise_offset text) i j hi hj h

/-- A token stands on no line in front of that of an earlier token. -/
theorem line_le_line (ha : (tokenize text)[i]? = some a) (hb : (tokenize text)[j]? = some b)
    (h : i ≤ j) : a.line ≤ b.line := by
  rcases Nat.eq_or_lt_of_le h with rfl | hlt
  · rw [ha] at hb
    obtain rfl := Option.some.inj hb
    exact Nat.le_refl _
  · obtain ⟨hi, rfl⟩ := List.getElem?_eq_some_iff.1 ha
    obtain ⟨hj, rfl⟩ := List.getElem?_eq_some_iff.1 hb
    have hbefore := List.pairwise_iff_getElem.1 (pairwise_before text) i j hi hj hlt
    unfold Position.Before at hbefore
    unfold line
    omega

theorem line_le_endLine (t : Token) : t.line ≤ t.endLine := by
  unfold endLine
  split
  · exact Nat.le_refl _
  · exact Nat.le_add_right _ _

/-- A token ends no further down than its line feeds lead. -/
theorem endLine_le (t : Token) : t.endLine ≤ t.line + t.lexeme.lineFeeds := by
  unfold endLine
  split
  · exact Nat.le_add_right _ _
  · exact Nat.le_refl _

end Token

namespace Stylesheet

variable {text : Text}

theorem line_le_lastLine {i : Nat} {t : Token} (ht : (tokenize text)[i]? = some t) :
    t.line ≤ lastLine (tokenize text) := by
  have hi : i < (tokenize text).length := (List.getElem?_eq_some_iff.1 ht).1
  have hlast : (tokenize text)[(tokenize text).length - 1]? =
      some (tokenize text)[(tokenize text).length - 1] :=
    List.getElem?_eq_getElem (by omega)
  have hle := Token.line_le_line ht hlast (by omega)
  rw [lastLine, List.getLast?_eq_getElem?, hlast]
  exact Nat.le_trans hle (Token.line_le_endLine _)

/-- The last line of the tokens is a line of the text. -/
theorem lastLine_le_length (text : Text) :
    lastLine (tokenize text) ≤ (Text.lines text).length := by
  rw [Text.length_lines, lastLine]
  split
  · rename_i t hlast
    obtain ⟨before, hsplit⟩ := List.getLast?_eq_some_iff.1 hlast
    have hline : t.line = 1 + (Token.source before).lineFeeds := by
      rw [Token.line, Token.place_eq_after hsplit, Position.line_after]
    have htext := congrArg Text.lineFeeds (Token.text_eq_append hsplit)
    have hend := t.endLine_le
    simp only [Text.lineFeeds, List.count_append] at htext hline hend ⊢
    omega
  · exact Nat.succ_le_succ (Nat.zero_le _)

end Stylesheet

/-! ## 2. Spans of values -/

namespace Nesting

/-- The span of the value that a statement holds behind `passed` tokens: that of its declaration, or
its prelude if it is an at-rule. -/
def valueSpan? (passed : Nat) : Statement → Option Span
  | .plain tokens _ => (Declaration.ofTokens? passed tokens).map (·.valueSpan)
  | .atRule _ prelude _ => some (preludeSpan (passed + 1) prelude)
  | _ => none

def valueSpans (passed : Nat) : List Statement → List Span
  | [] => []
  | st :: rest => (valueSpan? passed st).toList ++ valueSpans (passed + st.tokens.length) rest

theorem picked_valueSpans (passed : Nat) (statements : List Statement) :
    Picked (fun passed st span => valueSpan? passed st = span) passed statements
      (valueSpans passed statements) := by
  induction statements generalizing passed with
  | nil => exact .nil passed
  | cons st rest ih => exact .cons rfl (ih _)

/-- A value lies inside its statement, behind the first token. -/
theorem within_valueSpan? {passed : Nat} {st : Statement} {span : Span}
    (h : valueSpan? passed st = some span) :
    span.Within passed (passed + st.tokens.length) := by
  cases st with
  | plain tokens semicolon =>
    obtain ⟨d, hd, rfl⟩ := Option.map_eq_some_iff.1 h
    obtain ⟨-, -, -, -, hcolon⟩ := Declaration.first_of_ofTokens? hd
    refine (Declaration.within_of_ofTokens? hd).mono (Nat.le_of_lt hcolon) ?_
    simp only [Statement.tokens, List.length_append]
    omega
  | atRule keyword prelude ending =>
    obtain rfl := Option.some.inj h
    refine (within_preludeSpan passed prelude).mono (Nat.le_refl _) ?_
    simp only [Statement.tokens, List.length_cons, List.length_append]
    omega
  | _ => cases h

/-- The value of a statement lies inside the statement. -/
theorem within_of_mem_valueSpans {passed : Nat} {statements : List Statement} {span : Span}
    (h : span ∈ valueSpans passed statements) :
    span.Within passed (passed + covered statements) := by
  obtain ⟨before, st, after, rfl, hspan⟩ := (picked_valueSpans passed statements).exists_split h
  refine (within_valueSpan? hspan).mono (Nat.le_add_right _ _) ?_
  rw [covered_append, covered_cons]
  omega

/-- Values come in the order of their statements, one behind the other. -/
theorem pairwise_valueSpans (passed : Nat) (statements : List Statement) :
    (valueSpans passed statements).Pairwise fun a b => a.stop ≤ b.start := by
  refine (picked_valueSpans passed statements).pairwise (·.start) (·.stop) fun h => ?_
  exact ⟨Nat.le_of_lt (within_valueSpan? h).passed_lt, (within_valueSpan? h).stop_le⟩

/-- The values of a row of statements are those of its declarations and of its at-rules. -/
theorem perm_valueSpans (passed count : Nat) (opened : List Nat) (statements : List Statement) :
    ((declared passed statements).map (·.valueSpan) ++
      (outline passed count opened statements).filterMap fun b => headingSpan? b.heading).Perm
        (valueSpans passed statements) := by
  induction statements generalizing passed count opened with
  | nil => exact List.Perm.refl _
  | cons st rest ih =>
    have hhere : (st.declaration? passed).toList.map (·.valueSpan) ++
        (beginning? passed opened.head? st).toList.filterMap (fun b => headingSpan? b.heading) =
          (valueSpan? passed st).toList := by
      cases st with
      | plain tokens semicolon =>
        have hnone : beginning? passed opened.head? (.plain tokens semicolon) = none := rfl
        rw [hnone, Statement.declaration?, valueSpan?, Option.toList_map]
        exact List.append_nil _
      | _ => rfl
    rw [declared, outline, valueSpans, List.map_append, List.filterMap_append, ← hhere,
      List.append_assoc, List.append_assoc]
    refine List.Perm.append_left _ ?_
    refine (List.perm_append_comm_assoc _ _ _).trans ?_
    exact (ih _ _ _).append_left _

end Nesting

/-- A stylesheet has the value spans of its statements. -/
theorem Stylesheet.perm_valueSpans (file : String) (tokens : List Token) :
    (parse file tokens).1.valueSpans.Perm (Nesting.valueSpans 0 (Statement.all tokens)) := by
  have hpreludes : ((parse file tokens).1.nodes.filterMap fun n => n.atRule?.map (·.2)) =
      (Nesting.outline 0 0 [] (Statement.all tokens)).filterMap
        fun b => Nesting.headingSpan? b.heading := by
    rw [← outline_parse file tokens, List.filterMap_map]
    refine List.filterMap_congr ?_
    intro n _
    unfold Node.atRule?
    show _ = Nesting.headingSpan? { n.block.heading with comment := none }
    unfold Nesting.headingSpan?
    cases n.block.heading.shape <;> rfl
  rw [valueSpans, spansOf, hpreludes]
  refine List.Perm.trans ?_ (Nesting.perm_valueSpans 0 0 [] (Statement.all tokens))
  exact ((perm_allDeclarations file tokens).map _).append_right _

/-- The spans of values belong to the declarations and to the at-rules. -/
theorem Stylesheet.mem_spansOf {s : Stylesheet} {ds : List Declaration} {span : Span} :
    span ∈ s.spansOf ds ↔
      (∃ d ∈ ds, d.valueSpan = span) ∨ ∃ n ∈ s.nodes, ∃ name, n.atRule? = some (name, span) := by
  rw [spansOf, List.mem_append, List.mem_map, List.mem_filterMap]
  refine or_congr_right (exists_congr fun n => and_congr_right fun _ => ?_)
  rw [Option.map_eq_some_iff]
  constructor
  · rintro ⟨⟨name, prelude⟩, hrule, rfl⟩
    exact ⟨name, hrule⟩
  · rintro ⟨name, hrule⟩
    exact ⟨(name, span), hrule, rfl⟩

/-- What spans in order cut out of a row of tokens, they cut out once. -/
theorem Span.sublist_slices {tokens : List Token} {spans : List Span} {front : Nat}
    (hpair : spans.Pairwise fun a b => a.stop ≤ b.start)
    (hfront : ∀ span ∈ spans, front ≤ span.start ∧ span.start ≤ span.stop) :
    (spans.flatMap (·.slice tokens.toArray)).Sublist (tokens.drop front) := by
  induction spans generalizing front with
  | nil => exact List.nil_sublist _
  | cons span rest ih =>
    obtain ⟨hstart, hstop⟩ := hfront span List.mem_cons_self
    have hrest := ih hpair.of_cons fun later hlater =>
      ⟨List.rel_of_pairwise_cons hpair hlater, (hfront later (List.mem_cons_of_mem _ hlater)).2⟩
    have hcut : span.slice tokens.toArray ++ tokens.drop span.stop = tokens.drop span.start := by
      rw [slice_toArray]
      have hdrop : tokens.drop span.stop =
          (tokens.drop span.start).drop (span.stop - span.start) := by
        rw [List.drop_drop, Nat.add_sub_cancel' hstop]
      rw [hdrop, List.take_append_drop]
    rw [List.flatMap_cons]
    refine (hrest.append_left _).trans ?_
    rw [hcut]
    exact List.drop_sublist_drop_left tokens hstart

/-- No token of a text is in two values. -/
theorem Stylesheet.nodup_slices (file : String) (text : Text) :
    ((ofText file text).1.valueSpans.flatMap (·.slice (tokenize text).toArray)).Nodup := by
  have hsub : ((Nesting.valueSpans 0 (Statement.all (tokenize text))).flatMap
      (·.slice (tokenize text).toArray)).Sublist ((tokenize text).drop 0) :=
    Span.sublist_slices (Nesting.pairwise_valueSpans 0 _) fun span hspan =>
      ⟨Nat.zero_le _, (Nesting.within_of_mem_valueSpans hspan).start_le⟩
  exact ((perm_valueSpans file (tokenize text)).flatMap_right _).nodup_iff.2
    (hsub.nodup (Token.nodup_tokenize text))

/-! ## 3. Owners -/

section

variable (tokens : List Token) (extents : List Extent)

/-- What one owner holds lies in a span: its children, whose numbers are given, one behind the
other, and its declarations. -/
structure Holds (row : List Nat) (ds : List Declaration) (span : Span) : Prop where
  child : ∀ r ∈ row, ∃ e, extents[r]? = some e ∧ span.start ≤ e.start ∧ e.stop ≤ span.stop
  siblings : row.Pairwise fun r r' =>
    ∀ e e', extents[r]? = some e → extents[r']? = some e' → e.stop ≤ e'.start
  declared : Declared tokens extents row ds span

end

namespace Forest

variable {tokens : List Token} {extents : List Extent} {f : Forest} {index lo hi : Nat}

/-- Siblings lie one behind the other. -/
theorem Lies.pairwise_roots (h : f.Lies tokens extents index lo hi) :
    (f.roots index).Pairwise fun r r' =>
      ∀ e e', extents[r]? = some e → extents[r']? = some e' → e.stop ≤ e'.start := by
  induction f generalizing index lo with
  | nil => exact List.Pairwise.nil
  | node b children siblings _ ihs =>
    obtain ⟨e, he, -, -, -, -, hs⟩ := h
    refine List.Pairwise.cons ?_ (ihs hs)
    intro r hr first later hfirst hlater
    obtain ⟨e', he', hle, -, -⟩ := hs.of_mem_roots hr
    rw [he] at hfirst
    rw [he'] at hlater
    cases hfirst
    cases hlater
    exact hle

theorem Lies.holds (h : f.Lies tokens extents index lo hi) {ds : List Declaration}
    (hd : Declared tokens extents (f.roots index) ds ⟨lo, hi⟩) :
    Holds tokens extents (f.roots index) ds ⟨lo, hi⟩ where
  child := by
    intro r hr
    obtain ⟨e, he, hstart, -, hstop⟩ := h.of_mem_roots hr
    exact ⟨e, he, hstart, hstop⟩
  siblings := h.pairwise_roots
  declared := hd

/-- Every node of a row lies where its extent says, and what it holds lies between its braces. -/
theorem Lies.of_mem_number (h : f.Lies tokens extents index lo hi) {s : Scope} {n : Node}
    (hn : n ∈ f.number s index) :
    ∃ e, extents[n.index]? = some e ∧ n.block.LiesAt tokens e ∧
      Holds tokens extents n.children n.declarations e.inside := by
  induction f generalizing s index lo hi with
  | nil => cases hn
  | node b children siblings ihc ihs =>
    obtain ⟨e, he, -, hb, hd, hc, hs⟩ := h
    rcases List.mem_cons.1 hn with rfl | hn
    · exact ⟨e, he, hb, hc.holds hd⟩
    · rcases List.mem_append.1 hn with hn | hn
      · exact ihc hc hn
      · exact ihs hs hn

end Forest

/-! ## 4. The stylesheet of a text -/

namespace Block

variable {text : Text} {b : Block} {e : Extent}

/-- A block is opened in front of where it is closed. -/
theorem LiesAt.offset_lt (h : b.LiesAt (tokenize text) e) {opening closing : Token}
    (hopen : b.openBrace = some opening) (hclose : b.closeBrace = some closing) :
    opening.offset < closing.offset := by
  have hstart := h.start_lt
  have hinside := h.start_le_inside
  exact Token.offset_lt (h.opening _ hopen) (h.closing _ hclose).1 (by omega)

/-- A node ends on the line of its heading or on a later one, and on a line of the text. -/
theorem LiesAt.line_bounds (h : b.LiesAt (tokenize text) e) :
    b.heading.line ≤ b.endLine ∧ b.endLine ≤ (Text.lines text).length := by
  obtain ⟨i, t, ht, -, hlt, hline, -⟩ := h.heading.place
  rw [hline]
  rcases h.endLine with hlast | ⟨j, u, hu, hle, hend⟩
  · rw [hlast]
    exact ⟨Stylesheet.line_le_lastLine ht, Stylesheet.lastLine_le_length text⟩
  · rw [hend]
    exact ⟨Token.line_le_line ht hu (by omega),
      (Stylesheet.line_of_mem_tokenize (List.mem_of_getElem? hu)).2⟩

end Block

/-- Every node of a stylesheet lies where its extent says, and what it holds lies between its
braces. -/
theorem Stylesheet.exists_extent {file : String} {tokens : List Token} {n : Node}
    (hn : n ∈ (parse file tokens).1.nodes) :
    ∃ e, (parse file tokens).1.extents[n.index]? = some e ∧ n.block.LiesAt tokens e ∧
      Holds tokens (parse file tokens).1.extents n.children n.declarations e.inside := by
  rw [nodes_eq] at hn
  exact (lies_parse file tokens).1.of_mem_number hn

/-- **Everything lies inside what it belongs to**, whatever the text is. Every node has an extent
among the tokens: there are its place, its prelude and its braces, the opening one in front of the
closing one. The children of a node lie strictly between its braces, or between the opening brace
and the end of the text if there is no closing one, each behind the one before it; so do its
declarations, in the order of their colons, each value in front of the next colon, and none of them
inside a child. The same holds of the top level and the whole text. The values of all declarations
and the preludes of all at-rules have their tokens in the text, and no token is in two of them. A
node does not end in front of its first line or behind the last line of the text. -/
theorem source_containment (file : String) (text : Text) :
    let s := (Stylesheet.ofText file text).1
    let tokens := tokenize text
    Holds tokens s.extents s.topLevel s.declarations ⟨0, tokens.length⟩ ∧
    (∀ n ∈ s.nodes,
      (∃ e, s.extents[n.index]? = some e ∧ n.block.LiesAt tokens e ∧
        Holds tokens s.extents n.children n.declarations e.inside) ∧
      (∀ opening closing, n.block.openBrace = some opening → n.block.closeBrace = some closing →
        opening.offset < closing.offset) ∧
      n.line ≤ n.endLine ∧ n.endLine ≤ s.lines.length) ∧
    (∀ span ∈ s.valueSpans, span.start ≤ span.stop ∧ span.stop ≤ tokens.length) ∧
    (s.valueSpans.Pairwise fun a b => a.stop ≤ b.start ∨ b.stop ≤ a.start) ∧
    (s.valueSpans.flatMap (·.slice tokens.toArray)).Nodup := by
  intro s tokens
  obtain ⟨hforest, htop⟩ := Stylesheet.lies_parse file tokens
  have hperm : s.valueSpans.Perm (Nesting.valueSpans 0 (Statement.all tokens)) :=
    Stylesheet.perm_valueSpans file tokens
  have hordered := Nesting.pairwise_valueSpans 0 (Statement.all tokens)
  have hwithin : ∀ span ∈ Nesting.valueSpans 0 (Statement.all tokens),
      span.Within 0 tokens.length := by
    intro span hspan
    have h := Nesting.within_of_mem_valueSpans hspan
    rwa [Stylesheet.covered_all, Nat.zero_add] at h
  refine ⟨hforest.holds htop, ?_, ?_, ?_, Stylesheet.nodup_slices file text⟩
  · intro n hn
    obtain ⟨e, he, hb, hholds⟩ := Stylesheet.exists_extent hn
    refine ⟨⟨e, he, hb, hholds⟩, fun _ _ hopen hclose => hb.offset_lt hopen hclose, ?_⟩
    rw [Stylesheet.lines, Stylesheet.text_ofText]
    exact hb.line_bounds
  · intro span hspan
    have h := hwithin span (hperm.mem_iff.1 hspan)
    exact ⟨h.start_le, h.stop_le⟩
  · have hsymm : ∀ {a b : Span}, a.stop ≤ b.start ∨ b.stop ≤ a.start →
        b.stop ≤ a.start ∨ a.stop ≤ b.start := Or.symm
    exact (hperm.pairwise_iff hsymm).2 (hordered.imp Or.inl)

end HouseStyle
