/-
HouseStyle.Proofs.Separation — blank lines between sibling blocks.

Of two sibling blocks that follow each other the later one is reported unless exactly one blank line
stands directly above it, above its comment if it has one (`Lines.BlanksAbove`). This is not the
number of blank lines below the earlier one: where a comment of its own stands between the two, the
blank lines above the comment are not looked at. Where the next line with more than blanks is the
first line of the later block, the two numbers are the same (`separation_counts_above`).

## How the proof goes

No two nodes start at the same place, their comments counted in (`start_inj`), and no node is twice
among siblings (`nodup_siblingGroups`). So a finding tells by its place the two blocks that it is
about, and what it says is a matter of counting lines. Which lines are blank is told by the tokens:
behind the brace of the earlier block and in front of the later one there is only trivia, and of
trivia only comments put ink on a line (`isComment_of_inks`).
-/
import HouseStyle.Proofs.Advice
import HouseStyle.Proofs.Commentary
import HouseStyle.Proofs.Ink
import HouseStyle.Proofs.Positions
import Mathlib.Data.List.TakeWhile

namespace HouseStyle

/-! ## 1. Where nodes start -/

/-- A node stands at a token of its statement that is no comment. -/
theorem Nesting.exists_token_of_beginning? {tokens : List Token} {st : Statement} {passed : Nat}
    {owner : Option Nat} {b : Beginning} (hst : st ∈ Statement.all tokens)
    (h : beginning? passed owner st = some b) :
    ∃ t ∈ st.tokens, t.isComment = false ∧ b.heading.line = t.line ∧
      b.heading.column = t.column := by
  cases st with
  | opening prelude brace =>
    obtain rfl := Option.some.inj h
    cases hs : selectorsOf prelude with
    | nil =>
      obtain ⟨hmem, hkind⟩ := brace_of_opener? hst rfl
      refine ⟨brace, hmem, by simp [Token.isComment, hkind, Token.Kind.isComment], ?_⟩
      simp [rulesetHeading, hs]
    | cons selector more =>
      obtain ⟨t, ht, hsolid, hline, hcolumn⟩ :=
        exists_token_of_mem_selectorsOf (hs ▸ List.mem_cons_self : selector ∈ selectorsOf prelude)
      refine ⟨t, List.mem_append_left _ ht, Token.isComment_of_isTrivia hsolid, ?_⟩
      simpa [rulesetHeading, hs] using ⟨hline, hcolumn⟩
  | atRule keyword prelude ending =>
    obtain rfl := Option.some.inj h
    refine ⟨keyword, List.mem_cons_self, ?_, rfl, rfl⟩
    obtain ⟨first, rest, hread⟩ := Statement.exists_read_of_mem_all hst
    have hcomment := (Statement.comment?_isGap_read first rest).1
    have hfirst := Statement.head?_tokens_read first rest
    rw [← hread] at hcomment hfirst
    obtain rfl : keyword = first := Option.some.inj hfirst
    by_contra hkeyword
    rw [if_pos (by simpa using hkeyword)] at hcomment
    cases hcomment
  | _ => cases h

namespace Stylesheet

variable {file : String} {text : Text} {n m : Node}

/-- A node starts at a token: its comment, or one that is no comment. -/
theorem exists_start (hn : n ∈ (ofText file text).1.nodes) :
    ∃ t ∈ tokenize text, n.startLine = t.line ∧ Blocks.startColumn n = t.column ∧
      ((∃ c, n.comment = some c ∧ c.token = t ∧ t.isComment = true) ∨
        t.isComment = false ∧ n.line = t.line ∧ n.column = t.column) := by
  unfold Node.startLine Blocks.startColumn
  cases hcomment : n.comment with
  | some c =>
    have hc := (mem_comments_of_comment hn hcomment).1
    have htoken : c.token ∈ (ofText file text).1.comments.map (·.token) := List.mem_map_of_mem hc
    rw [ofText, tokens_comments, Statement.filterMap_comment?_all, List.mem_filter,
      Bool.and_eq_true] at htoken
    exact ⟨c.token, htoken.1, rfl, rfl, .inl ⟨c, rfl, rfl, htoken.2.1⟩⟩
  | none =>
    obtain ⟨b, hb, hheading⟩ := exists_beginning hn
    obtain ⟨st, hst, passed, owner, hbegins⟩ := Nesting.exists_statement_of_mem_outline hb
    obtain ⟨t, ht, hkind, hline, hcolumn⟩ := Nesting.exists_token_of_beginning? hst hbegins
    rw [hheading] at hline hcolumn
    exact ⟨t, Statement.subset_of_mem_all hst ht, hline, hcolumn, .inr ⟨hkind, hline, hcolumn⟩⟩

/-- A comment documents one node only. -/
theorem eq_of_comment_eq (hn : n ∈ (ofText file text).1.nodes) (hm : m ∈ (ofText file text).1.nodes)
    {c : Comment} (hnc : n.comment = some c) (hmc : m.comment = some c) : n = m := by
  by_contra hne
  have hnodup : ((ofText file text).1.nodes.filterMap Node.comment).Nodup := by
    rw [ofText, filterMap_comment_nodes]
    exact ((nodup_tokens_comments file text).of_map _).filter _
  have hsymm : Std.Symm fun a b : Node =>
      ∀ x, a.comment = some x → ∀ y, b.comment = some y → x ≠ y :=
    ⟨fun _ _ h x hx y hy => (h y hy x hx).symm⟩
  exact (List.pairwise_filterMap.1 hnodup).forall hn hm hne c hnc c hmc rfl

/-- No two nodes start at the same place. -/
theorem start_inj (hn : n ∈ (ofText file text).1.nodes) (hm : m ∈ (ofText file text).1.nodes)
    (hline : n.startLine = m.startLine)
    (hcolumn : Blocks.startColumn n = Blocks.startColumn m) : n = m := by
  obtain ⟨t, ht, htline, htcolumn, hkind⟩ := exists_start hn
  obtain ⟨u, hu, huline, hucolumn, hkind'⟩ := exists_start hm
  obtain rfl : t = u := Token.eq_of_place ht hu
    (Prod.ext (htline.symm.trans (hline.trans huline))
      (htcolumn.symm.trans (hcolumn.trans hucolumn)))
  rcases hkind with ⟨c, hc, htoken, hcomment⟩ | ⟨hsolid, hnline, hncolumn⟩
  · rcases hkind' with ⟨c', hc', htoken', -⟩ | ⟨hsolid, -⟩
    · have hcc : c = c' := List.inj_on_of_nodup_map (nodup_tokens_comments file text)
        (mem_comments_of_comment hn hc).1 (mem_comments_of_comment hm hc').1
        (htoken.trans htoken'.symm)
      exact eq_of_comment_eq hn hm hc (hcc ▸ hc')
    · simp [hcomment] at hsolid
  · rcases hkind' with ⟨-, -, -, hcomment⟩ | ⟨-, hmline, hmcolumn⟩
    · simp [hcomment] at hsolid
    · exact List.inj_on_of_nodup_map (nodup_places_nodes file text) hn hm
        (Prod.ext (hnline.trans hmline.symm) (hncolumn.trans hmcolumn.symm))

/-! ## 2. Siblings -/

/-- No node is twice among siblings. -/
theorem nodup_siblingGroups (s : Stylesheet) : s.siblingGroups.flatten.Nodup := by
  have hindices : (s.topLevel ++
      (s.nodes.filter fun n => !n.children.isEmpty).flatMap Node.children).Nodup := by
    refine List.Nodup.sublist ?_ s.nodup_rows
    rw [rows, List.flatten_cons, ← List.flatMap_def]
    exact (List.filter_sublist.flatMap _).append_left _
  have hgroups : s.siblingGroups.flatten =
      (s.topLevel ++ (s.nodes.filter fun n => !n.children.isEmpty).flatMap Node.children).filterMap
        (s.nodes[·]?) := by
    rw [siblingGroups, List.flatten_cons, ← List.flatMap_def, List.filterMap_append,
      List.filterMap_flatMap]
  rw [hgroups]
  refine hindices.filterMap fun i j n hi hj => ?_
  have hi' : s.nodes[i]? = some n := hi
  have hj' : s.nodes[j]? = some n := hj
  have hnodes : s.nodes.Nodup := by
    refine List.Nodup.of_map (·.index) ?_
    rw [map_index_nodes]
    exact List.nodup_range
  exact (List.getElem?_inj (List.getElem?_eq_some_iff.1 hi').1 hnodes).1 (hi'.trans hj'.symm)

/-- The two nodes are blocks that follow each other among siblings. -/
def Follows (s : Stylesheet) (previous current : Node) : Prop :=
  ∃ siblings ∈ s.siblingGroups,
    (previous, current) ∈ (siblings.filter Blocks.isBlock).zip (siblings.filter Blocks.isBlock).tail

/-- A block follows at most one other. -/
theorem Follows.unique {s : Stylesheet} {p p' c : Node} (h : s.Follows p c) (h' : s.Follows p' c) :
    p = p' := by
  let rows := s.siblingGroups.map (·.filter Blocks.isBlock)
  let pairs := rows.flatMap fun row => row.zip row.tail
  have hsnd : (pairs.map Prod.snd).Nodup := by
    refine ((sublist_map_snd_neighbours rows).trans ?_).nodup s.nodup_siblingGroups
    rw [← List.flatMap_def, List.flatten_eq_flatMap]
    exact List.Sublist.flatMap_right _ fun siblings _ => List.filter_sublist
  have hpairs : pairs = s.siblingGroups.flatMap fun siblings =>
      (siblings.filter Blocks.isBlock).zip (siblings.filter Blocks.isBlock).tail :=
    List.flatMap_map ..
  have hpair : (p, c) ∈ pairs := hpairs ▸ List.mem_flatMap.2 h
  have hpair' : (p', c) ∈ pairs := hpairs ▸ List.mem_flatMap.2 h'
  exact congrArg Prod.fst (List.inj_on_of_nodup_map hsnd hpair hpair' rfl)

theorem Follows.mem {s : Stylesheet} {p c : Node} (h : s.Follows p c) :
    p ∈ s.nodes ∧ c ∈ s.nodes := by
  obtain ⟨siblings, hsiblings, hpair⟩ := h
  obtain ⟨hp, hc⟩ := List.of_mem_zip hpair
  exact ⟨Blocks.mem_nodes_of_mem_siblings hsiblings (List.mem_filter.1 hp).1,
    Blocks.mem_nodes_of_mem_siblings hsiblings (List.mem_filter.1 (List.mem_of_mem_tail hc)).1⟩

end Stylesheet

/-! ## 3. Blank lines -/

namespace Lines

variable {lines : List Text} {floor line count : Nat}

/-- So many blank lines stand directly above a line, and no more, down to but without line
`floor`. -/
structure BlanksAbove (lines : List Text) (floor line count : Nat) : Prop where
  blank : ∀ number, line ≤ number + count → number < line → isBlankLine lines number = true
  above : count = 0 ∨ floor + count < line
  stops : floor + count + 1 < line → isBlankLine lines (line - (count + 1)) = false

theorem BlanksAbove.unique {count' : Nat} (h : BlanksAbove lines floor line count)
    (h' : BlanksAbove lines floor line count') : count = count' := by
  have hnot {few many : Nat} (hfew : BlanksAbove lines floor line few)
      (hmany : BlanksAbove lines floor line many) : ¬few < many := by
    intro hlt
    have habove := hmany.above
    have hstop := hfew.stops (by omega)
    rw [hmany.blank (line - (few + 1)) (by omega) (by omega)] at hstop
    cases hstop
  exact Nat.le_antisymm (Nat.le_of_not_lt (hnot h' h)) (Nat.le_of_not_lt (hnot h h'))

/-- The lines that are counted above a line are blank, and the count stops at the first one that is
not. -/
theorem blanksAbove_blankAbove (lines : List Text) (floor line : Nat) :
    BlanksAbove lines floor line (blankAbove lines floor line) := by
  induction line with
  | zero => exact ⟨fun number _ hlt => absurd hlt (Nat.not_lt_zero _), .inl rfl, fun h => by omega⟩
  | succ line ih =>
    rw [blankAbove]
    by_cases hblank : floor < line ∧ isBlankLine lines line = true
    · rw [if_pos (by simpa using hblank)]
      obtain ⟨hfloor, hline⟩ := hblank
      refine ⟨fun number hle hlt => ?_, .inr ?_, fun h => ?_⟩
      · rcases Nat.eq_or_lt_of_le (Nat.le_of_lt_succ hlt) with rfl | hlt
        · exact hline
        · exact ih.blank number (by omega) hlt
      · have habove := ih.above
        omega
      · rw [show line + 1 - (1 + blankAbove lines floor line + 1) =
          line - (blankAbove lines floor line + 1) by omega]
        exact ih.stops (by omega)
    · rw [if_neg (by simpa using hblank)]
      refine ⟨fun number hle hlt => by omega, .inl rfl, fun h => ?_⟩
      have hfloor : floor < line := by omega
      simpa [hfloor] using hblank

/-- The number of blank lines between a line and the next one that holds more than blanks. -/
def blankBelow (lines : List Text) (floor : Nat) : Nat :=
  ((lines.drop floor).takeWhile fun line => line.all isBlank).length

/-- The line is the next one below another that holds more than blanks. -/
structure NextInk (lines : List Text) (floor line : Nat) : Prop where
  below : floor < line
  blank : ∀ number, floor < number → number < line → isBlankLine lines number = true
  ink : HasInk lines line

/-- Above the next line with ink every line down to the floor is blank. -/
theorem NextInk.blankAbove_eq (h : NextInk lines floor line) :
    blankAbove lines floor line = line - (floor + 1) := by
  have habove := blanksAbove_blankAbove lines floor line
  have hbelow := h.below
  by_contra hne
  have hcount := habove.above
  have hmore : floor + blankAbove lines floor line + 1 < line := by omega
  have hstop := habove.stops hmore
  rw [h.blank _ (by omega) (by omega)] at hstop
  cases hstop

theorem NextInk.blankBelow_eq (h : NextInk lines floor line) :
    blankBelow lines floor = line - (floor + 1) := by
  have hbelow := h.below
  obtain ⟨row, hrow, hink⟩ := h.ink
  unfold line? at hrow
  rw [if_neg (by omega)] at hrow
  obtain ⟨hlength, hrow⟩ := List.getElem?_eq_some_iff.1 hrow
  have hdrop : line - (floor + 1) < (lines.drop floor).length := by
    rw [List.length_drop]
    omega
  have hfirst : (lines.drop floor).findIdx (fun row => !row.all isBlank) = line - (floor + 1) := by
    rw [List.findIdx_eq hdrop]
    refine ⟨?_, fun k hk => ?_⟩
    · have hsame : floor + (line - (floor + 1)) = line - 1 := by omega
      simp only [List.getElem_drop, hsame, hrow, hink, Bool.not_false]
    · have hblank := h.blank (floor + k + 1) (by omega) (by omega)
      unfold isBlankLine line? at hblank
      rw [if_neg (by omega), Nat.add_sub_cancel,
        List.getElem?_eq_getElem (by omega)] at hblank
      simpa using hblank
  rw [blankBelow, List.takeWhile_eq_take_findIdx_not, hfirst, List.length_take]
  omega

/-- Above the next line that holds more than blanks there are as many blank lines as down to it. -/
theorem NextInk.blankAbove_eq_blankBelow (h : NextInk lines floor line) :
    blankAbove lines floor line = blankBelow lines floor :=
  h.blankAbove_eq.trans h.blankBelow_eq.symm

end Lines

/-! ## 4. Findings about siblings -/

namespace Blocks

variable {file : String} {text : Text} {o : Options} {previous current : Node}

/-- A block is reported at its start, and only if it has not exactly one blank line above it. -/
theorem separationFinding?_eq {s : Stylesheet} {lines : List Text} {d : Diagnostic}
    (h : separationFinding? s lines previous current = some d) :
    d.line = current.startLine ∧ d.column = startColumn current ∧
      Lines.blankAbove lines previous.endLine current.startLine ≠ 1 := by
  unfold separationFinding? at h
  dsimp only at h
  split at h
  · cases h
  · rename_i hcount
    obtain rfl := Option.some.inj h
    exact ⟨rfl, rfl, hcount⟩

/-- Of two blocks that follow each other the later one is reported if the blank lines directly above
it are not exactly one. -/
theorem exists_finding_iff (h : (Stylesheet.ofText file text).1.Follows previous current)
    (hcontinues : continuesPrevious current = false) :
    (∃ d ∈ checkSeparation (Stylesheet.ofText file text).1 o,
      d.line = current.startLine ∧ d.column = startColumn current) ↔
        Lines.blankAbove (Stylesheet.ofText file text).1.lines previous.endLine
          current.startLine ≠ 1 := by
  let s := (Stylesheet.ofText file text).1
  constructor
  · rintro ⟨d, hd, hline, hcolumn⟩
    obtain ⟨siblings, hsiblings, hd⟩ := List.mem_flatMap.1 hd
    obtain ⟨⟨previous', current'⟩, hpair, hd⟩ := List.mem_filterMap.1 hd
    dsimp only at hd
    split at hd
    · cases hd
    · have h' : s.Follows previous' current' := ⟨siblings, hsiblings, hpair⟩
      obtain ⟨hline', hcolumn', hcount⟩ := separationFinding?_eq hd
      -- the place tells the later block, and that tells the earlier one
      obtain rfl : current' = current := Stylesheet.start_inj h'.mem.2 h.mem.2
        (by exact_mod_cast hline'.symm.trans hline) (by exact_mod_cast hcolumn'.symm.trans hcolumn)
      rwa [h.unique h']
  · intro hcount
    obtain ⟨siblings, hsiblings, hpair⟩ := h
    obtain ⟨d, hd⟩ : ∃ d, separationFinding? s s.lines previous current = some d :=
      ⟨_, if_neg hcount⟩
    obtain ⟨hline, hcolumn, -⟩ := separationFinding?_eq hd
    refine ⟨d, List.mem_flatMap.2 ⟨siblings, hsiblings, ?_⟩, hline, hcolumn⟩
    exact List.mem_filterMap.2 ⟨(previous, current), hpair, by simpa [hcontinues] using hd⟩

end Blocks

/-! ## 5. Blocks with nothing but trivia between them -/

namespace Token

variable {text : Text} {t : Token} {number : Nat}

/-- Trivia that is no comment puts no ink anywhere. -/
theorem isComment_of_inks (ht : t ∈ tokenize text) (htrivia : t.isTrivia = true)
    (h : t.Inks number) : t.isComment = true := by
  obtain ⟨c, rest, place, rfl⟩ := exists_next_of_mem ht
  obtain ⟨front, d, back, hlexeme, hink, -⟩ := h
  by_contra hcomment
  have hkind : (next c rest).1 = .whitespace ∨ (next c rest).1 = .newline := by
    unfold isTrivia at htrivia
    unfold isComment at hcomment
    dsimp only at htrivia hcomment
    revert htrivia hcomment
    cases (next c rest).1 <;> simp [Kind.isTrivia, Kind.isComment]
  have hblank : (front ++ d :: back).all isBlank = true := hlexeme ▸ all_isBlank_next hkind
  simp [hink] at hblank

/-- A closing brace is one character. -/
theorem taken_of_rightBrace (c : Char) (t : Text) (h : (next c t).1 = .rightBrace) :
    (next c t).2.taken = [] := by
  have hmark : (next c t).1.mark? = some '\x7d' := by
    rw [h]
    rfl
  exact (taken_of_mark? hmark).2

/-- A closing brace puts ink on its own line only. -/
theorem line_of_inks_of_rightBrace (ht : t ∈ tokenize text) (hkind : t.kind = .rightBrace)
    (h : t.Inks number) : number = t.line := by
  obtain ⟨c, rest, place, rfl⟩ := exists_next_of_mem ht
  obtain ⟨front, d, back, hlexeme, -, rfl⟩ := h
  dsimp only at hlexeme hkind
  rw [taken_of_rightBrace c rest hkind, eq_comm, List.append_eq_singleton_iff] at hlexeme
  rcases hlexeme with ⟨rfl, -⟩ | ⟨-, hnil⟩
  · rfl
  · cases hnil

end Token

namespace Stylesheet

variable {file : String} {text : Text} {n previous current : Node}

/-- A node starts no line behind the one on which it stands. -/
theorem startLine_le_line (hn : n ∈ (ofText file text).1.nodes) : n.startLine ≤ n.line := by
  unfold Node.startLine
  cases hcomment : n.comment with
  | none => exact Nat.le_refl _
  | some c =>
    obtain ⟨e, he, hb, -⟩ := exists_extent hn
    obtain ⟨e', he', habove⟩ := comment_eq_some_iff hn
    obtain rfl : e = e' := Option.some.inj (he.symm.trans he')
    obtain ⟨-, front, gap, hfront, -⟩ := (habove c).1 hcomment
    obtain ⟨i, t, ht, hle, -, hline, -⟩ := hb.heading.place
    have hc : ((tokenize text).take e.start)[front.length]? = some c.token := by
      rw [hfront]
      simp
    rw [List.getElem?_take] at hc
    split at hc
    · show c.token.line ≤ n.block.heading.line
      rw [hline]
      exact Token.line_le_line hc ht (by omega)
    · cases hc

/-- Nothing but trivia stands between the brace that closes a block and the token at which another
one stands. -/
def OnlyTriviaBetween (s : Stylesheet) (previous current : Node) : Prop :=
  ∃ (i j : Nat) (brace first : Token),
    i < j ∧ s.tokens[i]? = some brace ∧ s.tokens[j]? = some first ∧
    previous.block.closeBrace = some brace ∧
    (first.line = current.line ∧ first.column = current.column) ∧
    ∀ (k : Nat) (t : Token), i < k → k < j → s.tokens[k]? = some t → t.isTrivia = true

/-- With nothing but trivia between two blocks, only comments put ink on the lines between them. -/
theorem OnlyTriviaBetween.isComment (hp : previous ∈ (ofText file text).1.nodes)
    (hc : current ∈ (ofText file text).1.nodes)
    (h : (ofText file text).1.OnlyTriviaBetween previous current) {t : Token}
    (ht : t ∈ tokenize text) {number : Nat} (hinks : t.Inks number)
    (hlow : previous.endLine < number) (hhigh : number < current.startLine) :
    t.isComment = true := by
  obtain ⟨i, j, brace, first, -, hi, hj, hbrace, ⟨hline, -⟩, hgap⟩ := h
  have hstart := startLine_le_line hc
  have hend : previous.endLine = brace.line := (ended_of_mem_nodes hp).endLine_eq hbrace
  obtain ⟨hmem, hkind⟩ := Blocks.brace_of_closeBrace hp hbrace
  obtain ⟨k, hk⟩ := List.mem_iff_getElem?.1 ht
  rcases Nat.lt_trichotomy k i with hlt | rfl | hlt
  · have hle := hinks.le_line hk hi hlt
    omega
  · obtain rfl := Option.some.inj (hk.symm.trans hi)
    have hsame := Token.line_of_inks_of_rightBrace hmem hkind hinks
    omega
  · by_cases hbehind : j ≤ k
    · have hle := Token.line_le_line hj hk hbehind
      have hinkle := hinks.line_le
      omega
    · exact Token.isComment_of_inks ht (hgap k t hlt (by omega) hk) hinks

/-- With nothing but trivia between two blocks, the later one starts on the next line that holds
more than blanks unless another comment stands on a line in between. -/
theorem OnlyTriviaBetween.nextInk_iff (hp : previous ∈ (ofText file text).1.nodes)
    (hc : current ∈ (ofText file text).1.nodes)
    (h : (ofText file text).1.OnlyTriviaBetween previous current) :
    Lines.NextInk (ofText file text).1.lines previous.endLine current.startLine ↔
      previous.endLine < current.startLine ∧
      Lines.HasInk (ofText file text).1.lines current.startLine ∧
      ∀ t ∈ tokenize text, t.isComment = true → ∀ number, previous.endLine < number →
        number < current.startLine → ¬t.Inks number := by
  rw [lines, text_ofText]
  constructor
  · rintro ⟨hbelow, hblank, hink⟩
    refine ⟨hbelow, hink, fun t ht _ number hlow hhigh hinks => ?_⟩
    have hempty := (Lines.isBlankLine_iff.1 (hblank number hlow hhigh)).2.2
    exact hempty (Token.hasInk_iff.2 ⟨t, ht, hinks⟩)
  · rintro ⟨hbelow, hink, hcomments⟩
    refine ⟨hbelow, fun number hlow hhigh => ?_, hink⟩
    have hlast : current.startLine ≤ (Text.lines text).length := by
      obtain ⟨row, hrow, -⟩ := hink
      unfold Lines.line? at hrow
      rw [if_neg (by omega)] at hrow
      have hlength := (List.getElem?_eq_some_iff.1 hrow).1
      omega
    refine Lines.isBlankLine_iff.2 ⟨by omega, by omega, fun hnumber => ?_⟩
    obtain ⟨t, ht, hinks⟩ := Token.hasInk_iff.1 hnumber
    have hcomment := OnlyTriviaBetween.isComment hp hc h ht hinks hlow hhigh
    exact hcomments t ht hcomment number hlow hhigh hinks

end Stylesheet

/-- **Separation counts upwards.** Take two sibling blocks that follow each other, of which the
later one is no `@else`. The later one is reported exactly if the blank lines directly above it,
above its comment if it has one, down to the line on which the earlier one ends, are not exactly
one. If the later one starts on the next line that holds more than blanks, this is the number of
blank lines below the earlier one. With nothing but trivia between the two it does so exactly if it
starts on a later line than the earlier one ends, on one that is not blank, and no comment stands on
a line between these two. -/
theorem separation_counts_above (file : String) (text : Text) :
    let s := (Stylesheet.ofText file text).1
    ∀ previous current, s.Follows previous current → Blocks.continuesPrevious current = false →
      ∀ o,
        let Reported := ∃ d ∈ Blocks.checkSeparation s o,
          d.line = current.startLine ∧ d.column = Blocks.startColumn current
        (∃ count, Lines.BlanksAbove s.lines previous.endLine current.startLine count) ∧
        (∀ count, Lines.BlanksAbove s.lines previous.endLine current.startLine count →
          (Reported ↔ count ≠ 1)) ∧
        (Lines.NextInk s.lines previous.endLine current.startLine →
          (Reported ↔ Lines.blankBelow s.lines previous.endLine ≠ 1)) ∧
        (s.OnlyTriviaBetween previous current →
          (Lines.NextInk s.lines previous.endLine current.startLine ↔
            previous.endLine < current.startLine ∧ Lines.HasInk s.lines current.startLine ∧
            ∀ t ∈ s.tokens, t.isComment = true → ∀ number, previous.endLine < number →
              number < current.startLine → ¬t.Inks number)) := by
  intro s previous current hfollows hcontinues o Reported
  have hreported : Reported ↔
      Lines.blankAbove s.lines previous.endLine current.startLine ≠ 1 :=
    Blocks.exists_finding_iff hfollows hcontinues
  have hcounted := Lines.blanksAbove_blankAbove s.lines previous.endLine current.startLine
  refine ⟨⟨_, hcounted⟩, fun count hcount => ?_, fun hnext => ?_, fun htrivia => ?_⟩
  · rw [hreported, hcounted.unique hcount]
  · rw [hreported, hnext.blankAbove_eq_blankBelow]
  · exact Stylesheet.OnlyTriviaBetween.nextInk_iff hfollows.mem.1 hfollows.mem.2 htrivia

/-- A documented block below a blank line, with another comment in front of it on the line of the
brace. -/
theorem separation_counts_above_documented :
    let s := (Stylesheet.ofText "a.css" ".A \x7b\n\x7d // x\n\n/** B */\n.B \x7b\n\x7d\n".toList).1
    ∃ previous current, s.Follows previous current ∧ current.comment.isSome ∧
      ¬∃ d ∈ Blocks.checkSeparation s {},
        d.line = current.startLine ∧ d.column = Blocks.startColumn current := by
  intro s
  obtain ⟨siblings, hsiblings, ⟨previous, current⟩, hpair, hcontinues, hcomment, hlow, hhigh⟩ :
      ∃ siblings ∈ s.siblingGroups,
        ∃ pair ∈ (siblings.filter Blocks.isBlock).zip (siblings.filter Blocks.isBlock).tail,
          Blocks.continuesPrevious pair.2 = false ∧ pair.2.comment.isSome ∧
          pair.1.endLine = 2 ∧ pair.2.startLine = 4 := by
    decide +kernel
  have hblank : Lines.isBlankLine s.lines 3 = true := by decide +kernel
  have hink : ∃ row ∈ Lines.line? s.lines 4, row.all isBlank = false := by decide +kernel
  have hfollows : s.Follows previous current := ⟨siblings, hsiblings, hpair⟩
  have hnext : Lines.NextInk s.lines previous.endLine current.startLine := by
    rw [hlow, hhigh]
    refine ⟨by decide, fun number hfirst hlast => ?_, hink⟩
    obtain rfl : number = 3 := by omega
    exact hblank
  refine ⟨previous, current, hfollows, hcomment, ?_⟩
  rw [(separation_counts_above "a.css" _ previous current hfollows hcontinues {}).2.2.1 hnext,
    hlow]
  decide +kernel

/-- One blank line stands below the first block and only whitespace and a comment between the two,
and the second is reported, since two blank lines stand above it. -/
theorem comment_between_overlooked :
    let s := (Stylesheet.ofText "<input>"
      ".A \x7b\n\x7d\n\n/* x */\n\n\n.B \x7b\n\x7d\n".toList).1
    ∃ previous current, s.Follows previous current ∧
      Blocks.continuesPrevious current = false ∧ s.OnlyTriviaBetween previous current ∧
      Lines.blankBelow s.lines previous.endLine = 1 ∧
      ∃ d ∈ Blocks.checkSeparation s {},
        d.line = current.startLine ∧ d.column = Blocks.startColumn current := by
  intro s
  obtain ⟨siblings, hsiblings, ⟨previous, current⟩, hpair, hcontinues, hbrace, hfirst, hbelow,
      hfinding⟩ :
      ∃ siblings ∈ s.siblingGroups,
        ∃ pair ∈ (siblings.filter Blocks.isBlock).zip (siblings.filter Blocks.isBlock).tail,
          Blocks.continuesPrevious pair.2 = false ∧
          (∃ brace ∈ s.tokens, s.tokens[5]? = some brace ∧
            pair.1.block.closeBrace = some brace) ∧
          (∃ first ∈ s.tokens, s.tokens[12]? = some first ∧ first.line = pair.2.line ∧
            first.column = pair.2.column) ∧
          Lines.blankBelow s.lines pair.1.endLine = 1 ∧
          ∃ d ∈ Blocks.checkSeparation s {},
            d.line = pair.2.startLine ∧ d.column = Blocks.startColumn pair.2 := by
    decide +kernel
  have htrivia : ∀ k < 12, 5 < k → s.tokens[k]?.all (·.isTrivia) = true := by decide +kernel
  obtain ⟨brace, -, hbrace, hclose⟩ := hbrace
  obtain ⟨first, -, hfirst, hplace⟩ := hfirst
  refine ⟨previous, current, ⟨siblings, hsiblings, hpair⟩, hcontinues, ?_, hbelow, hfinding⟩
  refine ⟨5, 12, brace, first, by decide, hbrace, hfirst, hclose, hplace, ?_⟩
  intro k t hlow hhigh ht
  have hall := htrivia k hhigh hlow
  rw [ht] at hall
  exact hall

end HouseStyle
