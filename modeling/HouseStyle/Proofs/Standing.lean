/-
HouseStyle.Proofs.Standing — what a stylesheet records stands where something can be seen.

Nodes, selectors, declarations and comments keep a line and a column, and the rules report them. The
place is always that of a token that is neither a blank nor a line break (`VisibleAt`): the first
token of a statement, a brace, or the first token of a selector that is no trivia.

## How the proof goes

A statement starts with a token that can be seen, unless it is a gap between statements
(`Statement.visible_of_mem_all`), and the outline and the declarations of a text follow its
statements. Comments are held back while the walk goes on, then recorded, and attached to the node
that follows; whatever holds of the comments among the statements holds of all of these
(`Nesting.State.CommentsAre`).
-/
import HouseStyle.Proofs.Addresses
import HouseStyle.Proofs.Structural

namespace HouseStyle

/-- The token is neither a blank nor a line break. -/
def Token.isVisible (t : Token) : Bool := t.kind != .whitespace && t.kind != .newline

/-- A token that is neither a blank nor a line break stands at this line and column. -/
def VisibleAt (tokens : List Token) (line column : Nat) : Prop :=
  ∃ t ∈ tokens, t.isVisible = true ∧ line = t.line ∧ column = t.column

theorem Token.isVisible_of_isTrivia {t : Token} (h : t.isTrivia = false) : t.isVisible = true := by
  unfold isTrivia at h
  unfold isVisible
  cases hk : t.kind <;> simp_all [Kind.isTrivia]

theorem Token.isComment_of_isTrivia {t : Token} (h : t.isTrivia = false) : t.isComment = false := by
  unfold isTrivia at h
  unfold isComment
  revert h
  cases t.kind <;> simp [Kind.isTrivia, Kind.isComment]

/-- What stands at a token of a row stands at a token of every row that holds it. -/
theorem VisibleAt.mono {ts us : List Token} {line column : Nat} (h : VisibleAt ts line column)
    (hsub : ts ⊆ us) : VisibleAt us line column := by
  obtain ⟨t, ht, hplace⟩ := h
  exact ⟨t, hsub ht, hplace⟩

/-! ## 1. The first token of a statement -/

namespace Statement

def isGap : Statement → Bool
  | .lineBreak _ | .filler _ => true
  | _ => false

theorem head?_tokens_read (t : Token) (rest : List Token) :
    (read t rest).1.tokens.head? = some t := by
  unfold read
  split
  case h_8 =>
    unfold readAtRule
    dsimp only
    split
    · rfl
    · split <;> rfl
  case h_9 =>
    unfold readPlain
    dsimp only
    split
    · rfl
    · split <;> rfl
  all_goals rfl

/-- A statement that is no gap starts with a visible token. -/
theorem isVisible_of_read {t : Token} {rest : List Token} (h : (read t rest).1.isGap = false) :
    t.isVisible = true := by
  unfold read at h
  unfold Token.isVisible
  split at h
  case h_3 => cases h
  case h_4 => cases h
  case h_5 => cases h
  all_goals simp_all

/-- A statement that is no gap starts with a token that can be seen. -/
theorem visible_of_mem_all {ts : List Token} {st : Statement} (hst : st ∈ all ts)
    (hgap : st.isGap = false) : ∃ t, st.tokens.head? = some t ∧ t.isVisible = true := by
  obtain ⟨t, rest, rfl⟩ := exists_read_of_mem_all hst
  exact ⟨t, head?_tokens_read t rest, isVisible_of_read hgap⟩

end Statement

/-! ## 2. Nodes, selectors and declarations -/

namespace Nesting

variable {tokens : List Token}

theorem visibleAt_of_mem_selectorsOf {selector : Selector} (h : selector ∈ selectorsOf tokens) :
    VisibleAt tokens selector.line selector.column := by
  obtain ⟨t, ht, hsolid, hplace⟩ := exists_token_of_mem_selectorsOf h
  exact ⟨t, ht, Token.isVisible_of_isTrivia hsolid, hplace⟩

variable {st : Statement}

/-- What ends a statement is a token of it. -/
theorem mem_tokens_of_mem_ending {t : Token} (h : t ∈ st.ending) : t ∈ st.tokens := by
  rw [← st.range_append_ending]
  exact List.mem_append_right _ h

/-- The brace that opens a block is a token of its statement. -/
theorem brace_of_opener? (hst : st ∈ Statement.all tokens) {brace : Token}
    (h : st.opener? = some brace) : brace ∈ st.tokens ∧ brace.kind = .leftBrace :=
  (((Statement.delimited_of_mem_all hst).opener brace).1 h).imp_left mem_tokens_of_mem_ending

/-- The brace that closes a block is a token of its statement. -/
theorem brace_of_closer? (hst : st ∈ Statement.all tokens) {brace : Token}
    (h : st.closer? = some brace) : brace ∈ st.tokens ∧ brace.kind = .rightBrace :=
  (((Statement.delimited_of_mem_all hst).closer brace).1 h).imp_left mem_tokens_of_mem_ending

/-- A node stands at a token of its statement that can be seen. -/
theorem visibleAt_of_beginning? {passed : Nat} {owner : Option Nat} {b : Beginning}
    (hst : st ∈ Statement.all tokens) (h : beginning? passed owner st = some b) :
    VisibleAt st.tokens b.heading.line b.heading.column := by
  cases st with
  | opening prelude brace =>
    obtain rfl := Option.some.inj h
    cases hs : selectorsOf prelude with
    | nil =>
      obtain ⟨hmem, hkind⟩ := brace_of_opener? hst rfl
      exact ⟨brace, hmem, by simp [Token.isVisible, hkind], by simp [rulesetHeading, hs]⟩
    | cons selector more =>
      have hprelude : VisibleAt prelude selector.line selector.column :=
        visibleAt_of_mem_selectorsOf (hs ▸ List.mem_cons_self)
      have hplace : VisibleAt (prelude ++ [brace]) selector.line selector.column :=
        hprelude.mono (List.subset_append_left _ _)
      simpa [rulesetHeading, hs, Statement.tokens] using hplace
  | atRule keyword prelude ending =>
    obtain rfl := Option.some.inj h
    obtain ⟨t, hhead, hvisible⟩ := Statement.visible_of_mem_all hst rfl
    obtain rfl : keyword = t := Option.some.inj hhead
    exact ⟨keyword, List.mem_cons_self, hvisible, rfl, rfl⟩
  | _ => cases h

/-- What begins a ruleset opens a block behind the list of its selectors. -/
theorem exists_opening_of_beginning? {passed : Nat} {owner : Option Nat} {b : Beginning}
    (h : beginning? passed owner st = some b) {selectors : List Selector}
    (hshape : b.heading.shape = .ruleset selectors) :
    ∃ prelude brace, st = .opening prelude brace ∧ selectors = selectorsOf prelude := by
  cases st with
  | opening prelude brace =>
    obtain rfl := Option.some.inj h
    exact ⟨prelude, brace, rfl, (Shape.ruleset.inj hshape).symm⟩
  | atRule keyword prelude ending =>
    obtain rfl := Option.some.inj h
    cases hshape
  | _ => cases h

/-- A declaration stands at the first token of its statement. -/
theorem visibleAt_of_declaration? {passed : Nat} {d : Declaration}
    (hst : st ∈ Statement.all tokens) (h : st.declaration? passed = some d) :
    VisibleAt st.tokens d.line d.column := by
  cases st with
  | plain ts semicolon =>
    obtain ⟨t, hhead, hvisible⟩ := Statement.visible_of_mem_all hst rfl
    obtain ⟨first, hfirst, hline, hcolumn, -⟩ := Declaration.first_of_ofTokens? h
    rw [← List.head?_eq_getElem?] at hfirst
    have hfirst' : (Statement.plain ts semicolon).tokens.head? = some first := by
      rw [Statement.tokens, List.head?_append, hfirst]
      rfl
    obtain rfl := Option.some.inj (hhead.symm.trans hfirst')
    exact ⟨t, List.mem_of_head? hhead, hvisible, hline, hcolumn⟩
  | _ => cases h

/-- A node is begun by a statement of the row, wherever the statement stands in it. -/
theorem exists_statement_of_mem_outline {passed count : Nat} {opened : List Nat}
    {statements : List Statement} {b : Beginning}
    (h : b ∈ outline passed count opened statements) :
    ∃ st ∈ statements, ∃ passed owner, beginning? passed owner st = some b := by
  obtain ⟨before, st, after, rfl, owner, hbegins⟩ := exists_split_of_mem_outline h
  exact ⟨st, by simp, _, owner, hbegins⟩

end Nesting

/-- The tokens of a statement are tokens of the text. -/
theorem Statement.subset_of_mem_all {tokens : List Token} {st : Statement}
    (hst : st ∈ all tokens) : st.tokens ⊆ tokens := by
  intro t ht
  rw [← tokens_all tokens]
  exact List.mem_flatMap.2 ⟨st, hst, ht⟩

/-! ## 3. Comments -/

namespace Nesting

/-- Every comment that a state holds back, has recorded or has attached to a node is of a kind. -/
structure State.CommentsAre (p : Token → Prop) (s : State) : Prop where
  recorded : ∀ c ∈ s.comments, p c.token
  held : ∀ h ∈ s.level.pending, p h.token
  around : ∀ o ∈ s.enclosing, ∀ h ∈ o.outer.pending, p h.token
  attached : ∀ b ∈ s.begun, ∀ c ∈ b.heading.comment, p c.token

variable {p : Token → Prop} {s : State}

theorem State.CommentsAre.release (h : s.CommentsAre p) (attached : Bool) :
    (s.release attached).CommentsAre p := by
  have hbegun := s.begun_release attached
  unfold State.release at hbegun ⊢
  split
  · exact h
  · rename_i held hheld
    rw [hheld] at hbegun
    refine ⟨?_, ?_, h.around, ?_⟩
    · intro c hc
      rcases List.mem_append.1 hc with hc | hc
      · exact h.recorded c hc
      · rw [List.mem_singleton.1 hc]
        exact h.held held hheld
    · intro q hq
      cases hq
    · intro b hb
      exact h.attached b (hbegun ▸ hb)

theorem State.CommentsAre.documentation (h : s.CommentsAre p) :
    ∀ c ∈ s.documentation, p c.token := by
  intro c hc
  unfold State.documentation at hc
  split at hc
  · rename_i held hheld
    split at hc
    · cases hc
      exact h.held held hheld
    · cases hc
  · cases hc

/-- A block that is entered brings in no comment but that of its heading. -/
theorem State.CommentsAre.enter (h : s.CommentsAre p) {heading : Heading}
    (hheading : ∀ c ∈ heading.comment, p c.token) (brace : Token) :
    (s.enter heading brace).CommentsAre p := by
  refine ⟨h.recorded, ?_, ?_, ?_⟩
  · intro q hq
    cases hq
  · intro o ho
    rcases List.mem_cons.1 ho with rfl | ho
    · exact h.held
    · exact h.around o ho
  · intro b hb
    rw [begun_enter] at hb
    rcases List.mem_append.1 hb with hb | hb
    · exact h.attached b hb
    · rw [List.mem_singleton.1 hb]
      exact hheading

theorem State.CommentsAre.addLeaf (h : s.CommentsAre p) {heading : Heading}
    (hheading : ∀ c ∈ heading.comment, p c.token) (endLine : Nat) :
    (s.addLeaf heading endLine).CommentsAre p := by
  refine ⟨h.recorded, h.held, h.around, ?_⟩
  intro b hb
  rw [begun_addLeaf] at hb
  rcases List.mem_append.1 hb with hb | hb
  · exact h.attached b hb
  · rw [List.mem_singleton.1 hb]
    exact hheading

theorem State.CommentsAre.leave (h : s.CommentsAre p) (setting : Setting) (brace : Token) :
    (s.leave setting brace).CommentsAre p := by
  have hbegun := s.begun_leave setting brace
  unfold State.leave at hbegun ⊢
  split
  · exact ⟨h.recorded, h.held, h.around, h.attached⟩
  · rename_i o outer hopen
    rw [hopen] at hbegun
    refine ⟨h.recorded, ?_, ?_, ?_⟩
    · exact h.around o (by simp [hopen])
    · intro o' ho'
      exact h.around o' (by simp [hopen, show o' ∈ outer from ho'])
    · intro b hb
      exact h.attached b (hbegun ▸ hb)

/-- A statement keeps this, if it is no comment of another kind. -/
theorem State.CommentsAre.step (h : s.CommentsAre p) (setting : Setting) {st : Statement}
    (hst : ∀ t, st = .comment t → p t) : (s.step setting st).CommentsAre p := by
  suffices htake : (s.take setting st).CommentsAre p from
    ⟨htake.recorded, htake.held, htake.around, htake.attached⟩
  cases st with
  | comment t =>
    have hr := h.release false
    refine ⟨hr.recorded, ?_, hr.around, hr.attached⟩
    intro q hq
    cases hq
    exact hst t rfl
  | lineBreak t =>
    refine ⟨h.recorded, ?_, h.around, h.attached⟩
    intro q hq
    obtain ⟨held, hheld, rfl⟩ := Option.map_eq_some_iff.1 hq
    exact h.held held hheld
  | filler t => exact h
  | closing brace => exact (h.release false).leave setting brace
  | opening prelude brace =>
    have hr := h.release s.attaches
    have hreport : ((s.release s.attaches).report
        (selectorFindings setting prelude brace)).CommentsAre p :=
      ⟨hr.recorded, hr.held, hr.around, hr.attached⟩
    exact hreport.enter h.documentation brace
  | atRule keyword prelude ending =>
    have hr := h.release s.attaches
    cases ending with
    | opens brace => exact hr.enter h.documentation brace
    | semicolon t => exact hr.addLeaf h.documentation _
    | closedAt line => exact hr.addLeaf h.documentation _
    | endOfText => exact hr.addLeaf h.documentation _
  | plain tokens semicolon =>
    have hr := h.release false
    unfold take
    dsimp only
    split
    · exact ⟨hr.recorded, hr.held, hr.around, hr.attached⟩
    · exact hr

/-- The comments of a walk are tokens of comments among its statements. -/
theorem commentsAre_foldl (setting : Setting) {statements : List Statement}
    (hst : ∀ t, .comment t ∈ statements → p t) (h : s.CommentsAre p) :
    (statements.foldl (State.step setting) s).CommentsAre p :=
  List.foldlRecOn statements (State.step setting) h fun _ hs _ hmem =>
    hs.step setting fun t ht => hst t (ht ▸ hmem)

end Nesting

/-! ## 4. The stylesheet of a text -/

namespace Stylesheet

variable {file : String} {tokens : List Token}

/-- Every node stands at a visible token. -/
theorem visibleAt_node {n : Node} (hn : n ∈ (parse file tokens).1.nodes) :
    VisibleAt tokens n.line n.column := by
  obtain ⟨b, hb, hheading⟩ := exists_beginning hn
  obtain ⟨st, hst, passed, owner, hbegins⟩ := Nesting.exists_statement_of_mem_outline hb
  have hplace := Nesting.visibleAt_of_beginning? hst hbegins
  rw [hheading] at hplace
  exact hplace.mono (Statement.subset_of_mem_all hst)

/-- The selectors of a node are those of a list in front of a brace. -/
theorem exists_opening {n : Node} (hn : n ∈ (parse file tokens).1.nodes)
    {selector : Selector} (hselector : selector ∈ n.selectors) :
    ∃ prelude brace, Statement.opening prelude brace ∈ Statement.all tokens ∧
      selector ∈ Nesting.selectorsOf prelude := by
  obtain ⟨b, hb, hheading⟩ := exists_beginning hn
  obtain ⟨st, hst, passed, owner, hbegins⟩ := Nesting.exists_statement_of_mem_outline hb
  unfold Node.selectors Block.selectors at hselector
  split at hselector
  · rename_i selectors hshape
    have hshape' : b.heading.shape = .ruleset selectors := by
      rw [hheading, ← hshape]
    obtain ⟨prelude, brace, rfl, rfl⟩ := Nesting.exists_opening_of_beginning? hbegins hshape'
    exact ⟨prelude, brace, hst, hselector⟩
  · cases hselector

theorem visibleAt_selector {n : Node} (hn : n ∈ (parse file tokens).1.nodes)
    {selector : Selector} (hselector : selector ∈ n.selectors) :
    VisibleAt tokens selector.line selector.column := by
  obtain ⟨prelude, brace, hst, hmem⟩ := exists_opening hn hselector
  exact (Nesting.visibleAt_of_mem_selectorsOf hmem).mono fun t ht =>
    Statement.subset_of_mem_all hst (List.mem_append_left _ ht)

/-- Every declaration stands at a visible token. -/
theorem visibleAt_declaration {d : Declaration} (hd : d ∈ (parse file tokens).1.allDeclarations) :
    VisibleAt tokens d.line d.column := by
  have hmem := (perm_allDeclarations file tokens).mem_iff.1 hd
  obtain ⟨before, st, after, hall, hdeclares⟩ := Nesting.exists_split_of_mem_declared hmem
  have hst : st ∈ Statement.all tokens := by simp [hall]
  exact (Nesting.visibleAt_of_declaration? hst hdeclares).mono (Statement.subset_of_mem_all hst)

/-- The walk over a text holds back, records and attaches comments of the text. -/
theorem commentsAre_walk (setting : Nesting.Setting) (tokens : List Token) :
    (Nesting.walk setting (Statement.all tokens)).CommentsAre
      fun t => t ∈ tokens ∧ t.isVisible = true := by
  refine Nesting.commentsAre_foldl setting ?_ ?_
  · intro t ht
    obtain ⟨first, hhead, hvisible⟩ := Statement.visible_of_mem_all ht rfl
    obtain rfl : t = first := Option.some.inj hhead
    exact ⟨Statement.subset_of_mem_all ht List.mem_cons_self, hvisible⟩
  · constructor <;> intro x hx <;> cases hx

theorem visibleAt_comment {c : Comment} (hc : c ∈ (parse file tokens).1.comments) :
    VisibleAt tokens c.line c.column := by
  have hwalk := (commentsAre_walk ⟨file, lastLine tokens⟩ tokens).release false
  obtain ⟨hmem, hvisible⟩ := hwalk.recorded c hc
  exact ⟨c.token, hmem, hvisible, rfl, rfl⟩

/-- The comment that documents a node stands in the text. -/
theorem visibleAt_comment_of_node {n : Node} (hn : n ∈ (parse file tokens).1.nodes) {c : Comment}
    (hc : n.comment = some c) : VisibleAt tokens c.line c.column := by
  have hwalk := commentsAre_walk ⟨file, lastLine tokens⟩ tokens
  have hmem : n.block.beginning ((parse file tokens).1.ownerOf? n.index) ∈
      (Nesting.walk ⟨file, lastLine tokens⟩ (Statement.all tokens)).begun := by
    rw [← map_beginning_parse]
    exact List.mem_map_of_mem hn
  obtain ⟨htoken, hvisible⟩ := hwalk.attached _ hmem c hc
  exact ⟨c.token, htoken, hvisible, rfl, rfl⟩

end Stylesheet

end HouseStyle
