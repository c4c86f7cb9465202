/-
HouseStyle.Proofs.Locality — what follows a closed block is parsed as if nothing stood before it.

A row of tokens that is complete (empty, or ending with a brace that closes the last open block or
none) leaves nothing behind in the parser but what it has gathered: no open block, no comment that
waits for its statement, no statement that could go on. So a stylesheet can be parsed block by
block, and the parts put one behind the other (`parse_append`).

## How the proof goes

* Statements end where they ended before, whatever follows (`Statement.all_append`).
* The numbers of tokens that a part records move with the tokens in front of it (`moved`).
* A walk that goes on from a state with no open block keeps, at every step, to the walk that starts
  from nothing: `State.resumed` puts what the second has gathered behind what the first had, and
  one step does the same to both (`resumed_step`).
* The walk over a complete row ends in such a state and does not look at the last line of the text
  (`walk_of_complete`).
-/
import HouseStyle.Proofs.Braces

namespace HouseStyle

/-! ## 1. Statements of two rows -/

namespace Statement

/-- A cut that is found stays where it is when the row goes on. -/
theorem cut_append_of_ne_nil {awaited : List Token.Kind} {xs : List Token} (ys : List Token)
    (h : (cut awaited xs).2 ≠ []) :
    cut awaited (xs ++ ys) = ((cut awaited xs).1, (cut awaited xs).2 ++ ys) := by
  induction xs generalizing awaited with
  | nil => exact absurd rfl h
  | cons t xs ih =>
    rw [cut] at h
    rw [List.cons_append, cut, cut]
    by_cases hstop : (awaited.isEmpty && isTerminator t.kind) = true
    · simp [hstop]
    · rw [if_neg hstop] at h
      simp [hstop, ih h]

/-- An at-rule that leaves something unread is read alike when the text goes on. -/
theorem readAtRule_append_right {keyword : Token} {xs : List Token} (ys : List Token)
    (h : (readAtRule keyword xs).2 ≠ []) :
    readAtRule keyword (xs ++ ys) =
      ((readAtRule keyword xs).1, (readAtRule keyword xs).2 ++ ys) := by
  have hcut : (cut [] xs).2 ≠ [] := by
    intro hnil
    simp [readAtRule, hnil] at h
  obtain ⟨e, more, he⟩ := List.exists_cons_of_ne_nil hcut
  simp only [readAtRule, cut_append_of_ne_nil ys hcut, he, List.cons_append]
  split <;> rfl

/-- A statement that leaves something unread is read alike when the text goes on. -/
theorem readPlain_append_right {first : Token} {xs : List Token} (ys : List Token)
    (h : (readPlain first xs).2 ≠ []) :
    readPlain first (xs ++ ys) = ((readPlain first xs).1, (readPlain first xs).2 ++ ys) := by
  have hcut : (cut (awaitAfter [] first.kind) xs).2 ≠ [] := by
    intro hnil
    simp [readPlain, hnil] at h
  obtain ⟨e, more, he⟩ := List.exists_cons_of_ne_nil hcut
  simp only [readPlain, cut_append_of_ne_nil ys hcut, he, List.cons_append]
  split <;> rfl

/-- A statement that does not reach the end of its row is read in the same way when the row goes
on. -/
theorem read_append_right {t : Token} {xs : List Token} (ys : List Token)
    (h : (read t xs).2 ≠ []) : read t (xs ++ ys) = ((read t xs).1, (read t xs).2 ++ ys) := by
  unfold read at h ⊢
  split at h
  case h_8 => exact readAtRule_append_right ys h
  case h_9 => exact readPlain_append_right ys h
  all_goals rfl

/-- A statement that is a closing brace takes nothing else. -/
theorem read_eq_closing {t : Token} {xs : List Token} {brace : Token}
    (h : (read t xs).1 = .closing brace) : t.kind = .rightBrace ∧ t = brace := by
  unfold read at h
  split at h
  case h_6 hk => exact ⟨hk, by simpa using h⟩
  case h_8 =>
    unfold readAtRule at h
    dsimp only at h
    split at h
    · cases h
    · split at h <;> cases h
  case h_9 =>
    unfold readPlain at h
    dsimp only at h
    split at h
    · cases h
    · split at h <;> cases h
  all_goals cases h

theorem all_eq_nil_iff {xs : List Token} : all xs = [] ↔ xs = [] := by
  cases xs with
  | nil => simp [all]
  | cons t xs => simp [all]

/-- The last statement of a row is a closing brace. -/
def EndsClosing (xs : List Token) : Prop := ∃ brace, (all xs).getLast? = some (.closing brace)

/-- A row that ends with a closing brace is that brace alone, or what its first statement leaves
ends so. -/
theorem endsClosing_cons {t : Token} {xs : List Token} (h : EndsClosing (t :: xs)) :
    ((read t xs).2 = [] ∧ t.kind = .rightBrace) ∨
      ((read t xs).2 ≠ [] ∧ EndsClosing (read t xs).2) := by
  obtain ⟨brace, hlast⟩ := h
  rw [all] at hlast
  by_cases hnil : (read t xs).2 = []
  · rw [hnil, all] at hlast
    exact .inl ⟨hnil, (read_eq_closing (by simpa using hlast)).1⟩
  · have hne : all (read t xs).2 ≠ [] := mt all_eq_nil_iff.1 hnil
    obtain ⟨st, more, hall⟩ := List.exists_cons_of_ne_nil hne
    refine .inr ⟨hnil, brace, ?_⟩
    rw [hall] at hlast ⊢
    rwa [List.getLast?_cons_cons] at hlast

/-- Behind a closing brace the next row starts with a statement of its own. -/
theorem all_append {xs : List Token} (ys : List Token) (h : EndsClosing xs) :
    all (xs ++ ys) = all xs ++ all ys := by
  fun_induction all xs with
  | case1 => rfl
  | case2 t xs ih =>
    rw [List.cons_append, all]
    rcases endsClosing_cons h with ⟨hnil, hk⟩ | ⟨hne, hrest⟩
    · have hread (zs : List Token) : read t zs = (.closing t, zs) := by
        unfold read
        rw [hk]
      rw [hread] at hnil
      dsimp only at hnil
      subst hnil
      simp [hread, all]
    · rw [read_append_right ys hne]
      rw [ih hrest]
      rfl

/-- The statement ends with the text, without a token that ends it. -/
def meetsEnd : Statement → Bool
  | .atRule _ _ .endOfText => true
  | _ => false

theorem read_eq_nil_of_meetsEnd {t : Token} {xs : List Token}
    (h : (read t xs).1.meetsEnd = true) : (read t xs).2 = [] := by
  unfold read at h ⊢
  split at h
  case h_8 hk =>
    unfold readAtRule at h ⊢
    dsimp only at h ⊢
    split at h
    · rfl
    · split at h <;> cases h
  case h_9 =>
    unfold readPlain at h
    dsimp only at h
    split at h
    · cases h
    · split at h <;> cases h
  all_goals cases h

/-- No statement of a complete row meets the end of the text. -/
theorem meetsEnd_of_mem_all {xs : List Token} (h : EndsClosing xs) {st : Statement}
    (hst : st ∈ all xs) : st.meetsEnd = false := by
  fun_induction all xs with
  | case1 => cases hst
  | case2 t xs ih =>
    rcases endsClosing_cons h with ⟨hnil, hk⟩ | ⟨hne, hrest⟩
    · rw [hnil, all, List.mem_singleton] at hst
      subst hst
      unfold read
      rw [hk]
      rfl
    · rcases List.mem_cons.1 hst with rfl | hst
      · cases hend : (read t xs).1.meetsEnd with
        | false => rfl
        | true => exact absurd (read_eq_nil_of_meetsEnd hend) hne
      · exact ih hrest hst

end Statement

/-! ## 2. Numbers that move -/

/-- The span with `count` more tokens in front of it. -/
def Span.moved (count : Nat) (span : Span) : Span := ⟨count + span.start, count + span.stop⟩

def Declaration.moved (count : Nat) (d : Declaration) : Declaration :=
  { d with colon := count + d.colon, valueSpan := d.valueSpan.moved count }

def Heading.moved (count : Nat) (h : Heading) : Heading :=
  { h with
    shape :=
      match h.shape with
      | .ruleset selectors => .ruleset selectors
      | .atRule name prelude => .atRule name (prelude.moved count) }

def Block.moved (count : Nat) (b : Block) : Block :=
  { b with
    heading := b.heading.moved count, declarations := b.declarations.map (Declaration.moved count) }

/-- The scope with `nodes` more nodes in front of it. -/
def Scope.moved (nodes : Nat) (s : Scope) : Scope :=
  { s with parent := s.parent.map (nodes + ·), atRule := s.atRule.map (nodes + ·) }

def Node.moved (nodes count : Nat) (n : Node) : Node where
  index := nodes + n.index
  block := n.block.moved count
  scope := n.scope.moved nodes
  children := n.children.map (nodes + ·)

def Forest.moved (count : Nat) : Forest → Forest := map (Block.moved count)

/-- A declaration records places relative to its statement, moved with it. -/
theorem Declaration.ofTokens?_moved (count base : Nat) (tokens : List Token) :
    ofTokens? (count + base) tokens = (ofTokens? base tokens).map (moved count) := by
  unfold ofTokens?
  dsimp only
  split
  · split
    · rfl
    · simp [moved, Span.moved, Nat.add_assoc]
  · rfl

theorem Nesting.preludeSpan_moved (count base : Nat) (prelude : List Token) :
    preludeSpan (count + base) prelude = (preludeSpan base prelude).moved count := by
  simp [preludeSpan, Span.moved, Nat.add_assoc]

theorem Nesting.atRuleHeading_moved (count index : Nat) (keyword : Token) (prelude : List Token)
    (comment : Option Comment) :
    atRuleHeading (count + index) keyword prelude comment =
      (atRuleHeading index keyword prelude comment).moved count := by
  simp [atRuleHeading, Heading.moved, Nat.add_assoc, preludeSpan_moved]

@[simp] theorem Block.isRuleset_moved (count : Nat) (b : Block) :
    (b.moved count).isRuleset = b.isRuleset := by
  unfold isRuleset moved Heading.moved
  dsimp only
  split <;> split <;> simp_all

/-- What is handed down to the children of a node moves with the node. -/
theorem Scope.inside_moved (nodes count index : Nat) (s : Scope) (b : Block) :
    (s.moved nodes).inside (nodes + index) (b.moved count) = (s.inside index b).moved nodes := by
  unfold inside
  rw [Block.isRuleset_moved]
  split <;> rfl

namespace Forest

variable (nodes count : Nat)

@[simp] theorem moved_nil : nil.moved count = nil := rfl

@[simp] theorem moved_node (b : Block) (children siblings : Forest) :
    (node b children siblings).moved count =
      node (b.moved count) (children.moved count) (siblings.moved count) := rfl

@[simp] theorem size_moved (f : Forest) : (f.moved count).size = f.size := size_map _ f

@[simp] theorem moved_append (f g : Forest) :
    (f.append g).moved count = (f.moved count).append (g.moved count) := map_append _ f g

theorem roots_moved (index : Nat) (f : Forest) :
    (f.moved count).roots (nodes + index) = (f.roots index).map (nodes + ·) := by
  induction f generalizing index with
  | nil => rfl
  | node b children siblings _ ihs =>
    simp only [moved_node, roots, List.map_cons, size_moved, Nat.add_assoc, ihs]

/-- Numbering a moved forest moves its nodes. -/
theorem number_moved (s : Scope) (index : Nat) (f : Forest) :
    (f.moved count).number (s.moved nodes) (nodes + index) =
      (f.number s index).map (Node.moved nodes count) := by
  induction f generalizing s index with
  | nil => rfl
  | node b children siblings ihc ihs =>
    have hc := ihc (s.inside index b) (index + 1)
    have hs := ihs s (index + 1 + children.size)
    have hr := roots_moved nodes count (index + 1) children
    simp only [← Nat.add_assoc] at hc hs hr
    rw [moved_node, number, number, List.map_cons, List.map_append, Scope.inside_moved, hc, hr,
      size_moved, hs]
    rfl

end Forest

/-! ## 3. A walk that goes on -/

namespace Nesting

def Level.moved (count : Nat) (l : Level) : Level :=
  { l with
    declarations := l.declarations.map (Declaration.moved count)
    children := l.children.moved count }

def Level.followedBy (base l : Level) : Level where
  declarations := base.declarations ++ l.declarations
  children := base.children.append l.children
  pending := l.pending

/-- What a walk from nothing gathered at a level inside open blocks, as it is gathered by a walk
that goes on from a base: at the top level it stands behind what the base has gathered there. -/
def State.resumedLevel (base : State) (outer : List OpenBlock) (l : Level) : Level :=
  if outer.isEmpty then base.level.followedBy (l.moved base.index) else l.moved base.index

/-- The open blocks of a walk from nothing, as a walk that goes on from a base has them. -/
def State.resumedBlocks (base : State) : List OpenBlock → List OpenBlock
  | [] => []
  | o :: outer =>
    ⟨base.resumedLevel outer o.outer, o.heading.moved base.index, o.brace⟩ ::
      base.resumedBlocks outer

/-- The state of a walk from nothing, as a walk that goes on from a base has it. -/
def State.resumed (base s : State) : State where
  index := base.index + s.index
  level := base.resumedLevel s.enclosing s.level
  enclosing := base.resumedBlocks s.enclosing
  comments := base.comments ++ s.comments
  diagnostics := base.diagnostics ++ s.diagnostics

section

variable (base s : State)

@[simp] theorem State.pending_resumedLevel (outer : List OpenBlock) (l : Level) :
    (base.resumedLevel outer l).pending = l.pending := by
  unfold resumedLevel
  split <;> rfl

theorem State.resumedLevel_withPending (outer : List OpenBlock) (l : Level) (p : Option Pending) :
    base.resumedLevel outer { l with pending := p } =
      { base.resumedLevel outer l with pending := p } := by
  unfold resumedLevel
  split <;> rfl

theorem State.resumedLevel_addNode (outer : List OpenBlock) (l : Level) (b : Block)
    (children : Forest) :
    base.resumedLevel outer (l.addNode b children) =
      (base.resumedLevel outer l).addNode (b.moved base.index) (children.moved base.index) := by
  unfold resumedLevel
  split <;> simp [Level.addNode, Level.moved, Level.followedBy, Forest.append_assoc]

theorem State.resumedLevel_declare (outer : List OpenBlock) (l : Level) (d : Declaration) :
    base.resumedLevel outer { l with declarations := l.declarations ++ [d] } =
      { base.resumedLevel outer l with
        declarations := (base.resumedLevel outer l).declarations ++ [d.moved base.index] } := by
  unfold resumedLevel
  split <;> simp [Level.moved, Level.followedBy]

theorem State.resumed_release (attached : Bool) :
    (base.resumed s).release attached = base.resumed (s.release attached) := by
  have hpending : (base.resumed s).level.pending = s.level.pending :=
    base.pending_resumedLevel _ _
  unfold release
  rw [hpending]
  cases s.level.pending with
  | none => rfl
  | some p => simp [resumed, resumedLevel_withPending]

theorem State.attaches_resumed : (base.resumed s).attaches = s.attaches := by
  simp [attaches, resumed]

theorem State.documentation_resumed : (base.resumed s).documentation = s.documentation := by
  simp [documentation, resumed]

theorem State.resumed_report (ds : List Diagnostic) :
    (base.resumed s).report ds = base.resumed (s.report ds) := by
  simp [report, resumed]

theorem State.resumed_enter (heading : Heading) (brace : Token) :
    (base.resumed s).enter (heading.moved base.index) brace =
      base.resumed (s.enter heading brace) := rfl

theorem State.resumed_addLeaf (heading : Heading) (endLine : Nat) :
    (base.resumed s).addLeaf (heading.moved base.index) endLine =
      base.resumed (s.addLeaf heading endLine) := by
  simp only [addLeaf, resumed, resumedLevel_addNode]
  rfl

theorem State.resumed_declare (d : Declaration) :
    (base.resumed s).declare (d.moved base.index) = base.resumed (s.declare d) := by
  simp only [declare, resumed, resumedLevel_declare]

theorem State.resumedLevel_close (outer : List OpenBlock) (o : OpenBlock) (inner : Level)
    (brace : Option Token) (endLine : Nat) :
    base.resumedLevel outer (o.close inner brace endLine) =
      OpenBlock.close ⟨base.resumedLevel outer o.outer, o.heading.moved base.index, o.brace⟩
        (base.resumedLevel (o :: outer) inner) brace endLine := by
  rw [OpenBlock.close, resumedLevel_addNode]
  rfl

/-- A closing brace closes the same block in a walk that goes on from a base. -/
theorem State.resumed_leave (setting : Setting) (brace : Token) :
    (base.resumed s).leave setting brace = base.resumed (s.leave setting brace) := by
  obtain ⟨index, level, enclosing, comments, diagnostics⟩ := s
  cases enclosing with
  | nil => simp [leave, report, resumed, resumedBlocks]
  | cons o outer => simp only [leave, resumed, resumedBlocks, resumedLevel_close]

/-- A statement does the same to both walks. -/
theorem State.resumed_step (setting : Setting) (st : Statement) :
    (base.resumed s).step setting st = base.resumed (s.step setting st) := by
  suffices htake : (base.resumed s).take setting st = base.resumed (s.take setting st) by
    unfold step
    rw [htake]
    simp [resumed, Nat.add_assoc]
  cases st with
  | comment t =>
    simp only [take, resumed_release]
    simp [resumed, resumedLevel_withPending]
  | lineBreak t => simp [take, resumed, resumedLevel_withPending]
  | filler t => rfl
  | closing brace => simp only [take, resumed_release, resumed_leave]
  | opening prelude brace =>
    have hheading (comment : Option Comment) : (rulesetHeading prelude brace comment).moved
        base.index = rulesetHeading prelude brace comment := rfl
    simp only [take, attaches_resumed, documentation_resumed, resumed_release, resumed_report]
    rw [← resumed_enter, hheading]
  | atRule keyword prelude ending =>
    have hindex : (base.resumed s).index = base.index + s.index := rfl
    simp only [take, attaches_resumed, documentation_resumed, resumed_release, hindex,
      atRuleHeading_moved]
    cases ending with
    | opens brace => exact resumed_enter _ _ _ _
    | _ => exact resumed_addLeaf _ _ _ _
  | plain tokens semicolon =>
    have hindex : ((base.resumed s).release false).index =
        base.index + (s.release false).index := by
      rw [index_release, index_release]
      rfl
    simp only [take]
    rw [hindex, Declaration.ofTokens?_moved, resumed_release]
    cases Declaration.ofTokens? (s.release false).index tokens with
    | none => rfl
    | some d => exact resumed_declare _ _ d

/-- A whole walk from a base is the walk from nothing, resumed. -/
theorem State.resumed_foldl (setting : Setting) (statements : List Statement) :
    statements.foldl (State.step setting) (base.resumed s) =
      base.resumed (statements.foldl (State.step setting) s) := by
  induction statements generalizing s with
  | nil => rfl
  | cons st rest ih =>
    rw [List.foldl_cons, resumed_step, ih]
    rfl

/-- Blocks that are open at the end are closed alike, behind what the base has gathered. -/
theorem closeAll_resumed (lastLine : Nat) (level : Level) (enclosing : List OpenBlock) :
    closeAll lastLine (base.resumedLevel enclosing level) (base.resumedBlocks enclosing) =
      base.level.followedBy ((closeAll lastLine level enclosing).moved base.index) := by
  induction enclosing generalizing level with
  | nil => rfl
  | cons o outer ih =>
    rw [State.resumedBlocks, closeAll, ← State.resumedLevel_close, ih]
    rfl

def State.finished (s : State) (lastLine : Nat) : Level :=
  closeAll lastLine (s.release false).level (s.release false).enclosing

theorem State.finished_resumed (lastLine : Nat) :
    (base.resumed s).finished lastLine =
      base.level.followedBy ((s.finished lastLine).moved base.index) := by
  unfold finished
  rw [resumed_release]
  exact closeAll_resumed base lastLine _ _

end

/-! ## 4. The walk over a complete row -/

/-- No comment waits at a level around an open block. -/
def State.Settled (s : State) : Prop := ∀ o ∈ s.enclosing, o.outer.pending = none

theorem State.pending_release (s : State) (attached : Bool) :
    (s.release attached).level.pending = none := by
  unfold release
  split <;> simp_all

/-- A statement leaves comments held at the innermost level only. -/
theorem State.Settled.step {s : State} (h : s.Settled) (setting : Setting) (st : Statement) :
    (s.step setting st).Settled := by
  suffices htake : (s.take setting st).Settled from htake
  have hrelease (attached : Bool) : (s.release attached).Settled := by
    unfold Settled
    rwa [enclosing_release]
  have henter {attached : Bool} {heading : Heading} {brace : Token} :
      ((s.release attached).enter heading brace).Settled := by
    intro o ho
    rcases List.mem_cons.1 ho with rfl | ho
    · exact s.pending_release attached
    · exact hrelease attached o ho
  have hpass := s.passes setting st
  generalize s.take setting st = next at hpass
  cases hpass with
  | silent => exact h
  | closing brace =>
    unfold State.leave
    split
    · exact hrelease false
    · rename_i o outer ho
      intro o' ho'
      exact hrelease false o' (by rw [ho]; exact List.mem_cons_of_mem _ ho')
  | opening => exact henter
  | block => exact henter
  | leaf => exact hrelease s.attaches
  | declaring => exact hrelease false

theorem settled_foldl (setting : Setting) {s : State} (h : s.Settled)
    (statements : List Statement) : (statements.foldl (State.step setting) s).Settled :=
  List.foldlRecOn statements (State.step setting) h fun _ hs st _ => hs.step setting st

/-- No comment waits behind a closing brace. -/
theorem State.pending_step_closing {s : State} (h : s.Settled) (setting : Setting)
    (brace : Token) : (s.step setting (.closing brace)).level.pending = none := by
  show ((s.release false).leave setting brace).level.pending = none
  unfold leave
  split
  · exact s.pending_release false
  · rename_i o outer ho
    rw [enclosing_release] at ho
    exact h o (by rw [ho]; exact List.mem_cons_self)

/-- Only a statement that meets the end of the text looks at its last line. -/
theorem State.step_congr {setting setting' : Setting} (hfile : setting.file = setting'.file)
    (s : State) {st : Statement} (hst : st.meetsEnd = false) :
    s.step setting st = s.step setting' st := by
  have hfinding : setting.finding = setting'.finding := by
    funext rule token message fix
    simp [Setting.finding, hfile]
  cases st with
  | closing brace => simp only [step, take, leave, hfinding]
  | opening prelude brace => simp only [step, take, selectorFindings, hfinding]
  | atRule keyword prelude ending =>
    cases ending with
    | endOfText => cases hst
    | _ => rfl
  | _ => rfl

/-- The last line of the text matters only to a statement that meets the end of it. -/
theorem foldl_congr {setting setting' : Setting} (hfile : setting.file = setting'.file)
    (s : State) {statements : List Statement} (h : ∀ st ∈ statements, st.meetsEnd = false) :
    statements.foldl (State.step setting) s = statements.foldl (State.step setting') s := by
  induction statements generalizing s with
  | nil => rfl
  | cons st rest ih =>
    rw [List.foldl_cons, List.foldl_cons, State.step_congr hfile s (h st List.mem_cons_self)]
    exact ih _ fun st' hst' => h st' (List.mem_cons_of_mem _ hst')

end Nesting

/-- **Complete rows of tokens**: empty, or with a closing brace for their last statement, whether it
closes a block or is reported, and no block left open. -/
def Stylesheet.Complete (file : String) (xs : List Token) : Prop :=
  xs = [] ∨ Statement.EndsClosing xs ∧ ∀ n ∈ (parse file xs).1.nodes, n.isUnclosed = false

namespace Nesting

/-- A walk over a complete row leaves no block open, lets no comment wait, and does not look at the
last line of the text. -/
theorem walk_of_complete {file : String} {xs : List Token} (h : Stylesheet.Complete file xs)
    (lastLine : Nat) :
    walk ⟨file, lastLine⟩ (Statement.all xs) =
        walk ⟨file, Stylesheet.lastLine xs⟩ (Statement.all xs) ∧
      (walk ⟨file, lastLine⟩ (Statement.all xs)).enclosing = [] ∧
      (walk ⟨file, lastLine⟩ (Statement.all xs)).level.pending = none := by
  rcases h with rfl | ⟨hends, hclosed⟩
  · rw [Statement.all]
    exact ⟨rfl, rfl, rfl⟩
  · have hcongr : walk ⟨file, lastLine⟩ (Statement.all xs) =
        walk ⟨file, Stylesheet.lastLine xs⟩ (Statement.all xs) := by
      refine foldl_congr ?_ {} fun st hst => Statement.meetsEnd_of_mem_all hends hst
      rfl
    have hnodes : (Stylesheet.parse file xs).1.nodes.filter Node.isUnclosed = [] :=
      List.filter_eq_nil_iff.2 fun n hn => by simp [hclosed n hn]
    have hopen := (Stylesheet.unclosed_parse file xs).opened {} 0
    rw [← Stylesheet.nodes_eq, hnodes] at hopen
    obtain ⟨brace, hlast⟩ := hends
    obtain ⟨front, hall⟩ := List.getLast?_eq_some_iff.1 hlast
    refine ⟨hcongr, ?_, ?_⟩
    · rw [hcongr]
      simpa using hopen.symm
    · rw [hall, walk, List.foldl_concat]
      exact State.pending_step_closing (settled_foldl _ (by simp [State.Settled]) front) _ brace

end Nesting

/-! ## 5. Parsing -/

namespace Nesting

theorem index_walk (setting : Setting) (tokens : List Token) :
    (walk setting (Statement.all tokens)).index = tokens.length := by
  rw [walk, index_foldl, Statement.tokens_all]
  exact Nat.zero_add _

theorem State.release_of_pending {s : State} (h : s.level.pending = none) (attached : Bool) :
    s.release attached = s := by
  unfold release
  rw [h]

/-- A state at the top level in which no comment waits is where a walk from nothing goes on. -/
theorem State.resumed_nothing {base : State} (hopen : base.enclosing = [])
    (hpending : base.level.pending = none) : base.resumed {} = base := by
  obtain ⟨index, ⟨declarations, children, pending⟩, enclosing, comments, diagnostics⟩ := base
  dsimp only at hopen hpending
  subst hopen hpending
  simp [resumed, resumedLevel, resumedBlocks, Level.followedBy, Level.moved, Forest.append_nil]

theorem malformedFindings_append (setting : Setting) (xs ys : List Token) :
    malformedFindings setting (xs ++ ys) =
      malformedFindings setting xs ++ malformedFindings setting ys := by
  simp [malformedFindings]

/-- Whatever has been gathered around blocks that are left open, the finding about them is the
same. -/
theorem unclosedFindings_resumed (base : State) (setting : Setting)
    (enclosing : List OpenBlock) :
    unclosedFindings setting (base.resumedBlocks enclosing) =
      unclosedFindings setting enclosing := by
  have hlength (outer : List OpenBlock) : (base.resumedBlocks outer).length = outer.length := by
    induction outer with
    | nil => rfl
    | cons o outer ih => simp [State.resumedBlocks, ih]
  cases enclosing with
  | nil => rfl
  | cons o outer =>
    simp [State.resumedBlocks, unclosedFindings, hlength]

end Nesting

namespace Stylesheet

theorem lastLine_append (xs : List Token) {ys : List Token} (h : ys ≠ []) :
    lastLine (xs ++ ys) = lastLine ys := by
  unfold lastLine
  rw [List.getLast?_append, List.getLast?_eq_some_getLast h]
  rfl

variable {file : String} {xs : List Token}

/-- Nothing is parsed as nothing. -/
theorem parse_nil (file : String) :
    (parse file []).1.nodes = [] ∧ (parse file []).1.topLevel = [] ∧
      (parse file []).1.declarations = [] ∧ (parse file []).1.comments = [] ∧
      (parse file []).2 = [] := by
  unfold parse
  simp only [Statement.all]
  exact ⟨rfl, rfl, rfl, rfl, rfl⟩

/-- The findings of the parser: about what is never closed, from the walk, and about what is left
open. -/
theorem findings_parse (file : String) (tokens : List Token) :
    (parse file tokens).2 =
      Nesting.malformedFindings ⟨file, 0⟩ tokens ++
        (Nesting.walk ⟨file, lastLine tokens⟩ (Statement.all tokens)).diagnostics ++
        Nesting.unclosedFindings ⟨file, 0⟩
          (Nesting.walk ⟨file, lastLine tokens⟩ (Statement.all tokens)).enclosing := by
  unfold parse
  dsimp only
  rw [Nesting.State.diagnostics_release, Nesting.State.enclosing_release]
  -- neither of the two looks at the last line
  cases (Nesting.walk ⟨file, lastLine tokens⟩ (Statement.all tokens)).enclosing <;> rfl

/-- The walk over a complete row and another is the walk over the second that goes on from the walk
over the first. -/
theorem walk_append (h : Complete file xs) (ys : List Token) (lastLine : Nat) :
    Nesting.walk ⟨file, lastLine⟩ (Statement.all (xs ++ ys)) =
      (Nesting.walk ⟨file, lastLine⟩ (Statement.all xs)).resumed
        (Nesting.walk ⟨file, lastLine⟩ (Statement.all ys)) := by
  obtain ⟨-, hopen, hpending⟩ := Nesting.walk_of_complete h lastLine
  have hall : Statement.all (xs ++ ys) = Statement.all xs ++ Statement.all ys := by
    rcases h with rfl | ⟨hends, -⟩
    · simp [Statement.all]
    · exact Statement.all_append ys hends
  have hbase := Nesting.State.resumed_nothing hopen hpending
  rw [hall, Nesting.walk, List.foldl_append, ← Nesting.walk]
  nth_rewrite 1 [← hbase]
  exact Nesting.State.resumed_foldl _ {} _ _

/-- The nodes of two rows of siblings behind each other are those of the first and, moved, those of
the second. -/
theorem nodes_of_forest (s t u : Stylesheet) (count : Nat)
    (h : u.forest = s.forest.append (t.forest.moved count)) :
    u.nodes = s.nodes ++ t.nodes.map (Node.moved s.nodes.length count) ∧
      u.topLevel = s.topLevel ++ t.topLevel.map (s.nodes.length + ·) := by
  have hnumber := Forest.number_moved s.forest.size count {} 0 t.forest
  have hroots := Forest.roots_moved s.forest.size count 0 t.forest
  rw [Nat.add_zero] at hnumber hroots
  constructor
  · rw [s.length_nodes, u.nodes_eq, s.nodes_eq, t.nodes_eq, h, Forest.number_append, ← hnumber,
      Nat.zero_add]
    rfl
  · rw [s.length_nodes, topLevel, topLevel, topLevel, h, Forest.roots_append, ← hroots,
      Nat.zero_add]

end Stylesheet

/-- **Parsing is local to blocks.** Behind a complete row of tokens another row is parsed as it is
alone: nodes, declarations and comments are those of the two rows one behind the other, where those
of the second have moved by as many nodes and tokens as the first has; and the findings are those of
the two, in some order. -/
theorem parse_append (file : String) {xs : List Token} (h : Stylesheet.Complete file xs)
    (ys : List Token) :
    let first := (Stylesheet.parse file xs).1
    let second := (Stylesheet.parse file ys).1
    let whole := (Stylesheet.parse file (xs ++ ys)).1
    whole.nodes = first.nodes ++ second.nodes.map (Node.moved first.nodes.length xs.length) ∧
    whole.topLevel = first.topLevel ++ second.topLevel.map (first.nodes.length + ·) ∧
    whole.declarations =
      first.declarations ++ second.declarations.map (Declaration.moved xs.length) ∧
    whole.comments = first.comments ++ second.comments ∧
    (Stylesheet.parse file (xs ++ ys)).2.Perm
      ((Stylesheet.parse file xs).2 ++ (Stylesheet.parse file ys).2) := by
  intro first second whole
  by_cases hys : ys = []
  · obtain ⟨hnodes, htop, hdeclarations, hcomments, hfound⟩ := Stylesheet.parse_nil file
    subst hys
    simp [whole, first, second, hnodes, htop, hdeclarations, hcomments, hfound]
  -- `base` is the walk over the first row, `after` the walk over the second
  let base := Nesting.walk ⟨file, Stylesheet.lastLine xs⟩ (Statement.all xs)
  let after := Nesting.walk ⟨file, Stylesheet.lastLine ys⟩ (Statement.all ys)
  obtain ⟨-, hopen, hpending⟩ := Nesting.walk_of_complete h (Stylesheet.lastLine xs)
  have hindex : base.index = xs.length := Nesting.index_walk _ xs
  have hrelease : base.release false = base := Nesting.State.release_of_pending hpending false
  have hlast : Stylesheet.lastLine (xs ++ ys) = Stylesheet.lastLine ys :=
    Stylesheet.lastLine_append xs hys
  have hwalk : Nesting.walk ⟨file, Stylesheet.lastLine (xs ++ ys)⟩ (Statement.all (xs ++ ys)) =
      base.resumed after := by
    rw [Stylesheet.walk_append h ys, (Nesting.walk_of_complete h _).1, hlast]
  have hfirst : base.finished (Stylesheet.lastLine xs) = base.level := by
    rw [Nesting.State.finished, hrelease, hopen]
    rfl
  have hwhole : (base.resumed after).finished (Stylesheet.lastLine (xs ++ ys)) =
      (base.finished (Stylesheet.lastLine xs)).followedBy
        ((after.finished (Stylesheet.lastLine ys)).moved xs.length) := by
    rw [Nesting.State.finished_resumed, hfirst, hlast, hindex]
  have hforest : whole.forest = first.forest.append (second.forest.moved xs.length) := by
    rw [← hwalk] at hwhole
    exact congrArg Nesting.Level.children hwhole
  have hdeclarations : whole.declarations =
      first.declarations ++ second.declarations.map (Declaration.moved xs.length) := by
    rw [← hwalk] at hwhole
    exact congrArg Nesting.Level.declarations hwhole
  have hcomments : whole.comments = first.comments ++ second.comments := by
    show (Nesting.State.release _ false).comments = (base.release false).comments ++ _
    rw [hwalk, Nesting.State.resumed_release, hrelease]
    rfl
  obtain ⟨hnodes, htop⟩ := Stylesheet.nodes_of_forest first second whole xs.length hforest
  refine ⟨hnodes, htop, hdeclarations, hcomments, ?_⟩
  have hwholeFound : (Stylesheet.parse file (xs ++ ys)).2 =
      Nesting.malformedFindings ⟨file, 0⟩ (xs ++ ys) ++ (base.diagnostics ++ after.diagnostics) ++
        Nesting.unclosedFindings ⟨file, 0⟩ after.enclosing := by
    rw [Stylesheet.findings_parse, hwalk]
    exact congrArg _ (Nesting.unclosedFindings_resumed base _ after.enclosing)
  have hfirstFound : (Stylesheet.parse file xs).2 =
      Nesting.malformedFindings ⟨file, 0⟩ xs ++ base.diagnostics := by
    rw [Stylesheet.findings_parse, hopen]
    exact List.append_nil _
  have hsecondFound : (Stylesheet.parse file ys).2 =
      Nesting.malformedFindings ⟨file, 0⟩ ys ++ after.diagnostics ++
        Nesting.unclosedFindings ⟨file, 0⟩ after.enclosing := by
    exact Stylesheet.findings_parse file ys
  rw [hwholeFound, hfirstFound, hsecondFound, Nesting.malformedFindings_append]
  simp only [List.append_assoc]
  exact (List.perm_append_comm_assoc _ _ _).append_left _

/-- A stray brace and a block leave nothing behind for an at-rule that is never closed. -/
theorem parse_append_stray :
    let xs := tokenize "\x7da\x7bb:c\x7d".toList
    let ys := tokenize "@m x\x7bd:e".toList
    Stylesheet.Complete "a.css" xs ∧
    (Stylesheet.parse "a.css" (xs ++ ys)).1.nodes =
      (Stylesheet.parse "a.css" xs).1.nodes ++
        (Stylesheet.parse "a.css" ys).1.nodes.map (Node.moved 1 7) ∧
    (Stylesheet.parse "a.css" (xs ++ ys)).2.Perm
      ((Stylesheet.parse "a.css" xs).2 ++ (Stylesheet.parse "a.css" ys).2) := by
  intro xs ys
  have hends : Statement.EndsClosing xs :=
    ⟨⟨.rightBrace, ['\x7d'], ⟨6, 1, 7⟩⟩, by decide +kernel⟩
  have hcomplete : Stylesheet.Complete "a.css" xs := .inr ⟨hends, by decide +kernel⟩
  have hnodes : (Stylesheet.parse "a.css" xs).1.nodes.length = 1 := by decide +kernel
  have hcount : xs.length = 7 := by decide +kernel
  obtain ⟨hwhole, -, -, -, hfound⟩ := parse_append "a.css" hcomplete ys
  rw [hnodes, hcount] at hwhole
  exact ⟨hcomplete, hwhole, hfound⟩

end HouseStyle
