/-
HouseStyle.Proofs.Walk — what one statement does to the state of the walk.

The walk over the statements treats comments apart from everything else: a comment is held back,
recorded or attached, and this never decides what becomes of a block or of a declaration. So each
statement first settles the comments and then does one of six things (`Passes`): nothing, or it
closes a block, opens the block of a ruleset or of an at-rule, adds an at-rule without a block, or
adds a declaration. What a statement keeps is proved once for each of the six; so every node ends in
one of three ways (`Block.Ended`).
-/
import HouseStyle.Proofs.Outline

namespace HouseStyle

namespace Statement

/-- The brace with which a statement opens a block. -/
def opener? : Statement → Option Token
  | .opening _ brace => some brace
  | .atRule _ _ ending => ending.brace?
  | _ => none

/-- The brace with which a block is closed. -/
def closer? : Statement → Option Token
  | .closing brace => some brace
  | _ => none

def declaration? (passed : Nat) : Statement → Option Declaration
  | .plain tokens _ => Declaration.ofTokens? passed tokens
  | _ => none

end Statement

namespace Nesting

/-! ## 1. Six kinds of statement -/

def State.withComments (s : State) (pending : Option Pending) (comments : List Comment) : State :=
  { s with level := { s.level with pending }, comments }

/-- What a statement makes of a state, the count of tokens apart. -/
inductive State.Passes (setting : Setting) (s : State) : Statement → State → Prop where
  | silent {st : Statement} (pending : Option Pending) (comments : List Comment)
      (begins : s.beginning? st = none) (opens : st.opener? = none) (closes : st.closer? = none)
      (declares : st.declaration? s.index = none) :
      Passes setting s st (s.withComments pending comments)
  | closing (brace : Token) :
      Passes setting s (.closing brace) ((s.release false).leave setting brace)
  | opening (prelude : List Token) (brace : Token) :
      Passes setting s (.opening prelude brace)
        (((s.release s.attaches).report (selectorFindings setting prelude brace)).enter
          (rulesetHeading prelude brace s.documentation) brace)
  | block (keyword : Token) (prelude : List Token) (brace : Token) :
      Passes setting s (.atRule keyword prelude (.opens brace))
        ((s.release s.attaches).enter
          (atRuleHeading s.index keyword prelude s.documentation) brace)
  | leaf (keyword : Token) (prelude : List Token) (ending : AtRuleEnd) (endLine : Nat)
      (bare : ending.brace? = none) :
      Passes setting s (.atRule keyword prelude ending)
        ((s.release s.attaches).addLeaf
          (atRuleHeading s.index keyword prelude s.documentation) endLine)
  | declaring (tokens : List Token) (semicolon : Option Token) (d : Declaration)
      (declares : Declaration.ofTokens? s.index tokens = some d) :
      Passes setting s (.plain tokens semicolon) ((s.release false).declare d)

theorem State.release_eq_withComments (s : State) (attached : Bool) :
    ∃ pending comments, s.release attached = s.withComments pending comments := by
  unfold release
  split
  · exact ⟨s.level.pending, s.comments, rfl⟩
  · exact ⟨none, _, rfl⟩

theorem State.index_release (s : State) (attached : Bool) :
    (s.release attached).index = s.index := by
  unfold release
  split <;> rfl

/-- A walk counts the tokens of the statements that it passes. -/
theorem index_foldl (setting : Setting) (s : State) (statements : List Statement) :
    (statements.foldl (State.step setting) s).index =
      s.index + (statements.flatMap Statement.tokens).length := by
  induction statements generalizing s with
  | nil => rfl
  | cons st rest ih =>
    rw [List.foldl_cons, ih, List.flatMap_cons, List.length_append, ← Nat.add_assoc]
    rfl

/-- Everything that one statement can do to a state, case by case. -/
theorem State.passes (setting : Setting) (s : State) (st : Statement) :
    s.Passes setting st (s.take setting st) := by
  cases st with
  | comment t =>
    obtain ⟨pending, comments, h⟩ := s.release_eq_withComments false
    have htake : s.take setting (.comment t) = s.withComments (some { token := t }) comments := by
      unfold take
      dsimp only
      rw [h]
      rfl
    rw [htake]
    exact .silent _ _ rfl rfl rfl rfl
  | lineBreak t => exact .silent _ s.comments rfl rfl rfl rfl
  | filler t => exact .silent s.level.pending s.comments rfl rfl rfl rfl
  | closing brace => exact .closing brace
  | opening prelude brace => exact .opening prelude brace
  | atRule keyword prelude ending =>
    cases ending with
    | opens brace => exact .block keyword prelude brace
    | semicolon t => exact .leaf keyword prelude _ t.line rfl
    | closedAt line => exact .leaf keyword prelude _ line rfl
    | endOfText => exact .leaf keyword prelude _ setting.lastLine rfl
  | plain tokens semicolon =>
    unfold take
    dsimp only
    rw [index_release]
    split
    · rename_i d h
      exact .declaring tokens semicolon d h
    · rename_i h
      obtain ⟨pending, comments, he⟩ := s.release_eq_withComments false
      rw [he]
      exact .silent _ _ rfl rfl rfl h

/-! ## 2. Findings -/

/-- The finding about a closing brace without an open block. -/
def strayFinding (setting : Setting) (brace : Token) : Diagnostic :=
  setting.finding .unbalancedBraces brace "Unexpected '\x7d' with no matching '\x7b'."
    "Remove the extra '\x7d'."

/-- What a statement adds to the findings in a state. -/
def State.findingsAt (setting : Setting) (s : State) : Statement → List Diagnostic
  | .opening prelude brace => selectorFindings setting prelude brace
  | .closing brace => if s.enclosing.isEmpty then [strayFinding setting brace] else []
  | _ => []

@[simp] theorem State.diagnostics_release (s : State) (attached : Bool) :
    (s.release attached).diagnostics = s.diagnostics := by
  unfold release
  split <;> rfl

/-- A closing brace is reported exactly if no block is open. -/
theorem State.diagnostics_leave (setting : Setting) (s : State) (brace : Token) :
    (s.leave setting brace).diagnostics =
      s.diagnostics ++ s.findingsAt setting (.closing brace) := by
  unfold leave findingsAt
  split
  · rename_i h
    rw [h]
    rfl
  · rename_i o outer h
    simp [h]

/-- A statement reports what is wrong with its selector list, or that it closes nothing. -/
theorem State.diagnostics_step (setting : Setting) (s : State) (st : Statement) :
    (s.step setting st).diagnostics = s.diagnostics ++ s.findingsAt setting st := by
  show (s.take setting st).diagnostics = _
  have h := s.passes setting st
  generalize s.take setting st = next at h
  cases h with
  | silent pending comments begins opens closes =>
    have hnone : s.findingsAt setting st = [] := by
      cases st with
      | closing brace => cases closes
      | opening prelude brace => cases opens
      | _ => rfl
    rw [hnone]
    exact (List.append_nil _).symm
  | closing brace =>
    rw [diagnostics_leave, diagnostics_release, findingsAt, findingsAt, enclosing_release]
  | opening prelude brace =>
    show (s.release s.attaches).diagnostics ++ _ = _
    rw [diagnostics_release]
    rfl
  | block => exact (s.diagnostics_release _).trans (List.append_nil _).symm
  | leaf => exact (s.diagnostics_release _).trans (List.append_nil _).symm
  | declaring => exact (s.diagnostics_release _).trans (List.append_nil _).symm

/-- What a walk reports it reports at one of its statements. -/
theorem exists_findingsAt_of_mem_walk {setting : Setting} {statements : List Statement}
    {d : Diagnostic} (h : d ∈ (walk setting statements).diagnostics) :
    ∃ st ∈ statements, ∃ s : State, d ∈ s.findingsAt setting st := by
  let Accounted (s : State) : Prop :=
    ∀ e ∈ s.diagnostics, ∃ st ∈ statements, ∃ s' : State, e ∈ s'.findingsAt setting st
  have hwalk : Accounted (walk setting statements) := by
    refine List.foldlRecOn statements (State.step setting) (fun e he => nomatch he) ?_
    intro s hs st hst e he
    rw [State.diagnostics_step] at he
    exact (List.mem_append.1 he).elim (hs e) fun he => ⟨st, hst, s, he⟩
  exact hwalk d h

end Nesting

/-! ## 3. How blocks end -/

/-- How a node ends: without a block, with its closing brace, or with the text. -/
inductive Block.Ended (lastLine : Nat) : Block → Prop where
  | leaf (heading : Heading) (endLine : Nat) : Ended lastLine { heading, endLine }
  | closed (heading : Heading) (opening closing : Token) (declarations : List Declaration) :
      Ended lastLine { heading, openBrace := some opening, closeBrace := some closing
                       endLine := closing.line, declarations }
  | unclosed (heading : Heading) (opening : Token) (declarations : List Declaration) :
      Ended lastLine { heading, openBrace := some opening, endLine := lastLine, declarations }

/-- A block ends on the line of the brace that closes it. -/
theorem Block.Ended.endLine_eq {lastLine : Nat} {b : Block} (h : b.Ended lastLine) {brace : Token}
    (hbrace : b.closeBrace = some brace) : b.endLine = brace.line := by
  cases h with
  | closed => exact congrArg Token.line (Option.some.inj hbrace)
  | leaf => cases hbrace
  | unclosed => cases hbrace

/-! ## 4. What holds of finished nodes -/

namespace Nesting

variable {P : Block → Prop} {lastLine : Nat}

/-- What holds of every node that the walk finishes: of one without a block, and of one whose block
a brace closes. -/
structure HoldsOfFinished (P : Block → Prop) : Prop where
  leaf : ∀ heading endLine, P { heading, endLine }
  closed : ∀ heading opening closing declarations,
    P { heading, openBrace := some opening, closeBrace := some closing, endLine := closing.line
        declarations }

/-- Every node that a state has finished is such. -/
structure State.All (P : Block → Prop) (s : State) : Prop where
  level : s.level.children.All P
  around : ∀ o ∈ s.enclosing, o.outer.children.All P

variable {s : State}

theorem State.All.release (h : s.All P) (attached : Bool) : (s.release attached).All P := by
  unfold State.release
  split
  · exact h
  · exact ⟨h.level, h.around⟩

theorem State.All.enter (h : s.All P) (heading : Heading) (brace : Token) :
    (s.enter heading brace).All P := by
  refine ⟨trivial, fun o ho => ?_⟩
  rcases List.mem_cons.1 ho with rfl | ho
  · exact h.level
  · exact h.around o ho

theorem State.All.addLeaf (hP : HoldsOfFinished P) (h : s.All P) (heading : Heading)
    (endLine : Nat) : (s.addLeaf heading endLine).All P :=
  ⟨h.level.append ⟨hP.leaf _ _, trivial, trivial⟩, h.around⟩

/-- A closing brace finishes the innermost block, of which the predicate is asked. -/
theorem State.All.leave (hP : HoldsOfFinished P) (h : s.All P) (setting : Setting)
    (brace : Token) : (s.leave setting brace).All P := by
  unfold State.leave
  split
  · exact ⟨h.level, h.around⟩
  · rename_i o outer henclosing
    have ho : o ∈ s.enclosing := by simp [henclosing]
    refine ⟨(h.around o ho).append ⟨hP.closed _ _ _ _, h.level, trivial⟩, fun o' ho' => ?_⟩
    exact h.around o' (by simp [henclosing, show o' ∈ outer from ho'])

/-- No statement finishes a node of another kind. -/
theorem State.All.step (hP : HoldsOfFinished P) (h : s.All P) (setting : Setting)
    (st : Statement) : (s.step setting st).All P := by
  suffices htake : (s.take setting st).All P from ⟨htake.level, htake.around⟩
  have hpass := s.passes setting st
  generalize s.take setting st = next at hpass
  cases hpass with
  | silent => exact ⟨h.level, h.around⟩
  | closing brace => exact (h.release false).leave hP setting brace
  | opening prelude brace =>
    have hr := h.release s.attaches
    have hreport : ((s.release s.attaches).report
        (selectorFindings setting prelude brace)).All P := ⟨hr.level, hr.around⟩
    exact hreport.enter _ brace
  | block keyword prelude brace => exact (h.release s.attaches).enter _ brace
  | leaf => exact (h.release s.attaches).addLeaf hP _ _
  | declaring =>
    have hr := h.release false
    exact ⟨hr.level, hr.around⟩

/-- What holds of every node that the walk finishes holds of all nodes of its last state. -/
theorem all_walk (hP : HoldsOfFinished P) (setting : Setting) (statements : List Statement) :
    (walk setting statements).All P :=
  List.foldlRecOn statements (State.step setting) ⟨trivial, by simp⟩
    fun _ h st _ => h.step hP setting st

/-- Blocks that are still open at the end of the text end with it. -/
theorem all_closeAll (hP : ∀ heading opening declarations,
      P { heading, openBrace := some opening, endLine := lastLine, declarations })
    {level : Level} {enclosing : List OpenBlock} (hlevel : level.children.All P)
    (haround : ∀ o ∈ enclosing, o.outer.children.All P) :
    (closeAll lastLine level enclosing).children.All P := by
  induction enclosing generalizing level with
  | nil => exact hlevel
  | cons o outer ih =>
    refine ih ?_ fun o' ho' => haround o' (List.mem_cons_of_mem _ ho')
    exact (haround o List.mem_cons_self).append ⟨hP _ _ _, hlevel, trivial⟩

end Nesting

/-- Every node of a text ends without a block, with its closing brace or with the text. -/
theorem Stylesheet.ended_of_mem_nodes {file : String} {tokens : List Token} {n : Node}
    (hn : n ∈ (parse file tokens).1.nodes) : n.block.Ended (lastLine tokens) := by
  rw [nodes_eq] at hn
  have h : ((Nesting.walk ⟨file, lastLine tokens⟩ (Statement.all tokens)).release false).All
      (Block.Ended (lastLine tokens)) :=
    (Nesting.all_walk ⟨.leaf, .closed⟩ _ _).release false
  exact (Nesting.all_closeAll .unclosed h.level h.around).of_mem_number hn

end HouseStyle
