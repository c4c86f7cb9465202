/-
HouseStyle.Proofs.Outline — which statements begin a node, and inside which block.

The outline of a text (`Nesting.outline`) is found with a stack of numbers: a statement that begins
a node takes the next number and belongs to the block on top of the stack; if it has a brace it goes
on top itself, and a closing brace takes the top away, if there is one. The stylesheet of the text
has the same nodes with the same numbers and the same owners (`nodes_preorder`).

The walk that builds the stylesheet keeps no numbers. It holds its nodes in pieces: those at the
innermost level, and for each open block those gathered around it before it was opened. Read from
the outside in, the pieces list the nodes in the order in which they were begun (`State.begun`), so
the number of an open block is the length of what stands before it. One statement adds at most one
node, at the end of that list (`begun_step`), whatever it does to the levels: opening a block moves
the list to an outer level, closing one moves it back, a stray brace leaves it alone. So nothing is
lost when blocks are closed by braces, or at the end of the text.
-/
import HouseStyle.Proofs.Forests
import HouseStyle.Proofs.Picked
import HouseStyle.Proofs.Preorder

namespace HouseStyle

/-! ## 1. Outlines -/

/-- The beginning without the comment that documents it. -/
def Beginning.plain (b : Beginning) : Beginning := { b with heading.comment := none }

def AtRuleEnd.brace? : AtRuleEnd → Option Token
  | .opens brace => some brace
  | _ => none

namespace Nesting

/-- The node that a statement begins behind `passed` tokens and inside a given block; without its
comment. -/
def beginning? (passed : Nat) (owner : Option Nat) : Statement → Option Beginning
  | .opening prelude brace => some ⟨rulesetHeading prelude brace none, some brace, owner⟩
  | .atRule keyword prelude ending =>
    some ⟨atRuleHeading passed keyword prelude none, ending.brace?, owner⟩
  | _ => none

/-- The numbers of the open blocks, innermost first, behind a statement, where `count` nodes were
begun before it. -/
def openAfter (count : Nat) (opened : List Nat) : Statement → List Nat
  | .opening _ _ => count :: opened
  | .atRule _ _ (.opens _) => count :: opened
  | .closing _ => opened.tail
  | _ => opened

/-- The nodes that a row of statements begins, behind `passed` tokens and `count` nodes and inside
the blocks with the given numbers, innermost first. -/
def outline (passed count : Nat) (opened : List Nat) : List Statement → List Beginning
  | [] => []
  | st :: rest =>
    let begun := (beginning? passed opened.head? st).toList
    begun ++
      outline (passed + st.tokens.length) (count + begun.length) (openAfter count opened st) rest

theorem picked_outline (passed count : Nat) (opened : List Nat) (statements : List Statement) :
    Picked (fun passed st b => ∃ owner, beginning? passed owner st = b) passed statements
      (outline passed count opened statements) := by
  induction statements generalizing passed count opened with
  | nil => exact .nil passed
  | cons st rest ih => exact .cons ⟨opened.head?, rfl⟩ (ih _ _ _)

/-- Every node that a row begins is begun by one of its statements. -/
theorem exists_split_of_mem_outline {passed count : Nat} {opened : List Nat}
    {statements : List Statement} {b : Beginning}
    (h : b ∈ outline passed count opened statements) :
    ∃ before st after, statements = before ++ st :: after ∧
      ∃ owner, beginning? (passed + covered before) owner st = some b :=
  (picked_outline passed count opened statements).exists_split h

end Nesting

/-! ## 2. What a state has begun -/

namespace Nesting

/-- How many nodes were begun up to the innermost open block, that block included. -/
def countAround : List OpenBlock → Nat
  | [] => 0
  | o :: outer => countAround outer + o.outer.children.size + 1

def numbers : List OpenBlock → List Nat
  | [] => []
  | o :: outer => (countAround outer + o.outer.children.size) :: numbers outer

/-- The nodes that were begun up to the innermost open block, that block included. -/
def begunAround : List OpenBlock → List Beginning
  | [] => []
  | o :: outer =>
    begunAround outer ++
      (o.outer.children.outline (numbers outer).head? (countAround outer) ++
        [⟨o.heading, some o.brace, (numbers outer).head?⟩])

/-- The nodes begun up to the innermost open block are those counted there. -/
theorem length_begunAround (enclosing : List OpenBlock) :
    (begunAround enclosing).length = countAround enclosing := by
  induction enclosing with
  | nil => rfl
  | cons o outer ih =>
    rw [begunAround, List.length_append, List.length_append, ih, Forest.length_outline, countAround]
    rfl

/-- The nodes of a level that lies inside open blocks. -/
def begunAt (level : Level) (enclosing : List OpenBlock) : List Beginning :=
  level.children.outline (numbers enclosing).head? (countAround enclosing)

/-- The nodes that were begun so far, in order. -/
def State.begun (s : State) : List Beginning :=
  begunAround s.enclosing ++ begunAt s.level s.enclosing

/-- The node that a statement begins in a state. -/
def State.beginning? (s : State) : Statement → Option Beginning
  | .opening prelude brace =>
    some ⟨rulesetHeading prelude brace s.documentation, some brace, (numbers s.enclosing).head?⟩
  | .atRule keyword prelude ending =>
    some ⟨atRuleHeading s.index keyword prelude s.documentation, ending.brace?,
      (numbers s.enclosing).head?⟩
  | _ => none

/-- The node that a statement begins is the same in the walk and in the run over statements,
comments apart. -/
theorem State.plain_beginning? (s : State) (st : Statement) :
    (s.beginning? st).map Beginning.plain =
      Nesting.beginning? s.index (numbers s.enclosing).head? st := by
  cases st <;> rfl

@[simp] theorem State.begun_release (s : State) (attached : Bool) :
    (s.release attached).begun = s.begun := by
  unfold release
  split <;> rfl

@[simp] theorem State.enclosing_release (s : State) (attached : Bool) :
    (s.release attached).enclosing = s.enclosing := by
  unfold release
  split <;> rfl

@[simp] theorem State.begun_report (s : State) (ds : List Diagnostic) :
    (s.report ds).begun = s.begun := rfl

@[simp] theorem State.enclosing_report (s : State) (ds : List Diagnostic) :
    (s.report ds).enclosing = s.enclosing := rfl

/-- A finished node stands behind what its level has begun, with its children behind it. -/
theorem begunAt_addNode (l : Level) (b : Block) (children : Forest) (enclosing : List OpenBlock) :
    begunAt (l.addNode b children) enclosing =
      begunAt l enclosing ++
        b.beginning (numbers enclosing).head? ::
          children.outline (some (countAround enclosing + l.children.size))
            (countAround enclosing + l.children.size + 1) := by
  simp [begunAt, Level.addNode, Forest.outline_append, Forest.outline]

@[simp] theorem State.begun_enter (s : State) (heading : Heading) (brace : Token) :
    (s.enter heading brace).begun =
      s.begun ++ [⟨heading, some brace, (numbers s.enclosing).head?⟩] := by
  simp [begun, begunAt, enter, begunAround, Forest.outline]

@[simp] theorem State.begun_addLeaf (s : State) (heading : Heading) (endLine : Nat) :
    (s.addLeaf heading endLine).begun =
      s.begun ++ [⟨heading, none, (numbers s.enclosing).head?⟩] := by
  rw [begun, addLeaf, begunAt_addNode, ← List.append_assoc]
  rfl

/-- Closing a block keeps what was begun, inside it and around it. -/
theorem begun_close (o : OpenBlock) (outer : List OpenBlock) (inner : Level)
    (brace : Option Token) (endLine : Nat) :
    begunAround outer ++ begunAt (o.close inner brace endLine) outer =
      begunAround (o :: outer) ++ begunAt inner (o :: outer) := by
  rw [OpenBlock.close, begunAt_addNode, begunAround]
  simp [begunAt, Block.beginning, numbers, countAround]

@[simp] theorem State.begun_leave (setting : Setting) (s : State) (brace : Token) :
    (s.leave setting brace).begun = s.begun := by
  unfold leave
  split
  · rfl
  · rename_i o outer h
    rw [begun, begun_close, begun, h]

/-! ## 3. One statement, and all of them -/

/-- A statement begins at most one node, behind all others and inside the innermost open block. -/
theorem State.begun_step (setting : Setting) (s : State) (st : Statement) :
    (s.step setting st).begun = s.begun ++ (s.beginning? st).toList := by
  show (s.take setting st).begun = _
  cases st with
  | comment t =>
    show (s.release false).begun = _
    rw [begun_release]
    exact (List.append_nil _).symm
  | lineBreak t => exact (List.append_nil _).symm
  | filler t => exact (List.append_nil _).symm
  | closing brace =>
    show ((s.release false).leave setting brace).begun = _
    rw [begun_leave, begun_release]
    exact (List.append_nil _).symm
  | opening prelude brace =>
    show (((s.release s.attaches).report _).enter _ brace).begun = _
    rw [begun_enter, begun_report, enclosing_report, begun_release, enclosing_release]
    rfl
  | atRule keyword prelude ending =>
    cases ending with
    | opens brace =>
      show ((s.release s.attaches).enter _ brace).begun = _
      rw [begun_enter, begun_release, enclosing_release]
      rfl
    | _ =>
      show ((s.release s.attaches).addLeaf _ _).begun = _
      rw [begun_addLeaf, begun_release, enclosing_release]
      rfl
  | plain tokens semicolon =>
    have hplain : (s.take setting (.plain tokens semicolon)).begun = (s.release false).begun := by
      unfold take
      dsimp only
      split <;> rfl
    rw [hplain, begun_release]
    exact (List.append_nil _).symm

/-- A new node gets the number of nodes begun so far. -/
theorem State.length_begun (s : State) :
    s.begun.length = countAround s.enclosing + s.level.children.size := by
  rw [begun, List.length_append, length_begunAround, begunAt, Forest.length_outline]

/-- A block that is opened goes on top of the stack, under the next number. -/
theorem State.numbers_enter (s : State) (heading : Heading) (brace : Token) :
    numbers (s.enter heading brace).enclosing = s.begun.length :: numbers s.enclosing := by
  rw [length_begun]
  rfl

/-- A closing brace takes the innermost block off the stack. -/
theorem State.numbers_leave (setting : Setting) (s : State) (brace : Token) :
    numbers (s.leave setting brace).enclosing = (numbers s.enclosing).tail := by
  unfold leave
  split
  · rename_i h
    show numbers s.enclosing = _
    rw [h]
    rfl
  · rename_i o outer h
    rw [h]
    rfl

/-- A statement does to the open blocks what it does to their numbers. -/
theorem State.numbers_step (setting : Setting) (s : State) (st : Statement) :
    numbers (s.step setting st).enclosing =
      openAfter s.begun.length (numbers s.enclosing) st := by
  show numbers (s.take setting st).enclosing = _
  cases st with
  | comment t => exact congrArg numbers (s.enclosing_release false)
  | lineBreak t => rfl
  | filler t => rfl
  | closing brace =>
    show numbers ((s.release false).leave setting brace).enclosing = _
    rw [numbers_leave, enclosing_release]
    rfl
  | opening prelude brace =>
    show numbers (((s.release s.attaches).report _).enter _ brace).enclosing = _
    rw [numbers_enter, begun_report, enclosing_report, begun_release, enclosing_release]
    rfl
  | atRule keyword prelude ending =>
    cases ending with
    | opens brace =>
      show numbers ((s.release s.attaches).enter _ brace).enclosing = _
      rw [numbers_enter, begun_release, enclosing_release]
      rfl
    | _ => exact congrArg numbers (s.enclosing_release s.attaches)
  | plain tokens semicolon =>
    have hplain : (s.take setting (.plain tokens semicolon)).enclosing =
        (s.release false).enclosing := by
      unfold take
      dsimp only
      split <;> rfl
    rw [hplain, enclosing_release]
    rfl

/-- A walk goes on behind what was begun, inside the blocks that are open. -/
theorem begun_foldl (setting : Setting) (s : State) (statements : List Statement) :
    (statements.foldl (State.step setting) s).begun.map Beginning.plain =
      s.begun.map Beginning.plain ++
        outline s.index s.begun.length (numbers s.enclosing) statements := by
  induction statements generalizing s with
  | nil => exact (List.append_nil _).symm
  | cons st rest ih =>
    have hindex : (s.step setting st).index = s.index + st.tokens.length := rfl
    have hbegun : (s.beginning? st).toList.map Beginning.plain =
        (beginning? s.index (numbers s.enclosing).head? st).toList := by
      rw [← Option.toList_map, State.plain_beginning?]
    rw [List.foldl_cons, ih, State.numbers_step, State.begun_step, hindex, outline, ← hbegun]
    simp

/-- The walk begins the nodes of the outline. -/
theorem begun_walk (setting : Setting) (statements : List Statement) :
    (walk setting statements).begun.map Beginning.plain = outline 0 0 [] statements :=
  begun_foldl setting {} statements

/-- Closing all blocks at the end of the text keeps what was begun. -/
theorem begun_closeAll (lastLine : Nat) (level : Level) (enclosing : List OpenBlock) :
    begunAt (closeAll lastLine level enclosing) [] =
      begunAround enclosing ++ begunAt level enclosing := by
  induction enclosing generalizing level with
  | nil => rfl
  | cons o outer ih => rw [closeAll, ih, begun_close]

end Nesting

/-! ## 4. The nodes of a stylesheet -/

namespace Stylesheet

/-- The nodes of a stylesheet began as its forest says. -/
theorem map_beginning_nodes (s : Stylesheet) :
    s.nodes.map (fun n => n.block.beginning (s.ownerOf? n.index)) = s.forest.outline none 0 := by
  have hnodes := s.nodes_eq
  have h := Forest.map_beginning_number s.ownerOf? {} 0 s.forest
    (fun r hr => ownerOf?_topLevel hr) (fun n hn c hc => ownerOf?_child (hnodes ▸ hn) hc)
  rw [← hnodes] at h
  exact h

/-- The nodes of a stylesheet are those that the walk has begun, in order. -/
theorem map_beginning_parse (file : String) (tokens : List Token) :
    let s := (parse file tokens).1
    s.nodes.map (fun n => n.block.beginning (s.ownerOf? n.index)) =
      (Nesting.walk ⟨file, lastLine tokens⟩ (Statement.all tokens)).begun := by
  intro s
  rw [map_beginning_nodes]
  exact (Nesting.begun_closeAll _ _ _).trans (Nesting.State.begun_release _ false)

/-- The nodes of a stylesheet are those of the outline of its statements. -/
theorem outline_parse (file : String) (tokens : List Token) :
    let s := (parse file tokens).1
    s.nodes.map (fun n => (n.block.beginning (s.ownerOf? n.index)).plain) =
      Nesting.outline 0 0 [] (Statement.all tokens) := by
  intro s
  have hsplit : s.nodes.map (fun n => (n.block.beginning (s.ownerOf? n.index)).plain) =
      (s.nodes.map fun n => n.block.beginning (s.ownerOf? n.index)).map Beginning.plain := by
    rw [List.map_map]
    rfl
  rw [hsplit, map_beginning_parse, ← Nesting.begun_walk ⟨file, lastLine tokens⟩]

end Stylesheet

/-- **The nodes of a text are a forest in preorder**, whatever the text is. The number of a node is
its place in the list; the one depth-first walk from the top level visits the nodes in the order of
their numbers; every number is in one row of siblings, once; rows increase, and children are
numbered behind their node. The nodes and their owners are those of the outline of the text: one
node for each statement that begins one, in order, inside the innermost block that is open there. -/
theorem nodes_preorder (file : String) (text : Text) :
    let s := (Stylesheet.ofText file text).1
    s.nodes.map (·.index) = List.range s.nodes.length ∧
    (∀ visited, Visits s.nodes s.topLevel visited ↔ visited = List.range s.nodes.length) ∧
    s.rows.flatten.Perm (List.range s.nodes.length) ∧
    (∀ row ∈ s.rows, row.Pairwise (· < ·)) ∧
    (∀ n ∈ s.nodes, ∀ c ∈ n.children, n.index < c) ∧
    s.nodes.map (fun n => (n.block.beginning (s.ownerOf? n.index)).plain) =
      Nesting.outline 0 0 [] (Statement.all (tokenize text)) := by
  intro s
  refine ⟨s.map_index_nodes, fun visited => ⟨fun h => h.unique s.visits_topLevel, ?_⟩,
    s.perm_rows, fun row h => Stylesheet.pairwise_of_mem_rows h,
    fun n hn c hc => Stylesheet.lt_of_mem_children hn hc,
    Stylesheet.outline_parse file (tokenize text)⟩
  rintro rfl
  exact s.visits_topLevel

end HouseStyle
