/-
HouseStyle.Proofs.Declared — the declarations of a stylesheet are those of its statements.

A statement makes at most one declaration, and the walk puts it into the innermost open block. What
a state has gathered so far lies in pieces, like its nodes, but here only the whole matters: each
statement adds what it declares and nothing else changes, up to order (`gathered_step`). So the
declarations of a stylesheet are those of its statements (`perm_allDeclarations`), and since each
starts at a token of its own statement and has its colon there, no two start at the same place or
share a colon.
-/
import HouseStyle.Proofs.TokenPlaces
import HouseStyle.Proofs.Trimming
import HouseStyle.Proofs.Walk
import Mathlib.Data.List.Nodup

namespace HouseStyle

/-! ## 1. What a state has gathered -/

namespace Nesting

def Level.gathered (l : Level) : List Declaration := l.declarations ++ l.children.declarations

/-- The declarations gathered around open blocks. -/
def gatheredAround : List OpenBlock → List Declaration
  | [] => []
  | o :: outer => o.outer.gathered ++ gatheredAround outer

def State.gathered (s : State) : List Declaration :=
  s.level.gathered ++ gatheredAround s.enclosing

def declared (passed : Nat) : List Statement → List Declaration
  | [] => []
  | st :: rest => (st.declaration? passed).toList ++ declared (passed + st.tokens.length) rest

theorem picked_declared (passed : Nat) (statements : List Statement) :
    Picked (fun passed st d => st.declaration? passed = d) passed statements
      (declared passed statements) := by
  induction statements generalizing passed with
  | nil => exact .nil passed
  | cons st rest ih => exact .cons rfl (ih _)

/-- Every declaration is read off one of the statements. -/
theorem exists_split_of_mem_declared {passed : Nat} {statements : List Statement} {d : Declaration}
    (h : d ∈ declared passed statements) :
    ∃ before st after, statements = before ++ st :: after ∧
      st.declaration? (passed + covered before) = some d :=
  (picked_declared passed statements).exists_split h

theorem State.gathered_release (s : State) (attached : Bool) :
    (s.release attached).gathered = s.gathered := by
  unfold release
  split <;> rfl

theorem State.gathered_addLeaf (s : State) (heading : Heading) (endLine : Nat) :
    (s.addLeaf heading endLine).gathered = s.gathered := by
  simp [gathered, addLeaf, Level.addNode, Level.gathered, Forest.declarations_append,
    Forest.declarations]

/-- A block that is closed hands its declarations to the level around it. -/
theorem gathered_close (o : OpenBlock) (inner : Level) (brace : Option Token) (endLine : Nat) :
    (o.close inner brace endLine).gathered = o.outer.gathered ++ inner.gathered := by
  simp [OpenBlock.close, Level.addNode, Level.gathered, Forest.declarations_append,
    Forest.declarations]

/-- A closing brace moves declarations from the open block into a finished one, and loses none. -/
theorem State.gathered_leave (setting : Setting) (s : State) (brace : Token) :
    (s.leave setting brace).gathered.Perm s.gathered := by
  unfold leave
  split
  · exact List.Perm.refl _
  · rename_i o outer h
    simp only [gathered, gathered_close, h, gatheredAround, List.append_assoc]
    exact List.perm_append_comm_assoc _ _ _

/-- A declaration is gathered once, whichever block it lands in. -/
theorem State.gathered_declare (s : State) (d : Declaration) :
    (s.declare d).gathered.Perm (s.gathered ++ [d]) := by
  simp only [gathered, declare, Level.gathered, List.append_assoc]
  refine List.Perm.append_left _ ?_
  exact List.perm_append_comm.trans (List.Perm.of_eq (List.append_assoc _ _ _))

/-- A statement adds its declaration to what was gathered. -/
theorem State.gathered_step (setting : Setting) (s : State) (st : Statement) :
    (s.step setting st).gathered.Perm (s.gathered ++ (st.declaration? s.index).toList) := by
  show (s.take setting st).gathered.Perm _
  have h := s.passes setting st
  generalize s.take setting st = next at h
  cases h with
  | silent pending comments begins opens closes declares =>
    rw [declares]
    exact List.Perm.of_eq (List.append_nil _).symm
  | closing brace =>
    refine (gathered_leave setting _ brace).trans (List.Perm.of_eq ?_)
    rw [gathered_release]
    exact (List.append_nil _).symm
  | opening | block =>
    exact List.Perm.of_eq ((s.gathered_release s.attaches).trans (List.append_nil _).symm)
  | leaf =>
    refine List.Perm.of_eq ?_
    rw [gathered_addLeaf, gathered_release]
    exact (List.append_nil _).symm
  | declaring tokens semicolon d declares =>
    refine (gathered_declare _ d).trans (List.Perm.of_eq ?_)
    rw [gathered_release, Statement.declaration?, declares]
    rfl

/-- A walk gathers the declarations of its statements. -/
theorem gathered_foldl (setting : Setting) (s : State) (statements : List Statement) :
    (statements.foldl (State.step setting) s).gathered.Perm
      (s.gathered ++ declared s.index statements) := by
  induction statements generalizing s with
  | nil => exact List.Perm.of_eq (List.append_nil _).symm
  | cons st rest ih =>
    have hstep := (s.gathered_step setting st).append_right
      (declared (s.index + st.tokens.length) rest)
    rw [List.append_assoc] at hstep
    exact (ih (s.step setting st)).trans hstep

/-- Closing all blocks at the end of the text keeps every declaration. -/
theorem gathered_closeAll (lastLine : Nat) (level : Level) (enclosing : List OpenBlock) :
    (closeAll lastLine level enclosing).gathered.Perm
      (level.gathered ++ gatheredAround enclosing) := by
  induction enclosing generalizing level with
  | nil => exact List.Perm.of_eq (List.append_nil _).symm
  | cons o outer ih =>
    refine (ih (o.close level none lastLine)).trans ?_
    rw [gathered_close, gatheredAround, List.append_assoc]
    exact List.perm_append_comm_assoc _ _ _

end Nesting

/-- The declarations of a stylesheet are those of its statements. -/
theorem Stylesheet.perm_allDeclarations (file : String) (tokens : List Token) :
    (parse file tokens).1.allDeclarations.Perm (Nesting.declared 0 (Statement.all tokens)) := by
  let setting : Nesting.Setting := ⟨file, lastLine tokens⟩
  let walked := Nesting.walk setting (Statement.all tokens)
  have hall : (parse file tokens).1.allDeclarations =
      (Nesting.closeAll (lastLine tokens) (walked.release false).level
        (walked.release false).enclosing).gathered := by
    rw [allDeclarations, nodes_eq, Forest.flatMap_declarations_number]
    rfl
  have hwalk : (walked.release false).gathered.Perm
      (Nesting.declared 0 (Statement.all tokens)) := by
    rw [Nesting.State.gathered_release]
    exact Nesting.gathered_foldl setting {} (Statement.all tokens)
  rw [hall]
  exact (Nesting.gathered_closeAll _ _ _).trans hwalk

/-! ## 2. Where declarations stand -/

namespace Nesting

/-- A declaration stands at a token of its statement and has its colon there. -/
theorem declaration?_eq_some {passed : Nat} {st : Statement} {d : Declaration}
    (h : st.declaration? passed = some d) :
    ∃ first ∈ st.tokens, d.line = first.line ∧ d.column = first.column ∧
      passed ≤ d.colon ∧ d.colon < passed + st.tokens.length := by
  cases st with
  | plain tokens semicolon =>
    obtain ⟨name, colon, lead, value, trail, rfl, hd⟩ := Declaration.exists_readOff h
    obtain ⟨first, hfirst, hline, hcolumn⟩ := hd.starts
    have hmem : first ∈ name := List.mem_of_head? hfirst
    refine ⟨first, by simp [Statement.tokens, hmem], hline, hcolumn, ?_, ?_⟩
    · exact hd.colon_eq ▸ Nat.le_add_right _ _
    · rw [hd.colon_eq]
      simp [Statement.tokens]
  | _ => cases h

/-- The places of the declarations are among the places of the tokens, in order. -/
theorem sublist_places_declared (passed : Nat) (statements : List Statement) :
    ((declared passed statements).map fun d => (d.line, d.column)).Sublist
      ((statements.flatMap Statement.tokens).map fun t => (t.line, t.column)) := by
  refine (picked_declared passed statements).sublist_places fun h => ?_
  obtain ⟨first, hfirst, hline, hcolumn, -⟩ := declaration?_eq_some h
  exact ⟨first, hfirst, Prod.ext hline hcolumn⟩

/-- The colons of declarations come in order. -/
theorem pairwise_colon_declared (passed : Nat) (statements : List Statement) :
    (declared passed statements).Pairwise fun d e => d.colon < e.colon := by
  refine (picked_declared passed statements).pairwise (·.colon) (·.colon + 1) fun h => ?_
  obtain ⟨-, -, -, -, hle, hlt⟩ := declaration?_eq_some h
  exact ⟨hle, hlt⟩

end Nesting

namespace Stylesheet

/-- No two declarations of a text start at the same place. -/
theorem nodup_places_declarations (file : String) (text : Text) :
    ((ofText file text).1.allDeclarations.map fun d => (d.line, d.column)).Nodup := by
  have hsub := Nesting.sublist_places_declared 0 (Statement.all (tokenize text))
  rw [Statement.tokens_all] at hsub
  exact ((perm_allDeclarations file (tokenize text)).map _).nodup_iff.2
    (hsub.nodup (Token.nodup_places text))

/-- No two declarations of a text share a colon. -/
theorem nodup_colons (file : String) (text : Text) :
    ((ofText file text).1.allDeclarations.map (·.colon)).Nodup := by
  have hpair := Nesting.pairwise_colon_declared 0 (Statement.all (tokenize text))
  refine ((perm_allDeclarations file (tokenize text)).map _).nodup_iff.2 ?_
  exact List.pairwise_map.2 (hpair.imp fun h => Nat.ne_of_lt h)

end Stylesheet

end HouseStyle
