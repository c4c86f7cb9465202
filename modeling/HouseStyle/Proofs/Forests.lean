/-
HouseStyle.Proofs.Forests — laws of rows of blocks, one behind the other.

The walk over the statements adds each finished node at the end of a row (`Forest.append`). So what
a forest is known by has a law for two rows behind each other: the numbers of its nodes, how they
began, the declarations and the closing braces in it, and what holds of all its blocks.

The induction is on the first row throughout. The second row is numbered behind all nodes of the
first, which is where the size of the first comes in.
-/
import HouseStyle.Stylesheet.Forest

namespace HouseStyle

/-- How a node begins: its heading, its opening brace if it has a block, and the number of the block
that it is in. -/
structure Beginning where
  heading : Heading
  brace : Option Token
  owner : Option Nat
  deriving DecidableEq, Repr

/-- How a finished node began, inside a given block. -/
def Block.beginning (b : Block) (owner : Option Nat) : Beginning := ⟨b.heading, b.openBrace, owner⟩

namespace Forest

/-! ## 1. Two rows behind each other -/

theorem append_nil (f : Forest) : f.append .nil = f := by
  induction f with
  | nil => rfl
  | node b children siblings _ ihs => rw [append, ihs]

theorem append_assoc (f g h : Forest) : (f.append g).append h = f.append (g.append h) := by
  induction f with
  | nil => rfl
  | node b children siblings _ ihs => simp [append, ihs]

/-- The numbers of the nodes of a second row go on where those of the first one end. -/
theorem number_append (s : Scope) (index : Nat) (f g : Forest) :
    (f.append g).number s index = f.number s index ++ g.number s (index + f.size) := by
  induction f generalizing index with
  | nil => rfl
  | node b children siblings _ ihs =>
    rw [append, number, ihs, number, size, List.cons_append, List.append_assoc]
    congr 4
    omega

theorem roots_append (index : Nat) (f g : Forest) :
    (f.append g).roots index = f.roots index ++ g.roots (index + f.size) := by
  induction f generalizing index with
  | nil => rfl
  | node b children siblings _ ihs =>
    rw [append, roots, ihs, roots, size, List.cons_append]
    congr 3
    omega

/-- The forest with every block changed by `f`. -/
def map (f : Block → Block) : Forest → Forest
  | nil => nil
  | node b children siblings => node (f b) (children.map f) (siblings.map f)

@[simp] theorem size_map (f : Block → Block) (g : Forest) : (g.map f).size = g.size := by
  induction g with
  | nil => rfl
  | node b children siblings ihc ihs => simp [map, size, ihc, ihs]

@[simp] theorem map_append (f : Block → Block) (g h : Forest) :
    (g.append h).map f = (g.map f).append (h.map f) := by
  induction g with
  | nil => rfl
  | node b children siblings _ ihs => simp [append, map, ihs]

/-! ## 2. What holds of all blocks -/

def All (P : Block → Prop) : Forest → Prop
  | nil => True
  | node b children siblings => P b ∧ children.All P ∧ siblings.All P

section

variable {P : Block → Prop} {f g : Forest}

theorem All.append (hf : f.All P) (hg : g.All P) : (f.append g).All P := by
  induction f with
  | nil => exact hg
  | node b children siblings _ ihs => exact ⟨hf.1, hf.2.1, ihs hf.2.2⟩

theorem All.of_mem_number (h : f.All P) {s : Scope} {index : Nat} {n : Node}
    (hn : n ∈ f.number s index) : P n.block := by
  induction f generalizing s index with
  | nil => cases hn
  | node b children siblings ihc ihs =>
    rcases List.mem_cons.1 hn with rfl | hn
    · exact h.1
    · exact (List.mem_append.1 hn).elim (ihc h.2.1) (ihs h.2.2)

end

/-! ## 3. How nodes began -/

/-- How the nodes of a row began, each before its children, if the first of the row has number
`index` and the row lies inside a given block. -/
def outline (owner : Option Nat) (index : Nat) : Forest → List Beginning
  | nil => []
  | node b children siblings =>
    b.beginning owner ::
      (children.outline (some index) (index + 1) ++
        siblings.outline owner (index + 1 + children.size))

/-- A row of siblings begins as many nodes as it holds. -/
theorem length_outline (owner : Option Nat) (index : Nat) (f : Forest) :
    (f.outline owner index).length = f.size := by
  induction f generalizing owner index with
  | nil => rfl
  | node b children siblings ihc ihs =>
    rw [outline, List.length_cons, List.length_append, ihc, ihs, size]
    omega

theorem outline_append (owner : Option Nat) (index : Nat) (f g : Forest) :
    (f.append g).outline owner index =
      f.outline owner index ++ g.outline owner (index + f.size) := by
  induction f generalizing index with
  | nil => rfl
  | node b children siblings _ ihs =>
    rw [append, outline, ihs, outline, size, List.cons_append, List.append_assoc]
    congr 4
    omega

/-- If the owner of every number of a row is known, the numbered nodes give the outline. -/
theorem map_beginning_number {owner : Option Nat} (ownerOf : Nat → Option Nat) (s : Scope)
    (index : Nat) (f : Forest) (hroots : ∀ r ∈ f.roots index, ownerOf r = owner)
    (hchildren : ∀ n ∈ f.number s index, ∀ c ∈ n.children, ownerOf c = some n.index) :
    (f.number s index).map (fun n => n.block.beginning (ownerOf n.index)) =
      f.outline owner index := by
  induction f generalizing owner s index with
  | nil => rfl
  | node b children siblings ihc ihs =>
    rw [number] at hchildren ⊢
    rw [List.map_cons, List.map_append, outline, hroots index List.mem_cons_self]
    congr 2
    · refine ihc _ _ (hchildren _ List.mem_cons_self) fun n hn => hchildren n ?_
      exact List.mem_cons_of_mem _ (List.mem_append_left _ hn)
    · refine ihs _ _ (fun r hr => hroots r (List.mem_cons_of_mem _ hr)) fun n hn => hchildren n ?_
      exact List.mem_cons_of_mem _ (List.mem_append_right _ hn)

/-! ## 4. What is gathered in blocks -/

/-- The declarations of a row of blocks and of what is nested in them. -/
def declarations : Forest → List Declaration
  | nil => []
  | node b children siblings =>
    b.declarations ++ (children.declarations ++ siblings.declarations)

theorem declarations_append (f g : Forest) :
    (f.append g).declarations = f.declarations ++ g.declarations := by
  induction f with
  | nil => rfl
  | node b children siblings _ ihs => simp [append, declarations, ihs]

/-- The nodes of a forest have the declarations of its blocks, and no others. -/
theorem flatMap_declarations_number (s : Scope) (index : Nat) (f : Forest) :
    (f.number s index).flatMap Node.declarations = f.declarations := by
  induction f generalizing s index with
  | nil => rfl
  | node b children siblings ihc ihs =>
    rw [number, List.flatMap_cons, List.flatMap_append, ihc, ihs]
    rfl

/-- The braces that close the blocks of a row, those of inner blocks first. -/
def closers : Forest → List Token
  | nil => []
  | node b children siblings =>
    children.closers ++ (b.closeBrace.toList ++ siblings.closers)

theorem closers_append (f g : Forest) : (f.append g).closers = f.closers ++ g.closers := by
  induction f with
  | nil => rfl
  | node b children siblings _ ihs => simp [append, closers, ihs]

/-- The numbered nodes have the same closing braces, in another order. -/
theorem perm_closers (s : Scope) (index : Nat) (f : Forest) :
    ((f.number s index).filterMap (·.block.closeBrace)).Perm f.closers := by
  induction f generalizing s index with
  | nil => exact List.Perm.refl _
  | node b children siblings ihc ihs =>
    have hsplit : ((node b children siblings).number s index).filterMap (·.block.closeBrace) =
        b.closeBrace.toList ++
          ((children.number (s.inside index b) (index + 1)).filterMap (·.block.closeBrace) ++
            (siblings.number s (index + 1 + children.size)).filterMap (·.block.closeBrace)) := by
      rw [number, List.filterMap_cons, List.filterMap_append]
      cases b.closeBrace <;> rfl
    rw [hsplit, closers]
    exact (((ihc _ _).append (ihs _ _)).append_left _).trans
      (List.perm_append_comm_assoc _ _ _)

end Forest

end HouseStyle
