/-
HouseStyle.Proofs.Extents — where the nodes of a stylesheet lie among its tokens.

The extent of a node runs from the first token of its statement to the brace that closes its block,
to the end of the text if none does, or to the end of its statement if it has no block. It is read
off the statements by matching braces, without a stylesheet: going through the statements from the
back, the closing braces that are still to be used are kept in a list, a closing brace is put in
front of it and an opening one takes the first (`Nesting.blockEnds`, `Nesting.extents`).

The stylesheet that the walk builds lies where the extents say (`Stylesheet.lies_parse`): every node
has its place, its braces and its prelude there, its children and declarations lie inside it,
siblings lie one behind the other, and the declarations of one owner too, apart from its children
(`Forest.Lies`).

## How the proof goes

The extents are fixed before the walk begins. In front of every statement the innermost level and
the levels around the open blocks lie between the braces they should lie between, and the open
blocks are closed by the braces that `blockEnds` lists for what is still to come
(`Nesting.State.Stands`). What a statement does to the levels keeps this: opening a block starts an
empty level behind the brace, closing one puts a finished node behind the level around it.
-/
import HouseStyle.Proofs.Addresses
import HouseStyle.Proofs.Braces

namespace HouseStyle

/-! ## 1. Extents -/

/-- Where a node lies: the number of the first token of its statement, what lies between its braces,
and the number behind its last token. The inside of a node without a block is empty and lies at its
end. -/
structure Extent where
  start : Nat
  inside : Span
  stop : Nat
  deriving DecidableEq, Repr

/-- The extent of a block that the first of the given closing braces closes, or else the end of the
text, behind `total` tokens. -/
def Extent.ofBlock (total start inside : Nat) : List Nat → Extent
  | [] => ⟨start, ⟨inside, total⟩, total⟩
  | close :: _ => ⟨start, ⟨inside, close⟩, close + 1⟩

@[simp] theorem Extent.start_ofBlock (total start inside : Nat) (ends : List Nat) :
    (ofBlock total start inside ends).start = start := by
  cases ends <;> rfl

@[simp] theorem Extent.inside_start_ofBlock (total start inside : Nat) (ends : List Nat) :
    (ofBlock total start inside ends).inside.start = inside := by
  cases ends <;> rfl

namespace Nesting

/-- The numbers of the braces that close the blocks which are open in front of a row of statements,
from the inside out, as far as they are closed. -/
def blockEnds (passed : Nat) : List Statement → List Nat
  | [] => []
  | st :: rest =>
    let behind := blockEnds (passed + st.tokens.length) rest
    if st.closer?.isSome then passed :: behind
    else if st.opener?.isSome then behind.tail
    else behind

/-- The extent of the node that a statement begins, given the statements behind it. -/
def extent? (total passed : Nat) (rest : List Statement) (st : Statement) : Option Extent :=
  let behind := passed + st.tokens.length
  match st with
  | .opening _ _ | .atRule _ _ (.opens _) =>
    some (Extent.ofBlock total passed behind (blockEnds behind rest))
  | .atRule _ _ _ => some ⟨passed, ⟨behind, behind⟩, behind⟩
  | _ => none

def extents (total passed : Nat) : List Statement → List Extent
  | [] => []
  | st :: rest =>
    (extent? total passed rest st).toList ++ extents total (passed + st.tokens.length) rest

end Nesting

/-- The extents of the nodes of a stylesheet, in order of their numbers. -/
def Stylesheet.extents (s : Stylesheet) : List Extent :=
  Nesting.extents s.tokens.length 0 (Statement.all s.tokens)

/-! ## 2. What lies where -/

/-- The declaration lies here, from the first token of its statement to the end of its value. -/
structure Declaration.LiesAt (tokens : List Token) (d : Declaration) (own : Span) : Prop where
  place : ∃ t, tokens[own.start]? = some t ∧ d.line = t.line ∧ d.column = t.column
  start_lt : own.start < d.colon
  colon_lt : d.colon < d.valueSpan.start
  value_le : d.valueSpan.start ≤ d.valueSpan.stop
  stop_eq : own.stop = d.valueSpan.stop

/-- What stands in front of a block, or makes up a node without one, lies here. -/
structure Heading.LiesAt (tokens : List Token) (h : Heading) (e : Extent) : Prop where
  place : ∃ i t, tokens[i]? = some t ∧ e.start ≤ i ∧ i < e.inside.start ∧
    h.line = t.line ∧ h.column = t.column
  prelude : ∀ span, Nesting.headingSpan? h = some span →
    e.start < span.start ∧ span.start ≤ span.stop ∧ span.stop ≤ e.inside.start

/-- The node lies here, what is nested in it apart: its braces stand around its inside, which ends
with the text if the block is never closed, and it ends on the line of a token behind its heading or
with the text. -/
structure Block.LiesAt (tokens : List Token) (b : Block) (e : Extent) : Prop where
  heading : b.heading.LiesAt tokens e
  opening : ∀ brace, b.openBrace = some brace → tokens[e.inside.start - 1]? = some brace
  closing : ∀ brace, b.closeBrace = some brace →
    tokens[e.inside.stop]? = some brace ∧ e.stop = e.inside.stop + 1
  unclosed : b.openBrace.isSome → b.closeBrace = none →
    e.inside.stop = tokens.length ∧ e.stop = tokens.length
  bare : b.openBrace = none → b.closeBrace = none ∧ e.inside = ⟨e.stop, e.stop⟩
  start_le_inside : e.inside.start ≤ e.inside.stop
  inside_le_stop : e.inside.stop ≤ e.stop
  endLine : b.endLine = Stylesheet.lastLine tokens ∨
    ∃ i t, tokens[i]? = some t ∧ e.inside.start ≤ i + 1 ∧ b.endLine = t.line

theorem Block.LiesAt.start_lt {tokens : List Token} {b : Block} {e : Extent}
    (h : b.LiesAt tokens e) : e.start < e.inside.start := by
  obtain ⟨i, t, -, hle, hlt, -⟩ := h.heading.place
  exact Nat.lt_of_le_of_lt hle hlt

section

variable (tokens : List Token) (extents : List Extent)

/-- The declarations of one owner lie in a span, one behind the other and apart from its children,
whose numbers are given. -/
structure Declared (row : List Nat) (ds : List Declaration) (span : Span) : Prop where
  within : ∀ d ∈ ds, ∃ own, d.LiesAt tokens own ∧ span.start ≤ own.start ∧ own.stop ≤ span.stop ∧
    ∀ r ∈ row, ∀ e, extents[r]? = some e → own.stop ≤ e.start ∨ e.stop ≤ own.start
  ordered : ds.Pairwise fun d d' => d.colon < d'.colon ∧ d.valueSpan.stop ≤ d'.colon

/-- A row of siblings, the first of which has a given number, lies between two numbers: each where
its extent says, with what is nested in it inside. -/
def Forest.Lies (index lo hi : Nat) : Forest → Prop
  | .nil => lo ≤ hi
  | .node b children siblings =>
    ∃ e, extents[index]? = some e ∧ lo ≤ e.start ∧ b.LiesAt tokens e ∧
      Declared tokens extents (children.roots (index + 1)) b.declarations e.inside ∧
      children.Lies (index + 1) e.inside.start e.inside.stop ∧
      siblings.Lies (index + 1 + children.size) e.stop hi

end

section

variable {tokens : List Token} {extents : List Extent}

theorem declared_nil (row : List Nat) (span : Span) : Declared tokens extents row [] span := by
  refine ⟨?_, List.Pairwise.nil⟩
  intro d hd
  cases hd

namespace Forest

theorem Lies.le {f : Forest} {index lo hi : Nat} (h : f.Lies tokens extents index lo hi) :
    lo ≤ hi := by
  induction f generalizing index lo with
  | nil => exact h
  | node b children siblings _ ihs =>
    obtain ⟨e, -, hlo, hb, -, -, hs⟩ := h
    have hstart := hb.start_lt
    have hinside := hb.start_le_inside
    have hstop := hb.inside_le_stop
    have hrest := ihs hs
    omega

/-- A row of siblings that lies between two numbers lies between any that are further out. -/
theorem Lies.mono {f : Forest} {index lo hi lo' hi' : Nat}
    (h : f.Lies tokens extents index lo hi) (hlo : lo' ≤ lo) (hhi : hi ≤ hi') :
    f.Lies tokens extents index lo' hi' := by
  induction f generalizing index lo lo' with
  | nil => exact Nat.le_trans hlo (Nat.le_trans h hhi)
  | node b children siblings _ ihs =>
    obtain ⟨e, he, hle, hb, hd, hc, hs⟩ := h
    exact ⟨e, he, Nat.le_trans hlo hle, hb, hd, hc, ihs hs (Nat.le_refl _)⟩

/-- One row behind another. -/
theorem Lies.append {f g : Forest} {index lo mid hi : Nat}
    (hf : f.Lies tokens extents index lo mid)
    (hg : g.Lies tokens extents (index + f.size) mid hi) :
    (f.append g).Lies tokens extents index lo hi := by
  induction f generalizing index lo with
  | nil => exact hg.mono hf (Nat.le_refl _)
  | node b children siblings _ ihs =>
    obtain ⟨e, he, hle, hb, hd, hc, hs⟩ := hf
    refine ⟨e, he, hle, hb, hd, hc, ihs hs ?_⟩
    have hsize : index + (node b children siblings).size =
        index + 1 + children.size + siblings.size := by
      rw [size]
      omega
    rwa [hsize] at hg

/-- Every sibling of a row lies between the ends of the row. -/
theorem Lies.of_mem_roots {f : Forest} {index lo hi : Nat}
    (h : f.Lies tokens extents index lo hi) {r : Nat} (hr : r ∈ f.roots index) :
    ∃ e, extents[r]? = some e ∧ lo ≤ e.start ∧ e.start < e.stop ∧ e.stop ≤ hi := by
  induction f generalizing index lo with
  | nil => cases hr
  | node b children siblings _ ihs =>
    obtain ⟨e, he, hle, hb, -, -, hs⟩ := h
    have hstart := hb.start_lt
    have hinside := hb.start_le_inside
    have hstop := hb.inside_le_stop
    rcases List.mem_cons.1 hr with rfl | hr
    · exact ⟨e, he, hle, by omega, hs.le⟩
    · obtain ⟨e', he', hle', hlt', hstop'⟩ := ihs hs hr
      exact ⟨e', he', by omega, hlt', hstop'⟩

end Forest

namespace Nesting

/-- What is gathered at a level lies between two numbers; the first node of the level has a given
number. -/
def Level.Lies (tokens : List Token) (extents : List Extent) (index lo hi : Nat) (l : Level) :
    Prop :=
  l.children.Lies tokens extents index lo hi ∧
    Declared tokens extents (l.children.roots index) l.declarations ⟨lo, hi⟩

variable {l : Level} {index lo hi : Nat}

theorem Level.Lies.mono {hi' : Nat} (h : l.Lies tokens extents index lo hi) (hhi : hi ≤ hi') :
    l.Lies tokens extents index lo hi' := by
  refine ⟨h.1.mono (Nat.le_refl _) hhi, fun d hd => ?_, h.2.ordered⟩
  obtain ⟨own, hown, hle, hstop, hapart⟩ := h.2.within d hd
  exact ⟨own, hown, hle, Nat.le_trans hstop hhi, hapart⟩

/-- A level that has gathered nothing lies anywhere. -/
theorem Level.lies_nothing (index lo : Nat) : Level.Lies tokens extents index lo lo {} :=
  ⟨Nat.le_refl lo, declared_nil _ _⟩

/-- A node that lies behind a level is added to it. -/
theorem Level.Lies.addNode (h : l.Lies tokens extents index lo hi) {b : Block}
    {children : Forest} {e : Extent} (he : extents[index + l.children.size]? = some e)
    (hle : hi ≤ e.start) (hb : b.LiesAt tokens e)
    (hd : Declared tokens extents (children.roots (index + l.children.size + 1)) b.declarations
      e.inside)
    (hc : children.Lies tokens extents (index + l.children.size + 1) e.inside.start
      e.inside.stop) :
    (l.addNode b children).Lies tokens extents index lo e.stop := by
  have hnode : Forest.Lies tokens extents (index + l.children.size) hi e.stop
      (.node b children .nil) := ⟨e, he, hle, hb, hd, hc, Nat.le_refl _⟩
  have hstop : hi ≤ e.stop := hnode.le
  refine ⟨h.1.append hnode, fun d hd => ?_, h.2.ordered⟩
  obtain ⟨own, hown, hstart, hend, hapart⟩ := h.2.within d hd
  refine ⟨own, hown, hstart, Nat.le_trans hend hstop, fun r hr e' he' => ?_⟩
  have hroots : (l.addNode b children).children.roots index =
      l.children.roots index ++ [index + l.children.size] := by
    rw [Level.addNode, Forest.roots_append]
    rfl
  rw [hroots, List.mem_append, List.mem_singleton] at hr
  rcases hr with hr | rfl
  · exact hapart r hr e' he'
  · rw [he] at he'
    obtain rfl := Option.some.inj he'
    exact .inl (Nat.le_trans hend hle)

/-- A declaration that lies behind a level is added to it. -/
theorem Level.Lies.declare (h : l.Lies tokens extents index lo hi) {d : Declaration} {own : Span}
    (hown : d.LiesAt tokens own) (hle : hi ≤ own.start) :
    Level.Lies tokens extents index lo own.stop
      { l with declarations := l.declarations ++ [d] } := by
  have hstart := hown.start_lt
  have hcolon := hown.colon_lt
  have hvalue := hown.value_le
  have hstop := hown.stop_eq
  refine ⟨h.1.mono (Nat.le_refl _) (by omega), fun d' hd' => ?_, ?_⟩
  · rcases List.mem_append.1 hd' with hd' | hd'
    · obtain ⟨own', hown', hlo, hhi, hapart⟩ := h.2.within d' hd'
      exact ⟨own', hown', hlo, by dsimp only at hhi ⊢; omega, hapart⟩
    · obtain rfl := List.mem_singleton.1 hd'
      refine ⟨own, hown, Nat.le_trans h.1.le hle, Nat.le_refl _, fun r hr e he => ?_⟩
      obtain ⟨e', he', -, -, hend⟩ := h.1.of_mem_roots hr
      rw [he'] at he
      obtain rfl := Option.some.inj he
      exact .inr (Nat.le_trans hend hle)
  · refine List.pairwise_append.2 ⟨h.2.ordered, List.pairwise_singleton _ _, fun d' hd' e he => ?_⟩
    obtain rfl := List.mem_singleton.1 he
    obtain ⟨own', hown', -, hhi, -⟩ := h.2.within d' hd'
    have hcolon' := hown'.colon_lt
    have hvalue' := hown'.value_le
    have hstop' := hown'.stop_eq
    dsimp only at hhi
    omega

/-! ## 3. The walk -/

/-- The open blocks around a level that lies behind number `lo`: each where its extent says, which
the given braces close from the inside out, with the level around it in front of it. -/
def Around (tokens : List Token) (extents : List Extent) (lo : Nat) (ends : List Nat) :
    List OpenBlock → Prop
  | [] => lo = 0
  | o :: outer =>
    ∃ start lo', o.outer.Lies tokens extents (countAround outer) lo' start ∧
      extents[countAround outer + o.outer.children.size]? =
        some (Extent.ofBlock tokens.length start lo ends) ∧
      o.heading.LiesAt tokens (Extent.ofBlock tokens.length start lo ends) ∧
      tokens[lo - 1]? = some o.brace ∧ Around tokens extents lo' ends.tail outer

/-- What a state has gathered lies in front of number `upto`, inside blocks that the given braces
close from the inside out. -/
def State.Stands (tokens : List Token) (extents : List Extent) (upto : Nat) (ends : List Nat)
    (s : State) : Prop :=
  ∃ lo, s.level.Lies tokens extents (countAround s.enclosing) lo upto ∧
    Around tokens extents lo ends s.enclosing

variable {s : State} {upto : Nat} {ends : List Nat}

/-- What a walk has gathered in front of a number lies in front of every later one. -/
theorem State.Stands.mono {upto' : Nat} (h : s.Stands tokens extents upto ends)
    (hle : upto ≤ upto') : s.Stands tokens extents upto' ends := by
  obtain ⟨lo, hlevel, haround⟩ := h
  exact ⟨lo, hlevel.mono hle, haround⟩

theorem State.Stands.release (h : s.Stands tokens extents upto ends) (attached : Bool) :
    (s.release attached).Stands tokens extents upto ends := by
  unfold State.release
  split
  · exact h
  · exact h

/-- A block begins: its brace is the token in front of `inside`. -/
theorem State.Stands.enter {inside : Nat} (h : s.Stands tokens extents upto ends.tail)
    {heading : Heading} {brace : Token}
    (he : extents[s.begun.length]? =
      some (Extent.ofBlock tokens.length upto inside ends))
    (hheading : heading.LiesAt tokens (Extent.ofBlock tokens.length upto inside ends))
    (hbrace : tokens[inside - 1]? = some brace) :
    (s.enter heading brace).Stands tokens extents inside ends := by
  obtain ⟨lo, hlevel, haround⟩ := h
  rw [s.length_begun] at he
  exact ⟨inside, Level.lies_nothing _ _, upto, lo, hlevel, he, hheading, hbrace, haround⟩

/-- A node without a block is added. -/
theorem State.Stands.addLeaf (h : s.Stands tokens extents upto ends) {heading : Heading}
    {endLine stop : Nat} (he : extents[s.begun.length]? = some ⟨upto, ⟨stop, stop⟩, stop⟩)
    (hb : Block.LiesAt tokens { heading, endLine } ⟨upto, ⟨stop, stop⟩, stop⟩) :
    (s.addLeaf heading endLine).Stands tokens extents stop ends := by
  obtain ⟨lo, hlevel, haround⟩ := h
  rw [s.length_begun] at he
  have hleaf : Level.Lies tokens extents (countAround s.enclosing) lo stop
      (s.level.addNode { heading, endLine } .nil) :=
    hlevel.addNode he (Nat.le_refl _) hb (declared_nil _ _) (Nat.le_refl stop)
  exact ⟨lo, hleaf, haround⟩

/-- A declaration is added. -/
theorem State.Stands.declare (h : s.Stands tokens extents upto ends) {d : Declaration}
    {own : Span} (hown : d.LiesAt tokens own) (hle : upto ≤ own.start) :
    (s.declare d).Stands tokens extents own.stop ends := by
  obtain ⟨lo, hlevel, haround⟩ := h
  exact ⟨lo, hlevel.declare hown hle, haround⟩

/-- The innermost block ends in front of the token with number `upto`: by a brace, or with the
text. -/
theorem Level.Lies.close {o : OpenBlock} {outer : List OpenBlock} {inner : Level}
    (hinner : inner.Lies tokens extents (countAround (o :: outer)) lo hi)
    (haround : Around tokens extents lo ends (o :: outer)) (brace : Option Token) (endLine : Nat)
    (hends : ∀ start, Extent.ofBlock tokens.length start lo ends =
      ⟨start, ⟨lo, hi⟩, if brace.isSome then hi + 1 else hi⟩)
    (hbrace : ∀ t, brace = some t → tokens[hi]? = some t)
    (hopen : brace = none → hi = tokens.length)
    (hline : endLine = Stylesheet.lastLine tokens ∨
      ∃ i t, tokens[i]? = some t ∧ lo ≤ i + 1 ∧ endLine = t.line) :
    ∃ lo', (o.close inner brace endLine).Lies tokens extents (countAround outer) lo'
        (if brace.isSome then hi + 1 else hi) ∧
      Around tokens extents lo' ends.tail outer := by
  obtain ⟨start, lo', houter, he, hheading, hopening, haround⟩ := haround
  rw [hends start] at he hheading
  refine ⟨lo', houter.addNode he (Nat.le_refl _) ?_ hinner.2 hinner.1, haround⟩
  refine ⟨hheading, fun t ht => ?_, fun t ht => ?_, fun _ hnone => ?_, fun hbare => ?_,
    hinner.1.le, ?_, hline⟩
  · cases ht
    exact hopening
  · dsimp only at ht
    subst ht
    exact ⟨hbrace t rfl, rfl⟩
  · dsimp only at hnone
    subst hnone
    exact ⟨hopen rfl, hopen rfl⟩
  · cases hbare
  · dsimp only
    split <;> omega

/-- A closing brace ends the innermost block, if one is open. -/
theorem State.Stands.leave (h : s.Stands tokens extents upto (upto :: ends)) {brace : Token}
    (hbrace : tokens[upto]? = some brace) (setting : Setting) :
    (s.leave setting brace).Stands tokens extents (upto + 1) ends := by
  obtain ⟨lo, hlevel, haround⟩ := h
  unfold State.leave
  split
  · rename_i hopen
    rw [hopen] at hlevel haround
    refine ⟨lo, ?_, ?_⟩
    · show Level.Lies tokens extents (countAround s.enclosing) lo (upto + 1) s.level
      rw [hopen]
      exact hlevel.mono (Nat.le_succ upto)
    · show Around tokens extents lo ends s.enclosing
      rw [hopen]
      exact haround
  · rename_i o outer hopen
    rw [hopen] at hlevel haround
    refine hlevel.close haround (some brace) brace.line (fun start => rfl) (fun t ht => ?_)
      (fun hnone => nomatch hnone)
      (.inr ⟨upto, brace, hbrace, Nat.le_trans hlevel.1.le (Nat.le_succ upto), rfl⟩)
    rw [← Option.some.inj ht]
    exact hbrace

/-- The end of the text ends all blocks that are left. -/
theorem lies_closeAll {level : Level} {enclosing : List OpenBlock}
    (hlevel : level.Lies tokens extents (countAround enclosing) lo tokens.length)
    (haround : Around tokens extents lo [] enclosing) :
    (closeAll (Stylesheet.lastLine tokens) level enclosing).Lies tokens extents 0 0
      tokens.length := by
  induction enclosing generalizing level lo with
  | nil =>
    have hlo : lo = 0 := haround
    rwa [hlo] at hlevel
  | cons o outer ih =>
    obtain ⟨lo', hclosed, haround'⟩ := hlevel.close haround none (Stylesheet.lastLine tokens)
      (fun start => rfl) (fun t ht => nomatch ht) (fun _ => rfl) (.inl rfl)
    exact ih hclosed haround'

end Nesting

/-! ## 4. One statement -/

/-- The statement stands behind `passed` tokens and in front of others. -/
def Statement.StandsIn (tokens : List Token) (passed : Nat) (st : Statement)
    (more : List Token) : Prop :=
  ∃ front, tokens = front ++ (st.tokens ++ more) ∧ front.length = passed

/-- The tokens of a statement and of what follows are found behind those that were passed. -/
theorem Statement.StandsIn.getElem? {passed : Nat} {st : Statement} {more : List Token}
    (h : st.StandsIn tokens passed more) {i : Nat} {t : Token}
    (ht : (st.tokens ++ more)[i]? = some t) : tokens[passed + i]? = some t := by
  obtain ⟨front, rfl, rfl⟩ := h
  rwa [List.getElem?_append_right (Nat.le_add_right _ _), Nat.add_sub_cancel_left]

namespace Nesting

variable {s : State} {st : Statement} {rest : List Statement} {more : List Token}

/-- The heading of a statement lies in front of the inside of a node that starts there; the comment
that documents the node does not count. -/
theorem heading_liesAt {passed : Nat} {heading : Heading} {plain : Beginning} {e : Extent}
    (hin : st.StandsIn tokens passed more) (hb : beginning? passed none st = some plain)
    (hline : heading.line = plain.heading.line) (hcolumn : heading.column = plain.heading.column)
    (hshape : heading.shape = plain.heading.shape) (hstart : e.start = passed)
    (hinside : e.inside.start = passed + st.tokens.length) : heading.LiesAt tokens e := by
  constructor
  case place =>
    obtain ⟨t, ht, htline, htcolumn⟩ := place_of_beginning? hb
    obtain ⟨i, hi, hget⟩ := List.getElem_of_mem ht
    refine ⟨passed + i, t, hin.getElem? ?_, by omega, by omega, hline.trans htline,
      hcolumn.trans htcolumn⟩
    rw [List.getElem?_append_left hi, List.getElem?_eq_getElem hi, hget]
  case prelude =>
    intro span hspan
    have hplain : headingSpan? plain.heading = some span := by
      rw [← hspan, headingSpan?, headingSpan?, hshape]
    have hmem : plain ∈ outline passed 0 [] [st] := by
      simp [outline, hb]
    have hwithin := within_of_mem_outline hmem hplain
    have hcovered : covered [st] = st.tokens.length := by
      simp [covered]
    rw [hcovered] at hwithin
    rw [hstart, hinside]
    exact ⟨hwithin.passed_lt, hwithin.start_le, hwithin.stop_le⟩

/-- A statement that opens a block takes the first of the closing braces behind it. -/
theorem blockEnds_of_opener {passed : Nat} (hopens : st.opener?.isSome)
    (hcloses : st.closer? = none) :
    blockEnds passed (st :: rest) = (blockEnds (passed + st.tokens.length) rest).tail := by
  simp [blockEnds, hopens, hcloses]

/-- A statement without a brace leaves the ends of the open blocks to the statements behind it. -/
theorem blockEnds_of_neither {passed : Nat} (hopens : st.opener? = none)
    (hcloses : st.closer? = none) :
    blockEnds passed (st :: rest) = blockEnds (passed + st.tokens.length) rest := by
  simp [blockEnds, hopens, hcloses]

/-- The state stands where the statements leave it that are still to come: what it has gathered lies
in front of them, and the open blocks are closed by their braces. -/
def State.StandsAt (tokens : List Token) (extents : List Extent) (s : State)
    (rest : List Statement) : Prop :=
  s.Stands tokens extents s.index (blockEnds s.index rest)

/-- What a statement opens is gathered behind it. -/
theorem State.StandsAt.enter (h : s.StandsAt tokens extents (st :: rest))
    (hin : st.StandsIn tokens s.index more) {heading : Heading} {brace : Token}
    (hopens : st.opener? = some brace) (hcloses : st.closer? = none)
    (hlast : st.tokens.getLast? = some brace)
    (he : extents[s.begun.length]? = some (Extent.ofBlock tokens.length s.index
      (s.index + st.tokens.length) (blockEnds (s.index + st.tokens.length) rest)))
    (hheading : heading.LiesAt tokens (Extent.ofBlock tokens.length s.index
      (s.index + st.tokens.length) (blockEnds (s.index + st.tokens.length) rest))) :
    ((s.release s.attaches).enter heading brace).Stands tokens extents
      (s.index + st.tokens.length) (blockEnds (s.index + st.tokens.length) rest) := by
  unfold State.StandsAt at h
  rw [blockEnds_of_opener (by rw [hopens]; rfl) hcloses] at h
  have hbrace : tokens[s.index + st.tokens.length - 1]? = some brace := by
    rw [List.getLast?_eq_getElem?] at hlast
    have hlength : 0 < st.tokens.length := by
      rw [List.length_pos_iff]
      intro hnil
      simp [hnil] at hlast
    rw [Nat.add_sub_assoc hlength]
    refine hin.getElem? ?_
    rwa [List.getElem?_append_left (by omega)]
  refine (h.release s.attaches).enter ?_ hheading hbrace
  rwa [begun_release]

/-- What an at-rule without a block adds lies where it stands. -/
theorem State.StandsAt.addLeaf {keyword : Token} {prelude : List Token} {ending : AtRuleEnd}
    (h : s.StandsAt tokens extents (.atRule keyword prelude ending :: rest))
    (hin : (Statement.atRule keyword prelude ending).StandsIn tokens s.index more)
    (hbare : ending.brace? = none) {endLine : Nat}
    (he : ∀ e, extent? tokens.length s.index rest (.atRule keyword prelude ending) = some e →
      extents[s.begun.length]? = some e)
    (hline : endLine = Stylesheet.lastLine tokens ∨ ∃ t,
      ((ending.tokens ++ more).head? = some t ∧ endLine = t.line)) :
    ((s.release s.attaches).addLeaf (atRuleHeading s.index keyword prelude s.documentation)
      endLine).Stands tokens extents
        (s.index + (Statement.atRule keyword prelude ending).tokens.length)
        (blockEnds (s.index + (Statement.atRule keyword prelude ending).tokens.length) rest) := by
  have hends : s.Stands tokens extents s.index (blockEnds (s.index +
      (Statement.atRule keyword prelude ending).tokens.length) rest) := by
    have hopens : (Statement.atRule keyword prelude ending).opener? = none := hbare
    rw [← blockEnds_of_neither hopens rfl]
    exact h
  refine (hends.release s.attaches).addLeaf ?_ ?_
  · rw [begun_release]
    refine he _ ?_
    cases ending with
    | opens brace => cases hbare
    | _ => rfl
  · constructor
    case heading => exact heading_liesAt hin rfl rfl rfl rfl rfl rfl
    case opening =>
      intro brace hopen
      cases hopen
    case closing =>
      intro brace hclose
      cases hclose
    case unclosed =>
      intro hopen
      cases hopen
    case bare =>
      intro _
      exact ⟨rfl, rfl⟩
    case start_le_inside => exact Nat.le_refl _
    case inside_le_stop => exact Nat.le_refl _
    case endLine =>
      refine hline.imp_right ?_
      intro ⟨t, ht, hline⟩
      refine ⟨s.index + (keyword :: prelude).length, t, hin.getElem? ?_, ?_, hline⟩
      · have hsplit : (Statement.atRule keyword prelude ending).tokens ++ more =
            (keyword :: prelude) ++ (ending.tokens ++ more) := by
          simp [Statement.tokens]
        rw [hsplit, List.getElem?_append_right (Nat.le_refl _), Nat.sub_self,
          ← List.head?_eq_getElem?]
        exact ht
      · have hending : ending.tokens.length ≤ 1 :=
          (Statement.atRule keyword prelude ending).length_ending_le
        simp only [Statement.tokens, List.length_cons, List.length_append]
        omega

/-- Every statement moves the state on. -/
theorem State.StandsAt.step (h : s.StandsAt tokens extents (st :: rest))
    (hin : st.StandsIn tokens s.index more)
    (he : ∀ e, extent? tokens.length s.index rest st = some e →
      extents[s.begun.length]? = some e)
    (hmore : ∀ keyword prelude line, st = .atRule keyword prelude (.closedAt line) →
      ∃ t, more.head? = some t ∧ line = t.line)
    (file : String) :
    (s.step ⟨file, Stylesheet.lastLine tokens⟩ st).StandsAt tokens extents rest := by
  have hbehind : s.index ≤ s.index + st.tokens.length := Nat.le_add_right _ _
  show (s.take _ st).Stands tokens extents (s.index + st.tokens.length)
    (blockEnds (s.index + st.tokens.length) rest)
  cases st with
  | comment t => exact (h.release false).mono hbehind
  | lineBreak t => exact h.mono hbehind
  | filler t => exact h.mono hbehind
  | closing brace =>
    have hbrace : tokens[s.index + 0]? = some brace := hin.getElem? rfl
    exact (h.release false).leave hbrace _
  | opening prelude brace =>
    exact h.enter hin rfl rfl (by simp [Statement.tokens]) (he _ rfl)
      (heading_liesAt hin rfl rfl rfl rfl (by simp) (by simp))
  | atRule keyword prelude ending =>
    cases ending with
    | opens brace =>
      refine h.enter hin rfl rfl ?_ (he _ rfl)
        (heading_liesAt hin rfl rfl rfl rfl (by simp) (by simp))
      show ((keyword :: prelude) ++ [brace]).getLast? = some brace
      exact List.getLast?_concat
    | semicolon t => exact h.addLeaf hin rfl he (.inr ⟨t, rfl, rfl⟩)
    | closedAt line => exact h.addLeaf hin rfl he (.inr (hmore _ _ _ rfl))
    | endOfText => exact h.addLeaf hin rfl he (.inl rfl)
  | plain ts semicolon =>
    have hends : s.Stands tokens extents s.index
        (blockEnds (s.index + (Statement.plain ts semicolon).tokens.length) rest) := h
    unfold take
    dsimp only
    rw [index_release]
    split
    · rename_i d hd
      obtain ⟨first, hfirst, hline, hcolumn, hlt⟩ := Declaration.first_of_ofTokens? hd
      obtain ⟨hcolon, hvalue, hstop⟩ := Declaration.within_of_ofTokens? hd
      have hpos : 0 < ts.length := (List.getElem?_eq_some_iff.1 hfirst).1
      have hplace : tokens[s.index + 0]? = some first := by
        refine hin.getElem? ?_
        rw [Statement.tokens, List.append_assoc, List.getElem?_append_left hpos]
        exact hfirst
      have hown : d.LiesAt tokens ⟨s.index, d.valueSpan.stop⟩ :=
        ⟨⟨first, hplace, hline, hcolumn⟩, hlt, hcolon, hvalue, rfl⟩
      refine ((hends.release false).declare hown (Nat.le_refl _)).mono ?_
      simp only [Statement.tokens, List.length_append]
      omega
    · exact (hends.release false).mono hbehind

/-! ## 5. All statements -/

/-- An at-rule that a closing brace ends stands in front of that brace. -/
theorem closedAt_of_read {t : Token} {rest : List Token} {keyword : Token} {prelude : List Token}
    {line : Nat} (h : (Statement.read t rest).1 = .atRule keyword prelude (.closedAt line)) :
    ∃ e, (Statement.read t rest).2.head? = some e ∧ line = e.line := by
  unfold Statement.read at h ⊢
  split at h
  case h_8 =>
    unfold Statement.readAtRule at h ⊢
    dsimp only at h ⊢
    split at h
    · cases h
    · rename_i e more hcut
      split at h
      · cases h
      · cases h
      · cases h
        exact ⟨e, rfl, rfl⟩
  case h_9 =>
    unfold Statement.readPlain at h
    dsimp only at h
    split at h
    · cases h
    · split at h <;> cases h
  all_goals cases h

/-- A statement has an extent if it begins a node. -/
theorem length_extent? (total : Nat) (rest : List Statement) (s : State) (st : Statement) :
    (extent? total s.index rest st).toList.length = (s.beginning? st).toList.length := by
  cases st with
  | atRule keyword prelude ending => cases ending <;> rfl
  | _ => rfl

/-- The statements that are left move the state on to the end of the text. -/
theorem standsAt_foldl {ts : List Token}
    (hin : ∃ front, tokens = front ++ ts ∧ front.length = s.index)
    (h : s.StandsAt tokens extents (Statement.all ts))
    (he : extents.drop s.begun.length =
      Nesting.extents tokens.length s.index (Statement.all ts)) (file : String) :
    ((Statement.all ts).foldl (State.step ⟨file, Stylesheet.lastLine tokens⟩) s).Stands tokens
      extents tokens.length [] := by
  fun_induction Statement.all ts generalizing s with
  | case1 =>
    obtain ⟨front, htokens, hfront⟩ := hin
    have hindex : s.index = tokens.length := by
      rw [htokens, List.append_nil, hfront]
    have hend : s.Stands tokens extents s.index [] := h
    rwa [hindex] at hend
  | case2 t rest ih =>
    obtain ⟨front, htokens, hfront⟩ := hin
    rw [← Statement.read_append] at htokens
    have hst : (Statement.read t rest).1.StandsIn tokens s.index (Statement.read t rest).2 :=
      ⟨front, htokens, hfront⟩
    rw [Nesting.extents] at he
    have hfirst : ∀ e, extent? tokens.length s.index (Statement.all (Statement.read t rest).2)
        (Statement.read t rest).1 = some e → extents[s.begun.length]? = some e := by
      intro e hsome
      have hhead := congrArg List.head? he
      rw [hsome, List.head?_drop] at hhead
      exact hhead
    refine ih ?_ (h.step hst hfirst ?_ file) ?_
    · refine ⟨front ++ (Statement.read t rest).1.tokens, by simpa using htokens, ?_⟩
      rw [List.length_append, hfront]
      rfl
    · intro keyword prelude line hat
      exact closedAt_of_read hat
    · rw [State.begun_step, List.length_append, ← length_extent?, ← List.drop_drop, he,
        List.drop_left]
      rfl

end Nesting

end

/-- **A stylesheet lies where its extents say**: what is outside all blocks lies in the whole text,
and everything else in the node that it belongs to. -/
theorem Stylesheet.lies_parse (file : String) (tokens : List Token) :
    let s := (parse file tokens).1
    s.forest.Lies tokens s.extents 0 0 tokens.length ∧
      Declared tokens s.extents s.topLevel s.declarations ⟨0, tokens.length⟩ := by
  intro s
  have hstart : Nesting.State.StandsAt tokens s.extents {} (Statement.all tokens) :=
    ⟨0, Nesting.Level.lies_nothing 0 0, rfl⟩
  obtain ⟨lo, hlevel, haround⟩ :=
    (Nesting.standsAt_foldl ⟨[], rfl, rfl⟩ hstart rfl file).release false
  exact Nesting.lies_closeAll hlevel haround

end HouseStyle
