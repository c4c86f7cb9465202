/-
HouseStyle.Proofs.Fetching — a check in which every lookup by number may fail, and none does.

The rules look things up by numbers: tokens around a colon, around a comma or in front of a brace,
the line of a node, the nodes of a row of siblings, the ruleset around a ruleset. What they do about
a number of nothing is a matter of taste; here it is a fault that stops the whole check (`fetch`),
negative numbers included, and so is a walk up the nodes that takes more steps than there are nodes.
This check never stops and has the findings of the other one (`check_fetches`), whatever the text
and the options are. Reading a text needs no such care: lexer and parser take characters and tokens
off the front of a list and look nothing up by number.

## How the proof goes

`Stylesheet.Addressed` says that the numbers are good. What a rule fetches is then what it looks up
(`places_eq`, `siblings_eq`, `classAround_eq`), and what it makes of that is the same function; it
looks at the nearest neighbours of a token only (`Place.nearest`), so only these are fetched.
-/
import HouseStyle.Check
import HouseStyle.Proofs.Addresses
import HouseStyle.Proofs.Inherited

namespace HouseStyle

/-! ## 1. Fetching -/

/-- The member of a number. A number that is negative or too large is a fault. -/
def fetch {α : Type} (xs : List α) (number : Int) : Option α :=
  if number < 0 then none else xs[number.toNat]?

theorem fetch_natCast {α : Type} (xs : List α) (n : Nat) : fetch xs n = xs[n]? := by
  rw [fetch, if_neg (by omega), Int.toNat_natCast]

/-- Numbers that count from one are fetched one place earlier. -/
theorem fetch_sub_one {α : Type} (xs : List α) {n : Nat} (h : 0 < n) :
    fetch xs ((n : Int) - 1) = xs[n - 1]? := by
  have hcast : (n : Int) - 1 = ((n - 1 : Nat) : Int) := by omega
  rw [hcast, fetch_natCast]

/-- A row of steps none of which fails. -/
theorem mapM_eq_some {α β : Type} {f : α → Option β} {g : α → β} {xs : List α}
    (h : ∀ x ∈ xs, f x = some (g x)) : xs.mapM f = some (xs.map g) := by
  induction xs with
  | nil => rfl
  | cons x xs ih =>
    obtain ⟨hx, hxs⟩ := List.forall_mem_cons.1 h
    rw [List.mapM_cons, hx, ih hxs]
    rfl

/-- The token with its nearest neighbours only. -/
def Place.nearest (p : Place) : Place := ⟨p.before.head?.toList, p.token, p.after.head?.toList⟩

namespace Fetching

/-! ## 2. Tokens of spans -/

/-- A token of a span with the token in front of it and, unless the span ends there, the token
behind it. -/
def place (tokens : List Token) (stop : Nat) (index : Nat) : Option Place := do
  let before ← fetch tokens ((index : Int) - 1)
  let token ← fetch tokens index
  if index + 1 < stop then
    let after ← fetch tokens ((index + 1 : Nat) : Int)
    pure ⟨[before], token, [after]⟩
  else pure ⟨[before], token, []⟩

def places (tokens : List Token) (span : Span) : Option (List Place) :=
  (List.range' span.start (span.stop - span.start)).mapM (place tokens span.stop)

theorem place_eq (front : List Token) (b t : Token) (ts back : List Token) :
    place (front ++ b :: t :: (ts ++ back)) (front.length + 1 + (ts.length + 1))
      (front.length + 1) = some ⟨[b], t, ts.head?.toList⟩ := by
  have hbefore : (front ++ b :: t :: (ts ++ back))[front.length + 1 - 1]? = some b := by simp
  have htoken : (front ++ b :: t :: (ts ++ back))[front.length + 1]? = some t := by simp
  have hafter : (front ++ b :: t :: (ts ++ back))[front.length + 1 + 1]? = (ts ++ back)[0]? := by
    rw [List.getElem?_append_right (by omega)]
    have hindex : front.length + 1 + 1 - front.length = 2 := by omega
    rw [hindex]
    rfl
  unfold place
  rw [fetch_sub_one _ (Nat.succ_pos _), hbefore, fetch_natCast, htoken, fetch_natCast, hafter]
  cases ts with
  | nil => simp
  | cons u ts => simp

/-- Fetching the tokens of a span one after the other finds each with its neighbours. -/
theorem mapM_place (front : List Token) (b : Token) (ts back more : List Token) :
    (List.range' (front.length + 1) ts.length).mapM
        (place (front ++ b :: (ts ++ back)) (front.length + 1 + ts.length)) =
      some ((Place.allFrom (b :: more) ts).map Place.nearest) := by
  induction ts generalizing front b more with
  | nil => rfl
  | cons t ts ih =>
    have hnext := ih (front ++ [b]) t (b :: more)
    have hlength : (front ++ [b]).length = front.length + 1 := List.length_append
    have hstop : front.length + 1 + 1 + ts.length = front.length + 1 + (ts.length + 1) := by omega
    rw [hlength, List.append_assoc, List.singleton_append, hstop] at hnext
    rw [List.length_cons, List.range'_succ, List.mapM_cons]
    rw [List.cons_append, place_eq, hnext]
    rfl

/-- The tokens of a span can be fetched with their neighbours, and are those that the rules see. -/
theorem places_eq {tokens : List Token} {span : Span} (h : span.Within 0 tokens.length) :
    places tokens span = some ((Place.ofSpan tokens.toArray span).map Place.nearest) := by
  obtain ⟨hpos, hle, hstop⟩ := h
  obtain ⟨start, stop⟩ := span
  dsimp only at hpos hle hstop
  obtain ⟨before, rfl⟩ : ∃ before, start = before + 1 := ⟨start - 1, by omega⟩
  have hbefore : before < tokens.length := by omega
  have hfront : (tokens.take before).length = before := List.length_take_of_le (by omega)
  have hslice : ((tokens.drop (before + 1)).take (stop - (before + 1))).length =
      stop - (before + 1) := by
    rw [List.length_take_of_le]
    rw [List.length_drop]
    omega
  have hsplit : tokens = tokens.take before ++ tokens[before] ::
      ((tokens.drop (before + 1)).take (stop - (before + 1)) ++
        (tokens.drop (before + 1)).drop (stop - (before + 1))) := by
    rw [List.take_append_drop, List.getElem_cons_drop, List.take_append_drop]
  have hread := mapM_place (tokens.take before) tokens[before]
    ((tokens.drop (before + 1)).take (stop - (before + 1)))
    ((tokens.drop (before + 1)).drop (stop - (before + 1))) []
  rw [← hsplit, hfront, hslice, Nat.add_sub_cancel' hle] at hread
  have hprevious : Place.previous tokens.toArray (before + 1) = [tokens[before]] := by
    simp [Place.previous, hbefore]
  unfold places Place.ofSpan
  rw [Span.slice_toArray, hprevious]
  exact hread

/-! ## 3. Rules that look at the tokens of spans -/

open Values

/-- What is wrong around a comma depends on the two tokens beside it alone. -/
theorem commaProblems_nearest (p : Place) : commaProblems p.nearest = commaProblems p := by
  obtain ⟨before, token, after⟩ := p
  cases before <;> cases after <;> rfl

/-- The zeros of a span can be told from its tokens with their nearest neighbours. -/
theorem zerosFrom_nearest (functions : List Text) (ps : List Place) :
    zerosFrom functions (ps.map Place.nearest) = zerosFrom functions ps := by
  induction ps generalizing functions with
  | nil => rfl
  | cons p ps ih =>
    have hname : functionName p.nearest = functionName p := by
      obtain ⟨before, token, after⟩ := p
      cases before <;> rfl
    have htoken : p.nearest.token = p.token := rfl
    rw [List.map_cons, zerosFrom, zerosFrom, hname, htoken]
    simp only [ih]

def valuePlaces (s : Stylesheet) (spans : List Span) : Option (List (List Place)) :=
  spans.mapM (places s.tokens)

def commas (s : Stylesheet) : Option (List Diagnostic) :=
  (valuePlaces s s.valueSpans).map fun rows =>
    rows.flatten.flatMap fun p =>
      (commaProblems p).map fun (message, fix) =>
        s.finding .commaSpacing p.token.line p.token.column message (some fix)

def colors (s : Stylesheet) : Option (List Diagnostic) :=
  (valuePlaces s s.valueSpans).map fun rows =>
    (rows.flatten.map Place.token).filterMap (colorFinding? s)

def zeros (s : Stylesheet) : Option (List Diagnostic) :=
  (valuePlaces s s.ordinarySpans).map fun rows =>
    (rows.flatMap (zerosFrom [])).map fun t =>
      s.finding .unitOnZeroValue t.line t.column
        s!"Zero length '{t.lexeme.shown}' should be written '0'." (some "0")

variable {s : Stylesheet}

/-- The spans of values that a stylesheet lists are in range if its numbers are. -/
theorem within_of_mem_spansOf (h : s.Addressed) {declarations : List Declaration}
    (hsub : ∀ d ∈ declarations, d ∈ s.allDeclarations) :
    ∀ span ∈ s.spansOf declarations, span.Within 0 s.tokens.length := by
  intro span hspan
  rcases List.mem_append.1 hspan with hspan | hspan
  · obtain ⟨d, hd, rfl⟩ := List.mem_map.1 hspan
    exact h.value d (hsub d hd)
  · obtain ⟨n, hn, hprelude⟩ := List.mem_filterMap.1 hspan
    obtain ⟨atRule, hatRule, rfl⟩ := Option.map_eq_some_iff.1 hprelude
    exact h.prelude n hn atRule hatRule

theorem valuePlaces_eq {spans : List Span}
    (h : ∀ span ∈ spans, span.Within 0 s.tokens.length) :
    valuePlaces s spans =
      some (spans.map fun span => (Place.ofSpan s.tokens.toArray span).map Place.nearest) :=
  mapM_eq_some fun span hspan => places_eq (h span hspan)

theorem valueSpans_within (h : s.Addressed) :
    ∀ span ∈ s.valueSpans, span.Within 0 s.tokens.length :=
  within_of_mem_spansOf h fun _ hd => hd

theorem ordinarySpans_within (h : s.Addressed) :
    ∀ span ∈ s.ordinarySpans, span.Within 0 s.tokens.length :=
  within_of_mem_spansOf h fun _ hd => (List.mem_filter.1 hd).1

theorem token_allFrom (before ts : List Token) :
    (Place.allFrom before ts).map Place.token = ts := by
  induction ts generalizing before with
  | nil => rfl
  | cons t ts ih => rw [Place.allFrom, List.map_cons, ih]

theorem commas_eq (h : s.Addressed) (o : Options) : commas s = some (checkCommas s o) := by
  rw [commas, valuePlaces_eq (valueSpans_within h), Option.map_some, checkCommas]
  simp only [List.flatMap_def, List.map_map, List.map_flatten, Function.comp_def,
    commaProblems_nearest]
  rfl

theorem colors_eq (h : s.Addressed) (o : Options) : colors s = some (checkColors s o) := by
  have hslice (span : Span) : ((Place.ofSpan s.tokens.toArray span).map Place.nearest).map
      Place.token = span.slice s.tokens.toArray := by
    rw [List.map_map]
    exact token_allFrom _ _
  rw [colors, valuePlaces_eq (valueSpans_within h), Option.map_some, checkColors]
  simp only [List.flatMap_def, List.map_flatten, List.map_map, Function.comp_def]
  simp only [List.map_map] at hslice
  simp only [Function.comp_def] at hslice
  simp only [hslice]

theorem zeros_eq (h : s.Addressed) (o : Options) : zeros s = some (checkZeros s o) := by
  rw [zeros, valuePlaces_eq (ordinarySpans_within h), Option.map_some, checkZeros]
  simp only [List.flatMap_map, zerosFrom_nearest]

/-! ## 4. Colons, braces and lines -/

def tokenAt (tokens : List Token) (number : Int) : List Token := (fetch tokens number).toList

/-- The colon of a declaration, fetched with its neighbours, if it has some. -/
def colonPlace (tokens : List Token) (d : Declaration) : Option Place :=
  (fetch tokens d.colon).map fun colon =>
    ⟨tokenAt tokens ((d.colon : Int) - 1), colon, tokenAt tokens ((d.colon + 1 : Nat) : Int)⟩

def colons (s : Stylesheet) : Option (List Diagnostic) :=
  (s.allDeclarations.mapM fun d =>
    (colonPlace s.tokens d).map fun colon =>
      (colonProblems d colon).map fun message =>
        s.finding .colonSpacing colon.token.line colon.token.column message
          (some s!"Write '{d.property.shown}: {d.value.shown}'.")).map List.flatten

/-- The colon of a declaration is fetched with its neighbours exactly where there is one. -/
theorem colonPlace_eq (tokens : List Token) (d : Declaration) :
    colonPlace tokens d = Place.at? tokens.toArray d.colon := by
  have hbefore : tokenAt tokens ((d.colon : Int) - 1) =
      Place.previous tokens.toArray d.colon := by
    cases d.colon with
    | zero => rfl
    | succ n =>
      rw [tokenAt, fetch_sub_one _ (Nat.succ_pos n)]
      simp [Place.previous]
  unfold colonPlace Place.at?
  rw [hbefore, fetch_natCast, tokenAt, fetch_natCast]
  simp

theorem colons_eq (h : s.Addressed) (o : Options) : colons s = some (checkColons s o) := by
  have hstep : ∀ d ∈ s.allDeclarations,
      (colonPlace s.tokens d).map (fun colon =>
        (colonProblems d colon).map fun message =>
          s.finding .colonSpacing colon.token.line colon.token.column message
            (some s!"Write '{d.property.shown}: {d.value.shown}'.")) =
        some (colonFindings s s.tokens.toArray d) := by
    intro d hd
    have hcolon := h.colon d hd
    rw [colonPlace_eq, colonFindings, Place.at?]
    simp [hcolon]
  rw [colons, mapM_eq_some hstep, Option.map_some, checkColons, List.flatMap_def]

open Blocks

/-- What is wrong with the space in front of a token, if it is an opening brace behind other
tokens; the one in front is fetched. -/
def spacing (tokens : List Token) (token : Token) (number : Nat) : Option (Option String) :=
  if token.kind ≠ .leftBrace ∨ number = 0 then some none
  else
    (fetch tokens ((number : Int) - 1)).map fun space =>
      spacingProblem? ⟨space :: tokenAt tokens ((number : Int) - 2), token, []⟩

def braces (s : Stylesheet) : Option (List Diagnostic) :=
  (s.tokens.zipIdx.mapM fun t => spacing s.tokens t.1 t.2).map fun problems =>
    (s.tokens.zip problems).filterMap fun t =>
      t.2.map fun message =>
        s.finding .braceSpacing t.1.line t.1.column message
          (some "Write 'selector \x7b' with a single space.")

theorem spacing_eq (before : List Token) (token : Token) (after : List Token) :
    spacing (before.reverse ++ token :: after) token before.length =
      some (spacingProblem? ⟨before, token, after⟩) := by
  unfold spacing
  by_cases hkind : token.kind = .leftBrace
  · cases before with
    | nil =>
      rw [if_pos (.inr rfl)]
      simp [spacingProblem?]
    | cons space more =>
      have hspace : ((space :: more).reverse ++ token :: after)[more.length + 1 - 1]? =
          some space := by
        simp
      rw [if_neg (by simp [hkind]), List.length_cons, fetch_sub_one _ (Nat.succ_pos _), hspace,
        Option.map_some]
      have hmore : tokenAt ((space :: more).reverse ++ token :: after)
          (((more.length + 1 : Nat) : Int) - 2) = more.head?.toList := by
        cases more with
        | nil => rfl
        | cons second more =>
          have hcast : (((second :: more).length + 1 : Nat) : Int) - 2 = (more.length : Nat) := by
            rw [List.length_cons]
            omega
          rw [tokenAt, hcast, fetch_natCast]
          simp
      rw [hmore]
      cases more <;> rfl
  · rw [if_pos (.inl hkind)]
    simp [spacingProblem?, hkind]

theorem mapM_spacing (before ts : List Token) :
    ((ts.zipIdx before.length).mapM fun t => spacing (before.reverse ++ ts) t.1 t.2) =
      some ((Place.allFrom before ts).map spacingProblem?) := by
  induction ts generalizing before with
  | nil => rfl
  | cons t ts ih =>
    have hnext := ih (t :: before)
    rw [List.reverse_cons, List.append_assoc, List.singleton_append, List.length_cons] at hnext
    rw [List.zipIdx_cons, List.mapM_cons, spacing_eq, hnext]
    rfl

theorem braces_eq (o : Options) : braces s = some (checkSpacing s o) := by
  have hread := mapM_spacing [] s.tokens
  rw [List.reverse_nil, List.nil_append, List.length_nil] at hread
  have hzip : ((Place.allFrom [] s.tokens).map Place.token).zip
      ((Place.allFrom [] s.tokens).map spacingProblem?) =
        (Place.allFrom [] s.tokens).map fun p => (p.token, spacingProblem? p) :=
    List.zip_map'
  rw [token_allFrom] at hzip
  rw [braces, hread, Option.map_some, hzip, List.filterMap_map]
  rfl

/-- The finding about a closing brace, if there is one; the line of a node with a block of several
lines is fetched. -/
def alignment (s : Stylesheet) (n : Node) : Option (Option Diagnostic) :=
  match n.block.openBrace, n.block.closeBrace with
  | some opening, some closing =>
    if closing.line = opening.line then some none
    else
      (fetch s.lines ((n.line : Int) - 1)).map fun line =>
        let expected := Lines.indent line + 1
        if closing.column = expected then none
        else
          some <| s.finding .closingBraceAlignment closing.line closing.column
            (s!"Closing brace at column {closing.column} should be at column {expected}, " ++
              s!"under the start of line {n.line}.")
            (some "Put '\x7d' on its own line, aligned with the selector.")
  | _, _ => some none

def alignments (s : Stylesheet) : Option (List Diagnostic) :=
  (s.nodes.mapM (alignment s)).map (List.filterMap id)

theorem alignments_eq (h : s.Addressed) (o : Options) :
    alignments s = some (checkAlignment s o) := by
  have hstep : ∀ n ∈ s.nodes, alignment s n = some (alignmentFinding? s s.lines n) := by
    intro n hn
    obtain ⟨hpos, hle⟩ := h.line n hn
    have hlt : n.line - 1 < s.lines.length := by omega
    have hline : Lines.line? s.lines n.line = some s.lines[n.line - 1] := by
      rw [Lines.line?, if_neg (by omega), List.getElem?_eq_getElem hlt]
    unfold alignment alignmentFinding?
    rw [hline]
    cases n.block.openBrace with
    | none => rfl
    | some opening =>
      cases n.block.closeBrace with
      | none => rfl
      | some closing =>
        dsimp only
        rw [fetch_sub_one _ hpos, List.getElem?_eq_getElem hlt, Option.map_some]
        by_cases hsame : closing.line = opening.line
        · simp [hsame]
        · by_cases hcolumn : closing.column = Lines.indent s.lines[n.line - 1] + 1
          · simp [hcolumn]
          · simp [hsame, hcolumn]
  rw [alignments, mapM_eq_some hstep, Option.map_some, List.filterMap_map]
  rfl

def fileEnd (s : Stylesheet) (o : Options) : Option (List Diagnostic) :=
  (fetch s.lines ((s.lines.length : Int) - 1)).map fun _ => Layout.checkEnd s o

theorem fileEnd_eq (o : Options) : fileEnd s o = some (Layout.checkEnd s o) := by
  have hpos : 0 < s.lines.length := by
    rw [Stylesheet.lines, Text.lines, List.length_map]
    exact List.length_pos_of_ne_nil (List.splitOnP_ne_nil _ _)
  have hlt : s.lines.length - 1 < s.lines.length := by omega
  rw [fileEnd, fetch_sub_one _ hpos, List.getElem?_eq_getElem hlt]
  rfl

/-! ## 5. Nodes -/

def nodesAt (s : Stylesheet) (numbers : List Nat) : Option (List Node) :=
  numbers.mapM fun number : Nat => fetch s.nodes (number : Int)

def siblings (s : Stylesheet) : Option (List (List Node)) := do
  let top ← nodesAt s s.topLevel
  let inner ← (s.nodes.filter fun n => !n.children.isEmpty).mapM fun n => nodesAt s n.children
  pure (top :: inner)

def separation (s : Stylesheet) : Option (List Diagnostic) :=
  (siblings s).map fun groups => groups.flatMap (siblingFindings s s.lines)

theorem nodesAt_eq {numbers : List Nat} (h : ∀ number ∈ numbers, number < s.nodes.length) :
    nodesAt s numbers = some (numbers.filterMap (s.nodes[·]?)) := by
  induction numbers with
  | nil => rfl
  | cons number rest ih =>
    obtain ⟨hnumber, hrest⟩ := List.forall_mem_cons.1 h
    have hread := ih hrest
    unfold nodesAt at hread ⊢
    rw [List.mapM_cons, fetch_natCast, hread]
    simp [hnumber]

/-- The siblings that are fetched by number are those of the forest; no number is out of range. -/
theorem siblings_eq (h : s.Addressed) : siblings s = some s.siblingGroups := by
  have hinner : ∀ n ∈ s.nodes.filter (fun n => !n.children.isEmpty),
      nodesAt s n.children = some (n.children.filterMap (s.nodes[·]?)) := by
    intro n hn
    exact nodesAt_eq (h.child n (List.mem_filter.1 hn).1)
  rw [siblings, nodesAt_eq h.topLevel, mapM_eq_some hinner]
  rfl

/-- With its siblings fetched the rule about blank lines reports the same. -/
theorem separation_eq (h : s.Addressed) (o : Options) :
    separation s = some (checkSeparation s o) := by
  rw [separation, siblings_eq h]
  rfl

open ClassNaming

def parent (s : Stylesheet) (n : Node) : Option (Option Node) :=
  match n.scope.parent with
  | none => some none
  | some number => (fetch s.nodes number).map fun p => if p.isRuleset then some p else none

/-- The class that `&` stands for around a node, by a walk up of at most `steps` steps. The walk
goes on to the top, also where an inner ruleset settles the class. -/
def classAround (s : Stylesheet) : Nat → Node → Option (Option Text)
  | 0, _ => none
  | steps + 1, n => do
    match ← parent s n with
    | none => pure none
    | some p =>
      let outer ← classAround s steps p
      pure (classInside p.selectors outer)

def classes (s : Stylesheet) : Option (List (Node × Selector × ClassName)) :=
  ((s.nodes.filter fun n => n.isRuleset && !n.inAtRule).mapM fun n =>
    (classAround s s.nodes.length n).map (classesOf n)).map List.flatten

def classNames (s : Stylesheet) (o : Options) : Option (List Diagnostic) :=
  if o.vendorExempt then some []
  else
    (classes s).map fun found =>
      (found.filter fun (_, _, c) => isUnknown o c).map fun (_, selector, c) =>
        ClassNaming.finding s selector c

/-- A walk up from a node ends within as many steps as there are nodes in front of it and itself,
and finds the class that its owners give to it. -/
theorem classAround_eq {n : Node} {owners : List Node} (hn : n ∈ s.nodes)
    (howners : Owners s.nodes n owners) {steps : Nat} (hsteps : n.index < steps) :
    classAround s steps n = some (trailingClass (rulesetsAmong owners)) := by
  induction steps generalizing n owners with
  | zero => exact absurd hsteps (Nat.not_lt_zero _)
  | succ steps ih =>
    obtain ⟨own, hown, hscope⟩ := Stylesheet.exists_owners hn
    obtain rfl := Stylesheet.owners_unique howners hown
    have hparent : n.scope.parent = (owners.find? (·.isRuleset)).map (·.index) := by
      rw [hscope]
      rfl
    unfold classAround parent
    rw [hparent]
    cases hfind : owners.find? (·.isRuleset) with
    | none =>
      rw [rulesetsAmong_of_find?_none hfind]
      rfl
    | some p =>
      obtain ⟨outer, houter, hp, hrulesets⟩ := howners.of_find? hfind
      have hlt : p.index < n.index :=
        Stylesheet.index_lt_of_owners howners p (List.mem_of_find?_eq_some hfind)
      have hruleset : p.isRuleset = true := by simpa using List.find?_some hfind
      dsimp only [Option.map_some]
      rw [fetch_natCast, Stylesheet.getElem?_index hp, Option.map_some, if_pos hruleset,
        hrulesets]
      dsimp only [Option.bind_eq_bind, Option.bind_some]
      rw [ih hp houter (by omega)]
      rfl

/-- Steps along one list that give what is at the same place in another. -/
theorem mapM_filter_of_forall₂ {α β γ : Type} {R : α → β → Prop} {p : α → Bool}
    {f : α → Option γ} {g : α → β → γ} (hstep : ∀ x y, R x y → f x = some (g x y))
    {xs : List α} {ys : List β} (h : List.Forall₂ R xs ys) :
    (xs.filter p).mapM f = some (((xs.zip ys).filter fun z => p z.1).map fun z => g z.1 z.2) := by
  induction h with
  | nil => rfl
  | @cons x y xs ys hxy _ ih =>
    rw [List.zip_cons_cons, List.filter_cons, List.filter_cons]
    dsimp only
    split
    · rw [List.mapM_cons, hstep x y hxy, ih]
      rfl
    · exact ih

/-- The classes are resolved alike when every ruleset around is fetched by number. -/
theorem classes_eq : classes s = some (ClassNaming.classes s) := by
  have hstep : ∀ n outer, HasClass s.nodes n outer →
      (classAround s s.nodes.length n).map (classesOf n) = some (classesOf n outer) := by
    rintro n _ ⟨hn, owners, howners, rfl⟩
    rw [classAround_eq hn howners (Stylesheet.index_lt_length hn)]
    rfl
  rw [classes, mapM_filter_of_forall₂ hstep (inherited_nodes s), Option.map_some,
    ClassNaming.classes, List.flatMap_def]

theorem classNames_eq (o : Options) : classNames s o = some (ClassNaming.check s o) := by
  unfold classNames ClassNaming.check
  split
  · rfl
  · rw [classes_eq]
    rfl

end Fetching

/-! ## 6. The check -/

/-- The findings of a rule, with everything fetched that it looks up by number. -/
def Rule.fetch (s : Stylesheet) (o : Options) : Rule → Option (List Diagnostic)
  | .classNaming => Fetching.classNames s o
  | .blockSeparation => Fetching.separation s
  | .braceSpacing => Fetching.braces s
  | .braceAlignment => Fetching.alignments s
  | .colonSpacing => Fetching.colons s
  | .hexColors => Fetching.colors s
  | .zeroUnits => Fetching.zeros s
  | .commaSpacing => Fetching.commas s
  | .fileEnd => Fetching.fileEnd s o
  | rule => some (rule.run s o)

/-- The check with everything fetched that is looked up by number. -/
def fetchingCheck (file : String) (text : Text) (o : Options) : Option (List Diagnostic) :=
  let (sheet, recovered) := Stylesheet.ofText file text
  ((Rule.all.filter (·.isWanted o)).mapM (Rule.fetch sheet o)).map fun found =>
    Diagnostic.consolidate
      ((recovered.filter (fun d => o.enabled d.rule) ++
        found.flatten.filter fun d => o.enabled d.rule).map o.judge)

/-- Every rule finds what it looks up by number, and reports the same. -/
theorem Rule.fetch_eq {s : Stylesheet} (h : s.Addressed) (o : Options) (rule : Rule) :
    rule.fetch s o = some (rule.run s o) := by
  cases rule with
  | classNaming => exact Fetching.classNames_eq o
  | blockSeparation => exact Fetching.separation_eq h o
  | braceSpacing => exact Fetching.braces_eq o
  | braceAlignment => exact Fetching.alignments_eq h o
  | colonSpacing => exact Fetching.colons_eq h o
  | hexColors => exact Fetching.colors_eq h o
  | zeroUnits => exact Fetching.zeros_eq h o
  | commaSpacing => exact Fetching.commas_eq h o
  | fileEnd => exact Fetching.fileEnd_eq o
  | _ => rfl

/-- Findings of the rules that are wanted, one rule after the other. -/
theorem Stylesheet.validate_eq (s : Stylesheet) (o : Options) :
    s.validate o [] =
      ((Rule.all.filter (·.isWanted o)).map fun rule => rule.run s o).flatten.filter
        fun d => o.enabled d.rule := by
  have hrules (rules : List Rule) :
      (rules.map RuleSource.registered).flatMap (RuleSource.findings s o) =
        ((rules.filter (·.isWanted o)).map fun rule => rule.run s o).flatten := by
    induction rules with
    | nil => rfl
    | cons rule rest ih =>
      rw [List.map_cons, List.flatMap_cons, ih, List.filter_cons]
      have hfindings : RuleSource.findings s o (RuleSource.registered rule) =
          if rule.isWanted o then rule.run s o else [] := rfl
      rw [hfindings]
      by_cases hwanted : rule.isWanted o = true
      · rw [if_pos hwanted, if_pos hwanted]
        rfl
      · rw [if_neg hwanted, if_neg hwanted]
        rfl
  rw [validate, List.append_nil, hrules]

/-- **No lookup of a check fails.** Let a text and options be given. Every number that the
stylesheet of the text records is the number of something: those of colons, of the tokens of values
and preludes and of those in front of them, of lines, and of nodes; and the ruleset around a node
has a lesser number than the node. So every rule can be run with everything fetched that it looks up
by number, and with a walk up the nodes of no more steps than there are nodes, and it has the
findings that it has; and so has the check. -/
theorem check_fetches (file : String) (text : Text) (o : Options) :
    (Stylesheet.ofText file text).1.Addressed ∧
      (∀ rule : Rule, rule.fetch (Stylesheet.ofText file text).1 o =
        some (rule.run (Stylesheet.ofText file text).1 o)) ∧
      fetchingCheck file text o = some (check file text o) := by
  have haddressed := Stylesheet.addressed_ofText file text
  have hfetch := Rule.fetch_eq haddressed o
  refine ⟨haddressed, hfetch, ?_⟩
  unfold fetchingCheck check rawFindings
  dsimp only
  rw [mapM_eq_some fun rule _ => hfetch rule, Option.map_some, Stylesheet.validate_eq]

end HouseStyle
