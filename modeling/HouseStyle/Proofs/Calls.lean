/-
HouseStyle.Proofs.Calls — the calls of a value, and what is recorded of them.

A call is a pair of parentheses that match, with an identifier right in front. The pairs of a row
are found by a stack of the open ones, which passes over a closing parenthesis without an open one
(`FunctionCall.pairs`); these are the pairs that go around a balanced row (`Matched`). Every
declaration records one call for each of them that has a name, in order of the closing parentheses,
so that inner calls come before the calls around them (`calls_complete`).

A call is recorded with its name and its arguments. Name, parentheses, arguments and commas between
them are what the value has from the name to the closing parenthesis, apart from blanks and
comments, and the arguments are cut at the commas outside inner parentheses (`FunctionCall.Spells`).

## How the proof goes

The reader keeps a stack of open parentheses with the tokens behind each of them. In front of every
token the stack is a cut of what was read: behind some front each open parenthesis is followed by a
balanced row up to the next one, cut into arguments at its commas (`FunctionCall.Opened`). A token
opens a parenthesis, ends an argument, goes on with one, or closes a parenthesis, which makes the
whole of it a part of the argument around it. That `Opened` is kept says what a pair goes around
when it closes, and what has been recorded of it (`FunctionCall.Opened.calls`). The other half, that
all pairs that match are found, is about balanced rows: a stack passes over them without a change
(`FunctionCall.exists_pairsFrom_balanced`).
-/
import HouseStyle.Proofs.Adjacency
import HouseStyle.Proofs.Brackets
import HouseStyle.Proofs.RecordedTexts

namespace HouseStyle

open Nesting

namespace FunctionCall

/-! ## 1. Parentheses that match -/

/-- The numbers of the parentheses that match in a row of tokens, in order of the closing ones. The
row starts with a token of the given number, inside the parentheses `opened`, innermost first. -/
def pairsFrom (place : Nat) (opened : List Nat) : List Token → List (Nat × Nat)
  | [] => []
  | t :: rest =>
    match t.kind, opened with
    | .leftParen, _ => pairsFrom (place + 1) (place :: opened) rest
    | .rightParen, start :: outer => (start, place) :: pairsFrom (place + 1) outer rest
    | _, _ => pairsFrom (place + 1) opened rest

def pairs (row : List Token) : List (Nat × Nat) := pairsFrom 0 [] row

section

variable {place start : Nat} {opened outer : List Nat} {t : Token} {row : List Token}
  {p : Nat × Nat}

theorem pairsFrom_left (kind : t.kind = .leftParen) (rest : List Token) :
    pairsFrom place opened (t :: rest) = pairsFrom (place + 1) (place :: opened) rest := by
  simp [pairsFrom, kind]

theorem pairsFrom_right (kind : t.kind = .rightParen) (rest : List Token) :
    pairsFrom place (start :: outer) (t :: rest) =
      (start, place) :: pairsFrom (place + 1) outer rest := by
  simp [pairsFrom, kind]

theorem pairsFrom_other (hleft : t.kind ≠ .leftParen) (h : opened = [] ∨ t.kind ≠ .rightParen)
    (rest : List Token) :
    pairsFrom place opened (t :: rest) = pairsFrom (place + 1) opened rest := by
  rw [pairsFrom.eq_def]
  dsimp only
  split <;> simp_all

/-- Pairs close in the row, and open there or were open in front of it. -/
theorem bounds_of_mem_pairsFrom (h : p ∈ pairsFrom place opened row) :
    place ≤ p.2 ∧ (p.1 ∈ opened ∨ place ≤ p.1) := by
  fun_induction pairsFrom place opened row with
  | case1 => cases h
  | case2 place opened t rest kind ih =>
    obtain ⟨hclose, hopen⟩ := ih h
    refine ⟨by omega, ?_⟩
    rcases hopen with hmem | hle
    · rcases List.mem_cons.1 hmem with rfl | hmem
      · exact .inr (Nat.le_refl _)
      · exact .inl hmem
    · exact .inr (by omega)
  | case3 place t rest start outer kind ih =>
    rcases List.mem_cons.1 h with rfl | h
    · exact ⟨Nat.le_refl _, .inl List.mem_cons_self⟩
    · obtain ⟨hclose, hopen⟩ := ih h
      exact ⟨by omega, hopen.imp (List.mem_cons_of_mem _) (by omega)⟩
  | case4 place opened t rest _ _ ih =>
    obtain ⟨hclose, hopen⟩ := ih h
    exact ⟨by omega, hopen.imp id (by omega)⟩

/-- Pairs come in order of the closing parentheses. -/
theorem pairwise_pairsFrom (place : Nat) (opened : List Nat) (row : List Token) :
    (pairsFrom place opened row).Pairwise fun p q => p.2 < q.2 := by
  fun_induction pairsFrom place opened row with
  | case1 => exact List.Pairwise.nil
  | case2 place opened t rest kind ih => exact ih
  | case3 place t rest start outer kind ih =>
    exact List.Pairwise.cons (fun q hq => (bounds_of_mem_pairsFrom hq).1) ih
  | case4 place opened t rest _ _ ih => exact ih

/-- No parenthesis opens two pairs. -/
theorem nodup_pairsFrom (hnodup : opened.Nodup) (hlt : ∀ i ∈ opened, i < place) :
    ((pairsFrom place opened row).map (·.1)).Nodup := by
  fun_induction pairsFrom place opened row with
  | case1 => exact List.nodup_nil
  | case2 place opened t rest kind ih =>
    refine ih (List.nodup_cons.2 ⟨fun hmem => ?_, hnodup⟩) fun i hi => ?_
    · exact Nat.lt_irrefl _ (hlt place hmem)
    · rcases List.mem_cons.1 hi with rfl | hi
      · exact Nat.lt_succ_self _
      · exact Nat.lt_succ_of_lt (hlt i hi)
  | case3 place t rest start outer kind ih =>
    obtain ⟨hstart, houter⟩ := List.nodup_cons.1 hnodup
    have hbefore := hlt start List.mem_cons_self
    rw [List.map_cons]
    refine List.nodup_cons.2 ⟨fun hmem => ?_, ih houter fun i hi => ?_⟩
    · obtain ⟨q, hq, he⟩ := List.mem_map.1 hmem
      rcases (bounds_of_mem_pairsFrom hq).2 with hopen | hle
      · rw [he] at hopen
        exact hstart hopen
      · omega
    · exact Nat.lt_succ_of_lt (hlt i (List.mem_cons_of_mem _ hi))
  | case4 place opened t rest _ _ ih =>
    exact ih hnodup fun i hi => Nat.lt_succ_of_lt (hlt i hi)

/-- Behind the front of a row the pairs of the rest are found. -/
theorem exists_pairsFrom_append (place : Nat) (opened : List Nat) (front rest : List Token) :
    ∃ own opened', pairsFrom place opened (front ++ rest) =
      own ++ pairsFrom (place + front.length) opened' rest := by
  induction front generalizing place opened with
  | nil => exact ⟨[], opened, rfl⟩
  | cons t front ih =>
    have hlength : place + (t :: front).length = place + 1 + front.length := by
      rw [List.length_cons]
      omega
    rw [List.cons_append, hlength]
    by_cases hleft : t.kind = .leftParen
    · rw [pairsFrom_left hleft]
      exact ih _ _
    by_cases hright : t.kind = .rightParen
    · cases opened with
      | nil =>
        rw [pairsFrom_other hleft (.inl rfl)]
        exact ih _ _
      | cons start outer =>
        obtain ⟨own, opened', h⟩ := ih (place + 1) outer
        rw [pairsFrom_right hright, h]
        exact ⟨(start, place) :: own, opened', rfl⟩
    · rw [pairsFrom_other hleft (.inr hright)]
      exact ih _ _

/-- The stack passes over a balanced row without a change. -/
theorem exists_pairsFrom_balanced (h : Balanced Token.Kind.parentheses row) (place : Nat)
    (opened : List Nat) (rest : List Token) :
    ∃ own, pairsFrom place opened (row ++ rest) =
      own ++ pairsFrom (place + row.length) opened rest := by
  induction h generalizing place opened rest with
  | nil => exact ⟨[], rfl⟩
  | @neutral t behind kind _ ih =>
    rw [Token.Kind.isNeutral_parentheses] at kind
    obtain ⟨own, h⟩ := ih (place + 1) opened rest
    refine ⟨own, ?_⟩
    rw [List.cons_append, pairsFrom_other kind.1 (.inr kind.2), h, List.length_cons]
    congr 2
    omega
  | @group opening closing inner behind closes _ _ ihInside ihBehind =>
    obtain ⟨hleft, hright⟩ := Token.Kind.mem_parentheses.1 closes
    obtain ⟨own, hinside⟩ := ihInside (place + 1) (place :: opened) (closing :: (behind ++ rest))
    obtain ⟨own', hbehind⟩ := ihBehind (place + 1 + inner.length + 1) opened rest
    refine ⟨own ++ (place, place + 1 + inner.length) :: own', ?_⟩
    have hlength : place + (opening :: (inner ++ closing :: behind)).length =
        place + 1 + inner.length + 1 + behind.length := by
      simp only [List.length_cons, List.length_append]
      omega
    rw [hlength, List.cons_append, List.append_assoc, List.cons_append, pairsFrom_left hleft,
      hinside, pairsFrom_right hright, hbehind, List.append_assoc]
    rfl

/-- Parentheses around a balanced row are found. -/
theorem mem_pairs_of_matched {i j : Nat} (h : Matched Token.Kind.parentheses row i j) :
    (i, j) ∈ pairs row := by
  obtain ⟨front, opening, inner, closing, back, rfl, closes, inside, rfl, rfl⟩ := h
  obtain ⟨hleft, hright⟩ := Token.Kind.mem_parentheses.1 closes
  obtain ⟨own, opened, hfront⟩ :=
    exists_pairsFrom_append 0 [] front (opening :: (inner ++ closing :: back))
  obtain ⟨own', hinner⟩ :=
    exists_pairsFrom_balanced inside (0 + front.length + 1) ((0 + front.length) :: opened)
      (closing :: back)
  rw [pairs, hfront, pairsFrom_left hleft, hinner, pairsFrom_right hright]
  refine List.mem_append_right _ (List.mem_append_right _ ?_)
  rw [Nat.zero_add, Nat.add_right_comm]
  exact List.mem_cons_self

end

/-! ## 2. Commas and arguments -/

/-- The commas of a row that stand outside the parentheses which open in it, inside `depth` that
opened in front of it. -/
def directCommas (depth : Nat) : List Token → Nat
  | [] => 0
  | t :: rest =>
    match t.kind with
    | .leftParen => directCommas (depth + 1) rest
    | .rightParen => directCommas (depth - 1) rest
    | .comma => (if depth = 0 then 1 else 0) + directCommas depth rest
    | _ => directCommas depth rest

section

variable {t : Token} {row : List Token}

theorem directCommas_left (kind : t.kind = .leftParen) (depth : Nat) (rest : List Token) :
    directCommas depth (t :: rest) = directCommas (depth + 1) rest := by
  simp [directCommas, kind]

theorem directCommas_right (kind : t.kind = .rightParen) (depth : Nat) (rest : List Token) :
    directCommas (depth + 1) (t :: rest) = directCommas depth rest := by
  simp [directCommas, kind]

theorem directCommas_neutral (kind : t.kind.IsNeutral Token.Kind.parentheses) (depth : Nat)
    (rest : List Token) : directCommas depth (t :: rest) =
      (if t.kind = .comma ∧ depth = 0 then 1 else 0) + directCommas depth rest := by
  rw [Token.Kind.isNeutral_parentheses] at kind
  rw [directCommas.eq_def]
  dsimp only
  split <;> simp_all

/-- A balanced row is left at the depth at which it was entered. -/
theorem directCommas_append (h : Balanced Token.Kind.parentheses row) (depth : Nat)
    (rest : List Token) :
    directCommas depth (row ++ rest) = directCommas depth row + directCommas depth rest := by
  induction h generalizing depth rest with
  | nil => exact (Nat.zero_add _).symm
  | neutral kind _ ih =>
    rw [List.cons_append, directCommas_neutral kind, directCommas_neutral kind, ih, Nat.add_assoc]
  | @group opening closing inner behind closes _ _ ihInside ihBehind =>
    obtain ⟨hleft, hright⟩ := Token.Kind.mem_parentheses.1 closes
    rw [List.cons_append, List.append_assoc, List.cons_append, directCommas_left hleft,
      directCommas_left hleft, ihInside, ihInside, directCommas_right hright,
      directCommas_right hright, ihBehind, Nat.add_assoc]

/-- A balanced row adds no argument to the call around it: all its commas lie in parentheses of its
own. -/
theorem directCommas_inside (h : Balanced Token.Kind.parentheses row) (depth : Nat) :
    directCommas (depth + 1) row = 0 := by
  induction h generalizing depth with
  | nil => rfl
  | neutral kind _ ih => simp [directCommas_neutral kind, ih]
  | @group opening closing inner behind closes inside _ ihInside ihBehind =>
    obtain ⟨hleft, hright⟩ := Token.Kind.mem_parentheses.1 closes
    rw [directCommas_left hleft, directCommas_append inside, ihInside, directCommas_right hright,
      ihBehind]

/-- Between parentheses no comma is one of the row around them. -/
theorem directCommas_around (h : Balanced Token.Kind.parentheses row) {opening closing : Token}
    (closes : (opening.kind, closing.kind) ∈ Token.Kind.parentheses) :
    directCommas 0 (opening :: (row ++ [closing])) = 0 := by
  obtain ⟨hleft, hright⟩ := Token.Kind.mem_parentheses.1 closes
  rw [directCommas_left hleft, directCommas_append h, directCommas_inside h,
    directCommas_right hright]
  rfl

end

/-! ## 3. Open parentheses -/

/-- What is known of an open parenthesis behind `front` when the tokens `inner` have come behind it:
its name stands in front of it, and the balanced row behind it is cut into arguments at its own
commas. -/
structure Open.Reads (o : Open) (front : List Token) (paren : Token) (inner : List Token) :
    Prop where
  name : o.name = nameBefore front.getLast?
  covered : o.covered = paren :: inner
  kind : paren.kind = .leftParen
  balanced : Balanced Token.Kind.parentheses inner
  parts : Separated inner (o.complete ++ [o.current])
  commas : directCommas 0 inner = o.complete.length

/-- The open parentheses behind a row of tokens, innermost first, and their numbers. -/
inductive Opened : List Token → List Nat → List Open → Prop where
  | none (front : List Token) : Opened front [] []
  | paren {front : List Token} {places : List Nat} {stack : List Open} {o : Open} {t : Token}
      {inner : List Token} (outer : Opened front places stack) (reads : o.Reads front t inner) :
      Opened (front ++ t :: inner) (front.length :: places) (o :: stack)

section

variable {previous : Option Token} {stack outer : List Open} {o : Open} {t : Token}

theorem callsFrom_left (kind : t.kind = .leftParen) (rest : List Token) :
    callsFrom previous stack (t :: rest) =
      callsFrom (some t) ({ name := nameBefore previous, covered := [t] } :: stack) rest := by
  simp [callsFrom, kind]

theorem callsFrom_comma (kind : t.kind = .comma) (rest : List Token) :
    callsFrom previous (o :: outer) (t :: rest) =
      callsFrom (some t) (o.separate t :: outer) rest := by
  simp [callsFrom, kind]

/-- A closing parenthesis completes the innermost call, if there is a name in front of it, and what
it covers goes to the call around. -/
theorem callsFrom_right (kind : t.kind = .rightParen) (rest : List Token) :
    callsFrom previous (o :: outer) (t :: rest) =
      (if o.name.isEmpty then [] else [o.toCall]) ++
        callsFrom (some t) (extendInnermost (o.covered ++ [t]) outer) rest := by
  simp only [callsFrom, kind]
  split <;> rfl

theorem callsFrom_other (hleft : t.kind ≠ .leftParen)
    (h : stack = [] ∨ t.kind ≠ .rightParen ∧ t.kind ≠ .comma) (rest : List Token) :
    callsFrom previous stack (t :: rest) =
      callsFrom (some t) (extendInnermost [t] stack) rest := by
  rw [callsFrom.eq_def]
  dsimp only
  split <;> simp_all

end

namespace Opened

variable {front inner : List Token} {places : List Nat} {stack : List Open} {o : Open} {t : Token}

/-- An opening parenthesis begins a call of which nothing else has been read. -/
theorem opens (h : Opened front places stack) (kind : t.kind = .leftParen) :
    Opened (front ++ [t]) (front.length :: places)
      ({ name := nameBefore front.getLast?, covered := [t] } :: stack) :=
  .paren h ⟨rfl, rfl, kind, .nil, .last [], rfl⟩

/-- A balanced piece without commas goes on with the argument it stands in. -/
theorem continues (h : Opened front places stack) {piece : List Token}
    (balanced : Balanced Token.Kind.parentheses piece) (commas : directCommas 0 piece = 0) :
    Opened (front ++ piece) places (extendInnermost piece stack) := by
  cases h with
  | none => exact .none _
  | @paren front places stack o t inner outer reads =>
    rw [List.append_assoc, List.cons_append]
    refine .paren outer ⟨reads.name, ?_, reads.kind, reads.balanced.append balanced,
      reads.parts.extend piece, ?_⟩
    · simp [Open.extend, reads.covered]
    · rw [directCommas_append reads.balanced, reads.commas, commas]
      rfl

/-- A comma ends the argument it stands behind. -/
theorem separates (h : Opened front places (o :: stack)) (kind : t.kind = .comma) :
    Opened (front ++ [t]) places (o.separate t :: stack) := by
  have hneutral : t.kind.IsNeutral Token.Kind.parentheses := by
    rw [kind]
    decide
  cases h with
  | @paren front places stack o u inner outer reads =>
    rw [List.append_assoc, List.cons_append]
    refine .paren outer ⟨reads.name, ?_, reads.kind,
      reads.balanced.append (.neutral hneutral .nil), reads.parts.separate kind, ?_⟩
    · simp [Open.separate, reads.covered]
    · rw [directCommas_append reads.balanced, reads.commas, directCommas_neutral hneutral]
      simp [Open.separate, kind, directCommas]

/-- A token that is no comma and no parenthesis goes on with the argument it stands in; outside all
parentheses any token does that opens none. -/
theorem passes (h : Opened front places stack)
    (ht : stack = [] ∨ t.kind ≠ .leftParen ∧ t.kind ≠ .rightParen ∧ t.kind ≠ .comma) :
    Opened (front ++ [t]) places (extendInnermost [t] stack) := by
  rcases ht with rfl | ⟨hleft, hright, hcomma⟩
  · cases h
    exact .none _
  · have hneutral : t.kind.IsNeutral Token.Kind.parentheses := by
      rw [Token.Kind.isNeutral_parentheses]
      simp [hleft, hright]
    refine h.continues (.neutral hneutral .nil) ?_
    rw [directCommas_neutral hneutral]
    simp [hcomma, directCommas]

end Opened

/-! ## 4. What is recorded of a call -/

/-- The call as it is written, with a comma between any two arguments. -/
def text (call : FunctionCall) : Text :=
  call.name ++ ('(' :: (List.intercalate [','] call.arguments ++ [')']))

def isNamed (value : List Token) (i : Nat) : Bool :=
  decide (0 < i) && (value[i - 1]?).any (·.kind == .ident)

/-- The call is what a pair of parentheses of the value and the identifier in front of it say: it is
written like the tokens from the name to the closing parenthesis, apart from blanks and comments,
and has one argument more than there are commas directly between the parentheses. -/
def Spells (value : List Token) (p : Nat × Nat) (call : FunctionCall) : Prop :=
  ∃ front name opening inner closing back,
    value = front ++ name :: opening :: (inner ++ closing :: back) ∧
    p = (front.length + 1, front.length + 1 + inner.length + 1) ∧
    name.kind = .ident ∧ call.name = name.lexeme ∧
    Text.withoutBlanks call.text = Text.withoutBlanks (Token.source
      ((name :: opening :: (inner ++ [closing])).filter fun t => !t.isComment)) ∧
    call.arguments.length = directCommas 0 inner + 1

section

variable {text : Text} {front inner rest value : List Token} {places : List Nat}
  {stack : List Open} {o : Open} {name opening closing t : Token}

/-- What is recorded of an open parenthesis when it closes. -/
theorem Open.Reads.spells (h : o.Reads (front ++ [name]) opening inner)
    (hmem : ∀ t ∈ name :: opening :: (inner ++ [closing]), t ∈ tokenize text)
    (hname : name.kind = .ident) (hclosing : closing.kind = .rightParen) (back : List Token) :
    Spells (front ++ name :: opening :: (inner ++ closing :: back))
      (front.length + 1, front.length + 1 + inner.length + 1) o.toCall := by
  have howner : o.name = name.lexeme := by
    rw [h.name, List.getLast?_concat, nameBefore, if_pos hname]
  refine ⟨front, name, opening, inner, closing, back, rfl, rfl, hname, howner, ?_, ?_⟩
  · have hleft : opening.lexeme = ['('] :=
      Token.lexeme_of_mark? (hmem opening (by simp)) (by rw [h.kind]; rfl)
    have hright : closing.lexeme = [')'] :=
      Token.lexeme_of_mark? (hmem closing (by simp)) (by rw [hclosing]; rfl)
    have hsplit : name :: opening :: (inner ++ [closing]) =
        [name] ++ ([opening] ++ (inner ++ [closing])) := rfl
    have hargs : Text.withoutBlanks (List.intercalate [','] o.toCall.arguments) =
        Text.withoutBlanks (Token.plainText inner) := by
      have hinner : ∀ t ∈ inner, t ∈ tokenize text := fun t ht => hmem t (by simp [ht])
      rw [Text.withoutBlanks_intercalate, Text.withoutBlanks_comma,
        h.parts.withoutBlanks_eq hinner, Open.toCall, List.map_map]
      refine congrArg _ (List.map_congr_left fun part _ => ?_)
      exact Text.withoutBlanks_trim _
    have hcall : o.toCall.text = name.lexeme ++
        (['('] ++ (List.intercalate [','] o.toCall.arguments ++ [')'])) := by
      rw [FunctionCall.text, ← howner]
      rfl
    rw [hcall, ← Token.withoutBlanks_plainText, hsplit, Token.plainText_append,
      Token.plainText_append, Token.plainText_append, Token.plainText_of_kind (by rw [hname]; rfl),
      Token.plainText_of_kind (by rw [h.kind]; rfl),
      Token.plainText_of_kind (by rw [hclosing]; rfl), hleft, hright]
    simp only [Text.withoutBlanks_append, hargs]
  · rw [h.commas]
    simp [Open.toCall]

/-- An open parenthesis has the name of the identifier right in front of it, or none. -/
theorem Open.Reads.named_or (h : o.Reads front opening inner)
    (hvalue : value = front ++ opening :: rest) :
    (isNamed value front.length = false ∧ o.name = []) ∨
      ∃ before name, front = before ++ [name] ∧ name.kind = .ident ∧ o.name = name.lexeme ∧
        isNamed value front.length = true := by
  have hname := h.name
  rcases List.eq_nil_or_concat' front with rfl | ⟨before, name, rfl⟩
  · exact .inl ⟨rfl, hname⟩
  · rw [List.getLast?_concat, nameBefore] at hname
    have hat : value[before.length]? = some name := by simp [hvalue]
    by_cases hident : name.kind = .ident
    · rw [if_pos hident] at hname
      exact .inr ⟨before, name, rfl, hident, hname, by simp [isNamed, hat, hident]⟩
    · rw [if_neg hident] at hname
      exact .inl ⟨by simp [isNamed, hat, hident], hname⟩

/-- When a parenthesis closes, its pair is recorded if it has a name. -/
theorem Open.Reads.records (h : o.Reads front opening inner)
    (hvalue : value = front ++ opening :: (inner ++ closing :: rest))
    (hmem : ∀ t ∈ value, t ∈ tokenize text) (hclosing : closing.kind = .rightParen) :
    List.Forall₂ (Spells value)
      ([(front.length, front.length + inner.length + 1)].filter fun p => isNamed value p.1)
      (if o.name.isEmpty then [] else [o.toCall]) := by
  rcases h.named_or hvalue with ⟨hunnamed, hnone⟩ | ⟨before, name, rfl, hident, hname, hnamed⟩
  · rw [List.filter_cons_of_neg (by simp [hunnamed]), hnone]
    exact .nil
  · have hname' : name ∈ tokenize text := hmem name (by simp [hvalue])
    have hne : o.name.isEmpty = false := by
      rw [hname, List.isEmpty_eq_false_iff]
      exact Token.lexeme_ne_nil hname'
    have hcall : ∀ t ∈ name :: opening :: (inner ++ [closing]), t ∈ tokenize text := by
      intro t ht
      refine hmem t ?_
      simp only [hvalue, List.mem_cons, List.mem_append, List.not_mem_nil, or_false] at ht ⊢
      tauto
    have hspells := h.spells hcall hident hclosing rest
    rw [List.filter_cons, if_pos hnamed, hne, hvalue, List.length_append, List.length_singleton,
      List.append_assoc]
    exact .cons hspells .nil

/-- The pairs that close behind what was read match, and those that have a name are recorded. -/
theorem Opened.calls (hmem : ∀ t ∈ front ++ rest, t ∈ tokenize text)
    (h : Opened front places stack) :
    (∀ p ∈ pairsFrom front.length places rest,
      Matched Token.Kind.parentheses (front ++ rest) p.1 p.2) ∧
    List.Forall₂ (Spells (front ++ rest))
      ((pairsFrom front.length places rest).filter fun p => isNamed (front ++ rest) p.1)
      (callsFrom front.getLast? stack rest) := by
  induction rest generalizing front places stack with
  | nil => exact ⟨by simp [pairsFrom], .nil⟩
  | cons t rest ih =>
    have hread : front ++ t :: rest = (front ++ [t]) ++ rest := by simp
    have hlength : front.length + 1 = (front ++ [t]).length := by simp
    have hlast : some t = (front ++ [t]).getLast? := by simp
    have hgo {places' : List Nat} {stack' : List Open} (h' : Opened (front ++ [t]) places' stack')
        := ih (hread ▸ hmem) h'
    rw [← hlength, ← hlast, ← hread] at hgo
    by_cases hleft : t.kind = .leftParen
    · rw [pairsFrom_left hleft, callsFrom_left hleft]
      exact hgo (h.opens hleft)
    cases h with
    | none =>
      rw [pairsFrom_other hleft (.inl rfl), callsFrom_other hleft (.inl rfl)]
      exact hgo (.none _)
    | @paren before places stack o opening inner outer reads =>
      by_cases hcomma : t.kind = .comma
      · have hright : t.kind ≠ .rightParen := by simp [hcomma]
        rw [pairsFrom_other hleft (.inr hright), callsFrom_comma hcomma]
        exact hgo ((outer.paren reads).separates hcomma)
      by_cases hright : t.kind = .rightParen
      · have hcloses : (opening.kind, t.kind) ∈ Token.Kind.parentheses :=
          Token.Kind.mem_parentheses.2 ⟨reads.kind, hright⟩
        -- the pair as a whole goes on with the argument around it
        have houter : Opened ((before ++ opening :: inner) ++ [t]) places
            (extendInnermost (o.covered ++ [t]) stack) := by
          rw [reads.covered, List.append_assoc]
          exact outer.continues (reads.balanced.around hcloses)
            (directCommas_around reads.balanced hcloses)
        obtain ⟨hmatched, hcalls⟩ := hgo houter
        have hvalue : (before ++ opening :: inner) ++ t :: rest =
            before ++ opening :: (inner ++ t :: rest) := by simp
        have hplace : (before ++ opening :: inner).length = before.length + inner.length + 1 := by
          rw [List.length_append, List.length_cons]
          rfl
        rw [pairsFrom_right hright, callsFrom_right hright, ← List.singleton_append,
          List.filter_append]
        constructor
        · refine List.forall_mem_cons.2 ⟨?_, hmatched⟩
          exact ⟨before, opening, inner, t, rest, hvalue, hcloses, reads.balanced, rfl, hplace⟩
        · refine List.rel_append ?_ hcalls
          rw [hplace]
          exact reads.records hvalue hmem hright
      · rw [pairsFrom_other hleft (.inr hright), callsFrom_other hleft (.inr ⟨hright, hcomma⟩)]
        exact hgo ((outer.paren reads).passes (.inr ⟨hleft, hright, hcomma⟩))

end

end FunctionCall

/-! ## 5. The value of a declaration -/

/-- The calls of a declaration are those of the tokens of its value. -/
theorem Declaration.functions_of_ofTokens? {base : Nat} {front ts back : List Token}
    {d : Declaration} (h : ofTokens? base ts = some d) (hbase : front.length = base) :
    d.functions = functionCalls (d.valueSpan.slice (front ++ (ts ++ back)).toArray) := by
  obtain ⟨name, colon, lead, value, trail, rfl, hd⟩ := exists_readOff h
  subst hbase
  rw [hd.functions_eq, hd.slice_eq]

namespace Stylesheet

variable {file : String} {text : Text} {d : Declaration}

/-- The calls of a declaration are those in the tokens of its value. -/
theorem functions_of_mem_allDeclarations (hd : d ∈ (ofText file text).1.allDeclarations) :
    d.functions = functionCalls (d.valueSpan.slice (tokenize text).toArray) := by
  obtain ⟨before, st, after, hall, hst, -⟩ := exists_split_of_mem_allDeclarations hd
  have htokens := Statement.tokens_all (tokenize text)
  rw [hall, List.flatMap_append, List.flatMap_cons] at htokens
  cases st with
  | plain ts semicolon =>
    rw [Statement.tokens, List.append_assoc] at htokens
    rw [← htokens]
    exact Declaration.functions_of_ofTokens? hst rfl
  | _ => cases hst

end Stylesheet

/-! ## 6. All calls of a value -/

open FunctionCall

/-- **The calls of a value are its named pairs of parentheses**, whatever the text is. The pairs
that a stack finds are those that match, each parenthesis opens one at most, and they come in order
of the closing parentheses, so that a pair inside another comes first. The recorded calls are, in
the same order, those of the pairs with an identifier right in front: one call for each, written
like the tokens from the name to the closing parenthesis, apart from blanks and comments, with one
argument more than there are commas directly inside. -/
theorem calls_complete (file : String) (text : Text) :
    let s := (Stylesheet.ofText file text).1
    ∀ d ∈ s.allDeclarations,
      let value := d.valueSpan.slice s.tokens.toArray
      (∀ i j, (i, j) ∈ pairs value ↔ Matched Token.Kind.parentheses value i j) ∧
      ((pairs value).map (·.1)).Nodup ∧
      ((pairs value).Pairwise fun p q => p.2 < q.2) ∧
      List.Forall₂ (Spells value) ((pairs value).filter fun p => isNamed value p.1)
        d.functions := by
  intro s d hd value
  have hmem : ∀ t ∈ [] ++ value, t ∈ tokenize text := by
    intro t ht
    have hslice : t ∈ d.valueSpan.slice (tokenize text).toArray := ht
    rw [Span.slice_toArray] at hslice
    exact List.mem_of_mem_drop (List.mem_of_mem_take hslice)
  obtain ⟨hmatched, hcalls⟩ := Opened.calls hmem (.none [])
  refine ⟨fun i j => ⟨fun h => hmatched (i, j) h, mem_pairs_of_matched⟩,
    nodup_pairsFrom List.nodup_nil (by simp), pairwise_pairsFrom 0 [] value, ?_⟩
  rw [Stylesheet.functions_of_mem_allDeclarations hd]
  exact hcalls

/-- A call inside a call, with parentheses that have no name and one that is not matched. -/
theorem calls_complete_nested :
    let text := "a \x7b width: calc(1px, rgba(0, (1, 2), 3)) + 2px); \x7d\n".toList
    let s := (Stylesheet.ofText "a.css" text).1
    ∃ d ∈ s.allDeclarations, ∃ inner outer, d.functions = [inner, outer] ∧
      Spells (d.valueSpan.slice s.tokens.toArray) (6, 19) inner ∧
      Spells (d.valueSpan.slice s.tokens.toArray) (1, 20) outer := by
  intro text s
  obtain ⟨d, hd, hpairs⟩ : ∃ d ∈ s.allDeclarations,
      ((pairs (d.valueSpan.slice s.tokens.toArray)).filter fun p =>
        isNamed (d.valueSpan.slice s.tokens.toArray) p.1) = [(6, 19), (1, 20)] := by
    decide +kernel
  obtain ⟨-, -, -, hcalls⟩ := calls_complete "a.css" text d hd
  rw [hpairs] at hcalls
  cases hfunctions : d.functions with
  | nil => simp [hfunctions] at hcalls
  | cons inner more =>
    rw [hfunctions, List.forall₂_cons] at hcalls
    obtain ⟨hinner, hmore⟩ := hcalls
    cases more with
    | nil => simp at hmore
    | cons outer none =>
      rw [List.forall₂_cons] at hmore
      obtain ⟨houter, hnone⟩ := hmore
      obtain rfl := List.forall₂_nil_left_iff.1 hnone
      exact ⟨d, hd, inner, outer, hfunctions, hinner, houter⟩

end HouseStyle
