/-
HouseStyle.Proofs.SelectorLists — a selector list loses nothing but blanks and comments.

What stands in front of the brace of a ruleset is cut into entries at some of its commas, and every
entry that holds more than trivia is recorded as a selector. An entry that holds nothing else is
reported at the brace, together with all others like it in the same list. If there is none, the
recorded selectors and the commas between them are the recorded prelude, apart from blanks
(`selector_lists_complete`).

The cut counts how deep the brackets are, without telling parentheses from brackets, and never below
zero; the end of a statement is found with a stack of the closing kinds that are awaited, which
passes over all others. In front of the same token the two can disagree. Where the brackets of the
list are balanced they agree, and both say what one expects: a comma cuts the list exactly if no
parenthesis or bracket goes around it.

## How the proof goes

Whether a comma cuts the list depends only on the depth in front of it, whatever comes behind
(`Nesting.splitsAt_iff`). A balanced row leaves the stack and the depth as they were, and the front
of such a row only adds to them, the same number to both (`Balanced.exists_leaves`). So at a comma
of a balanced row the depth is zero exactly if the stack is empty, and the stack is not empty
exactly if the comma is enclosed (`Balanced.enclosed_iff`).
-/
import HouseStyle.Proofs.Brackets
import HouseStyle.Proofs.ClassPlaces

namespace HouseStyle

/-! ## 1. Where lists are cut -/

namespace Nesting

/-- The depth of brackets behind a row of tokens. -/
def depthOver (depth : Nat) (row : List Token) : Nat :=
  row.foldl (fun depth t => depthBehind depth t.kind) depth

/-- The entries of the list are those of what stands in front of a comma and of what stands behind
it. -/
def SplitsAt (es : List (List Token)) (front back : List Token) : Prop :=
  ∃ before after, es = before ++ after ∧ Separated front before ∧ Separated back after

variable {depth : Nat} {t : Token} {front back : List Token}

theorem entries_append (kind : t.kind = .comma) (h : depthOver depth front = 0) :
    entries depth (front ++ t :: back) = entries depth front ++ entries 0 back := by
  induction front generalizing depth with
  | nil =>
    obtain rfl : depth = 0 := h
    exact entries_of_comma kind back
  | cons u front ih =>
    rw [List.cons_append]
    by_cases hcut : u.kind = .comma ∧ depth = 0
    · obtain ⟨hu, rfl⟩ := hcut
      have hdepth : depthOver 0 front = 0 := by simpa [depthOver, depthBehind, hu] using h
      rw [entries_of_comma hu, entries_of_comma hu, ih hdepth]
      rfl
    · rw [entries_cons hcut, entries_cons hcut, ih h, consFirst_append (entries_ne_nil _ _)]

/-- A comma separates entries only where no bracket is open. -/
theorem depthOver_of_splitsAt (h : SplitsAt (entries depth (front ++ t :: back)) front back) :
    depthOver depth front = 0 := by
  obtain ⟨before, after, hes, hbefore, hafter⟩ := h
  induction front generalizing depth before with
  | nil =>
    -- nothing stands in front of the comma, so it does not belong to the first entry
    obtain rfl := hbefore.of_nil
    by_contra hdepth
    have hgo : ¬(t.kind = .comma ∧ depth = 0) := fun h => hdepth h.2
    rw [List.nil_append, entries_cons hgo] at hes
    obtain ⟨first, hfirst, -⟩ := consFirst_eq_cons (entries_ne_nil _ _) hes
    cases hfirst
  | cons u front ih =>
    rw [List.cons_append] at hes
    by_cases hcut : u.kind = .comma ∧ depth = 0
    · obtain ⟨hu, rfl⟩ := hcut
      rw [entries_of_comma hu] at hes
      have hbehind : depthOver 0 (u :: front) = depthOver 0 front := by
        simp [depthOver, depthBehind, hu]
      rw [hbehind]
      rcases hbefore.of_cons with ⟨more, rfl, hmore⟩ | ⟨first, more, rfl, -⟩
      · exact ih more (List.cons.inj hes).2 hmore
      · cases (List.cons.inj hes).1
    · rw [entries_cons hcut] at hes
      rcases hbefore.of_cons with ⟨more, rfl, -⟩ | ⟨first, more, rfl, hmore⟩
      · obtain ⟨first, hfirst, -⟩ := consFirst_eq_cons (entries_ne_nil _ _) hes
        cases hfirst
      · obtain ⟨first', hfirst, hrest⟩ := consFirst_eq_cons (entries_ne_nil _ _) hes
        obtain ⟨-, rfl⟩ := List.cons.inj hfirst
        exact ih (first :: more) hrest hmore

/-- A comma cuts the list exactly if the depth in front of it is zero. -/
theorem splitsAt_iff (kind : t.kind = .comma) :
    SplitsAt (entries depth (front ++ t :: back)) front back ↔ depthOver depth front = 0 := by
  refine ⟨depthOver_of_splitsAt, fun h => ?_⟩
  exact ⟨entries depth front, entries 0 back, entries_append kind h, separated_entries _ _,
    separated_entries _ _⟩

end Nesting

/-! ## 2. Balanced lists -/

open Nesting Statement

/-- Over the row the stack of awaited kinds grows by the given ones, and the depth of brackets by
their number. -/
def Leaves (row : List Token) (more : List Token.Kind) : Prop :=
  ∀ awaited depth, awaitOver awaited row = more ++ awaited ∧
    depthOver depth row = more.length + depth

theorem awaitOver_append (awaited : List Token.Kind) (row behind : List Token) :
    awaitOver awaited (row ++ behind) = awaitOver (awaitOver awaited row) behind :=
  List.foldl_append

theorem depthOver_append (depth : Nat) (row behind : List Token) :
    depthOver depth (row ++ behind) = depthOver (depthOver depth row) behind :=
  List.foldl_append

namespace Leaves

variable {row behind : List Token} {more further : List Token.Kind} {t opening closing : Token}

theorem nil : Leaves [] [] := fun _ _ => ⟨rfl, (Nat.zero_add _).symm⟩

/-- What two rows leave open is left open by both together. -/
theorem append (h : Leaves row more) (hbehind : Leaves behind further) :
    Leaves (row ++ behind) (further ++ more) := by
  intro awaited depth
  obtain ⟨hawaited, hdepth⟩ := h awaited depth
  obtain ⟨hawaited', hdepth'⟩ := hbehind (more ++ awaited) (more.length + depth)
  constructor
  · rw [awaitOver_append, hawaited, hawaited', List.append_assoc]
  · rw [depthOver_append, hdepth, hdepth', List.length_append, Nat.add_assoc]

theorem neutral (h : t.kind.IsNeutral Token.Kind.brackets) : Leaves [t] [] := by
  intro awaited depth
  show awaitAfter awaited t.kind = awaited ∧ depthBehind depth t.kind = 0 + depth
  rw [Nat.zero_add]
  generalize t.kind = k at h ⊢
  cases k
  case leftParen | rightParen | leftBracket | rightBracket => exact absurd h (by decide)
  all_goals exact ⟨rfl, rfl⟩

/-- What opens is awaited behind it, and what closes is awaited no longer. -/
theorem turn (h : (opening.kind, closing.kind) ∈ Token.Kind.brackets)
    (awaited : List Token.Kind) (depth : Nat) :
    (awaitAfter awaited opening.kind = closing.kind :: awaited ∧
      depthBehind depth opening.kind = depth + 1) ∧
    awaitAfter (closing.kind :: awaited) closing.kind = awaited ∧
      depthBehind (depth + 1) closing.kind = depth := by
  rcases Token.Kind.mem_brackets.1 h with ⟨hopening, hclosing⟩ | ⟨hopening, hclosing⟩
  all_goals
    rw [hopening, hclosing]
    exact ⟨⟨rfl, rfl⟩, rfl, rfl⟩

theorem opens (h : (opening.kind, closing.kind) ∈ Token.Kind.brackets) :
    Leaves [opening] [closing.kind] := by
  intro awaited depth
  obtain ⟨⟨hawaited, hdepth⟩, -⟩ := turn h awaited depth
  exact ⟨hawaited, hdepth.trans (Nat.add_comm _ _)⟩

/-- A group between its brackets leaves nothing open. -/
theorem group (h : (opening.kind, closing.kind) ∈ Token.Kind.brackets)
    (inside : Leaves row []) : Leaves (opening :: (row ++ [closing])) [] := by
  intro awaited depth
  obtain ⟨⟨hopen, hdeeper⟩, hclose, hback⟩ := turn h awaited depth
  obtain ⟨hawaited, hdepth⟩ := inside (closing.kind :: awaited) (depth + 1)
  constructor
  · show awaitOver (awaitAfter awaited opening.kind) (row ++ [closing]) = awaited
    rw [hopen, awaitOver_append, hawaited]
    exact hclose
  · show depthOver (depthBehind depth opening.kind) (row ++ [closing]) = 0 + depth
    rw [hdeeper, depthOver_append, hdepth, List.length_nil, Nat.zero_add, Nat.zero_add]
    exact hback

end Leaves

section

variable {row front back : List Token} {t : Token}

/-- Behind a balanced row the same is awaited as in front of it. -/
theorem Balanced.leaves (h : Balanced Token.Kind.brackets row) : Leaves row [] := by
  induction h with
  | nil => exact .nil
  | neutral kind _ ih => exact (Leaves.neutral kind).append ih
  | @group opening closing inner rest closes _ _ ihInside ihBehind =>
    rw [List.append_cons, ← List.cons_append]
    exact (Leaves.group closes ihInside).append ihBehind

/-- At a place in a balanced row all is still awaited that was in front of the row. -/
theorem Balanced.exists_leaves (h : Balanced Token.Kind.brackets row)
    (hrow : row = front ++ back) : ∃ more, Leaves front more := by
  induction h generalizing front back with
  | nil =>
    obtain ⟨rfl, -⟩ := List.append_eq_nil_iff.1 hrow.symm
    exact ⟨[], .nil⟩
  | neutral kind _ ih =>
    cases front with
    | nil => exact ⟨[], .nil⟩
    | cons u front =>
      obtain ⟨rfl, hrest⟩ := List.cons.inj hrow
      obtain ⟨more, hmore⟩ := ih hrest
      exact ⟨_, (Leaves.neutral kind).append hmore⟩
  | @group opening closing inner rest closes inside _ ihInside ihBehind =>
    cases front with
    | nil => exact ⟨[], .nil⟩
    | cons u front =>
      obtain ⟨rfl, hrest⟩ := List.cons.inj hrow
      rcases List.append_eq_append_iff.1 hrest with ⟨beyond, rfl, hbeyond⟩ | ⟨rest', hinner, -⟩
      · cases beyond with
        | nil =>
          rw [List.append_nil]
          exact ⟨_, (Leaves.opens closes).append inside.leaves⟩
        | cons v beyond =>
          obtain ⟨rfl, hbehind⟩ := List.cons.inj hbeyond
          obtain ⟨more, hmore⟩ := ihBehind hbehind
          rw [List.append_cons, ← List.cons_append]
          exact ⟨_, (Leaves.group closes inside.leaves).append hmore⟩
      · obtain ⟨more, hmore⟩ := ihInside hinner
        exact ⟨_, (Leaves.opens closes).append hmore⟩

/-- Something is awaited at every token that is enclosed. -/
theorem Enclosed.awaitOver_ne_nil (hrow : row = front ++ back)
    (h : Enclosed Token.Kind.brackets row front.length) : awaitOver [] front ≠ [] := by
  obtain ⟨before, opening, closing, within, beyond, rfl, closes, inside⟩ := h.exists_within hrow
  obtain ⟨more, hmore⟩ := inside.exists_leaves rfl
  have hawaited : awaitOver (awaitOver [] before) (opening :: within) =
      (more ++ [closing.kind]) ++ awaitOver [] before :=
    (((Leaves.opens closes).append hmore) _ 0).1
  rw [awaitOver_append, hawaited]
  simp

/-- In a balanced row nothing is awaited at a token that neither opens nor closes anything, unless
it is enclosed. -/
theorem Balanced.enclosed_of_awaitOver (h : Balanced Token.Kind.brackets row)
    (hrow : row = front ++ t :: back) (ht : t.kind.IsNeutral Token.Kind.brackets)
    (hne : awaitOver [] front ≠ []) : Enclosed Token.Kind.brackets row front.length := by
  induction h generalizing front with
  | nil => simp at hrow
  | @neutral u rest kind _ ih =>
    cases front with
    | nil => exact absurd rfl hne
    | cons v front =>
      obtain ⟨rfl, hrest⟩ := List.cons.inj hrow
      have hne' : awaitOver [] front ≠ [] := by
        rw [← List.singleton_append, awaitOver_append, (Leaves.neutral kind [] 0).1] at hne
        exact hne
      have henclosed := (ih hrest hne').append_left [u]
      rwa [List.length_singleton, Nat.add_comm] at henclosed
  | @group opening closing inner rest closes inside _ _ ihBehind =>
    cases front with
    | nil => exact absurd rfl hne
    | cons v front =>
      obtain ⟨rfl, hrest⟩ := List.cons.inj hrow
      rcases List.append_eq_append_iff.1 hrest with
        ⟨beyond, rfl, hbeyond⟩ | ⟨within, rfl, hwithin⟩
      · cases beyond with
        | nil =>
          obtain ⟨rfl, -⟩ := List.cons.inj hbeyond
          exact absurd rfl (ht _ closes).2
        | cons w beyond =>
          obtain ⟨rfl, hbehind⟩ := List.cons.inj hbeyond
          have hsplit : opening :: (inner ++ closing :: beyond) =
              (opening :: (inner ++ [closing])) ++ beyond := by simp
          rw [hsplit, awaitOver_append, ((Leaves.group closes inside.leaves) [] 0).1] at hne
          have henclosed := (ihBehind hbehind hne).append_left (opening :: (inner ++ [closing]))
          rw [← List.length_append, ← hsplit] at henclosed
          simpa using henclosed
      · cases within with
        | nil =>
          obtain ⟨rfl, -⟩ := List.cons.inj hwithin
          exact absurd rfl (ht _ closes).2
        | cons w within =>
          exact ⟨0, _, ⟨[], opening, _, closing, rest, rfl, closes, inside, rfl, rfl⟩, by simp,
            by simp⟩

/-- At a comma of a balanced list the stack is empty exactly if the depth is zero, and both are so
exactly if no parenthesis or bracket goes around the comma. -/
theorem Balanced.enclosed_iff (h : Balanced Token.Kind.brackets (front ++ t :: back))
    (ht : t.kind.IsNeutral Token.Kind.brackets) :
    (Enclosed Token.Kind.brackets (front ++ t :: back) front.length ↔
      awaitOver [] front ≠ []) ∧ (depthOver 0 front = 0 ↔ awaitOver [] front = []) := by
  obtain ⟨more, hmore⟩ := h.exists_leaves rfl
  obtain ⟨hawaited, hdepth⟩ := hmore [] 0
  refine ⟨⟨Enclosed.awaitOver_ne_nil rfl, h.enclosed_of_awaitOver rfl ht⟩, ?_⟩
  rw [hawaited, hdepth, List.append_nil, Nat.add_zero, List.length_eq_zero_iff]

end

/-! ## 3. Findings about empty entries -/

namespace Nesting

variable {setting : Setting} {row : List Token} {brace : Token}

/-- Some entry of the list holds nothing but trivia. -/
def HasEmptyEntry (row : List Token) : Prop :=
  ∃ entry ∈ entries 0 row, ∀ t ∈ entry, t.isTrivia = true

instance (row : List Token) : Decidable (HasEmptyEntry row) :=
  inferInstanceAs (Decidable (∃ entry ∈ entries 0 row, ∀ t ∈ entry, t.isTrivia = true))

/-- No entry is counted exactly if each holds more than trivia. -/
theorem emptyEntries_eq_zero_iff : emptyEntries row = 0 ↔ ¬ HasEmptyEntry row := by
  simp [emptyEntries, HasEmptyEntry, List.countP_eq_zero, Token.trimTrivia_eq_nil_iff]

theorem selectorOf?_eq_none_iff {entry : List Token} :
    selectorOf? entry = none ↔ ∀ t ∈ entry, t.isTrivia = true := by
  rw [← Token.trimTrivia_eq_nil_iff]
  unfold selectorOf?
  split <;> simp_all

/-- A list without a selector has an entry without one. -/
theorem hasEmptyEntry_of_selectorsOf (h : selectorsOf row = []) : HasEmptyEntry row := by
  obtain ⟨entry, more, hentries⟩ := List.exists_cons_of_ne_nil (entries_ne_nil 0 row)
  have hentry : entry ∈ entries 0 row := by
    rw [hentries]
    exact List.mem_cons_self
  rw [selectorsOf, List.filterMap_eq_nil_iff] at h
  exact ⟨entry, hentry, selectorOf?_eq_none_iff.1 (h entry hentry)⟩

/-- A list is reported once if some entry is empty, and otherwise not. -/
theorem length_selectorFindings :
    (selectorFindings setting row brace).length = if HasEmptyEntry row then 1 else 0 := by
  unfold selectorFindings
  dsimp only
  split
  · rename_i hnone
    rw [if_pos (hasEmptyEntry_of_selectorsOf (List.isEmpty_iff.1 hnone))]
    rfl
  split
  · rename_i hzero
    rw [if_neg (emptyEntries_eq_zero_iff.1 hzero)]
    rfl
  · rename_i hsome
    rw [if_pos (not_not.1 (mt emptyEntries_eq_zero_iff.2 hsome))]
    rfl

/-- What is wrong with the selector list of a statement, if it has one. -/
def listFindings (setting : Setting) : Statement → List Diagnostic
  | .opening prelude brace => selectorFindings setting prelude brace
  | _ => []

/-- A finding about a list stands at the brace behind it. -/
theorem at_of_mem_listFindings {st : Statement} {d : Diagnostic}
    (h : d ∈ listFindings setting st) :
    d.rule = .emptySelector ∧ ∃ brace, st.opener? = some brace ∧ d.isAtToken brace = true := by
  cases st with
  | opening prelude brace =>
    have hfinding : ∃ message fix, d = setting.finding .emptySelector brace message fix := by
      unfold listFindings selectorFindings at h
      dsimp only at h
      split at h
      · exact ⟨_, _, List.mem_singleton.1 h⟩
      split at h
      · cases h
      · exact ⟨_, _, List.mem_singleton.1 h⟩
    obtain ⟨message, fix, rfl⟩ := hfinding
    exact ⟨rfl, brace, rfl, (Diagnostic.isAtToken_iff _ _).2 ⟨rfl, rfl⟩⟩
  | _ => cases h

theorem filter_listFindings (setting : Setting) (st : Statement) :
    (listFindings setting st).filter (·.rule == .emptySelector) = listFindings setting st := by
  rw [List.filter_eq_self]
  intro d hd
  simp [(at_of_mem_listFindings hd).1]

/-- The findings of a walk about selector lists are those about the lists of its statements. -/
theorem filter_emptySelector_foldl (setting : Setting) (s : State) (statements : List Statement) :
    (statements.foldl (State.step setting) s).diagnostics.filter (·.rule == .emptySelector) =
      s.diagnostics.filter (·.rule == .emptySelector) ++
        statements.flatMap (listFindings setting) := by
  induction statements generalizing s with
  | nil => exact (List.append_nil _).symm
  | cons st rest ih =>
    have hhere : (s.findingsAt setting st).filter (·.rule == .emptySelector) =
        listFindings setting st := by
      cases st with
      | opening prelude brace => exact filter_listFindings setting (.opening prelude brace)
      | closing brace =>
        rw [State.findingsAt]
        split <;> rfl
      | _ => rfl
    rw [List.foldl_cons, ih, State.diagnostics_step, List.filter_append, hhere, List.append_assoc,
      List.flatMap_cons]

/-- The reports about empty entries are those of the selector lists, statement by statement. -/
theorem filter_emptySelector_parse (file : String) (tokens : List Token) :
    (Stylesheet.parse file tokens).2.filter (·.rule == .emptySelector) =
      (Statement.all tokens).flatMap (listFindings ⟨file, Stylesheet.lastLine tokens⟩) := by
  have hmalformed (setting : Setting) :
      (malformedFindings setting tokens).filter (·.rule == .emptySelector) = [] := by
    rw [List.filter_eq_nil_iff]
    intro d hd
    obtain ⟨t, -, rfl⟩ := List.mem_map.1 hd
    unfold malformedFinding
    dsimp only
    split <;> simp [Setting.finding]
  have hunclosed (setting : Setting) (enclosing : List OpenBlock) :
      (unclosedFindings setting enclosing).filter (·.rule == .emptySelector) = [] := by
    cases enclosing <;> rfl
  rw [Stylesheet.parse]
  dsimp only
  rw [List.filter_append, List.filter_append, hmalformed, hunclosed, State.diagnostics_release,
    walk, filter_emptySelector_foldl, List.append_nil]
  rfl

end Nesting

/-- A finding stands at one token of a text at most. -/
theorem Diagnostic.eq_of_isAtToken {text : Text} {t u : Token} (ht : t ∈ tokenize text)
    (hu : u ∈ tokenize text) {d : Diagnostic} (hat : d.isAtToken t = true)
    (hat' : d.isAtToken u = true) : t = u := by
  obtain ⟨hline, hcolumn⟩ := (isAtToken_iff t d).1 hat
  obtain ⟨hline', hcolumn'⟩ := (isAtToken_iff u d).1 hat'
  have hplace := List.inj_on_of_nodup_map (Token.nodup_places text) ht hu
  exact hplace (Prod.ext (Int.ofNat.inj (hline.symm.trans hline'))
    (Int.ofNat.inj (hcolumn.symm.trans hcolumn')))

/-- The list in front of a brace is reported there once if one of its entries is empty, and nothing
else is reported there as an empty list. -/
theorem Stylesheet.countP_emptySelector (file : String) (text : Text) {prelude : List Token}
    {brace : Token} (hst : .opening prelude brace ∈ Statement.all (tokenize text)) :
    ((ofText file text).2.countP fun d => d.isAtToken brace && d.rule == .emptySelector) =
      if HasEmptyEntry prelude then 1 else 0 := by
  let setting : Setting := ⟨file, lastLine (tokenize text)⟩
  obtain ⟨ahead, behind, hall⟩ := List.append_of_mem hst
  have hbrace : brace ∉ ahead.flatMap Statement.tokens ++ behind.flatMap Statement.tokens := by
    have hnodup := Token.nodup_tokenize text
    rw [← Statement.tokens_all (tokenize text), hall, List.flatMap_append,
      List.flatMap_cons] at hnodup
    have hown : brace ∈ (Statement.opening prelude brace).tokens := by simp [Statement.tokens]
    exact List.disjoint_of_nodup_append
      ((List.perm_append_comm_assoc _ _ _).nodup_iff.1 hnodup) hown
  -- findings about other lists stand at the braces behind those
  have helsewhere (others : List Statement) (hsub : others ⊆ Statement.all (tokenize text))
      (hnot : brace ∉ others.flatMap Statement.tokens) :
      (others.flatMap (listFindings setting)).countP (·.isAtToken brace) = 0 := by
    rw [List.countP_eq_zero]
    intro d hd hat
    obtain ⟨st, hst', hd⟩ := List.mem_flatMap.1 hd
    obtain ⟨-, brace', hopens, hat'⟩ := at_of_mem_listFindings hd
    obtain ⟨hmem, -⟩ := brace_of_opener? (hsub hst') hopens
    have hbrace' : brace' ∈ tokenize text := Statement.subset_of_mem_all (hsub hst') hmem
    have hown : brace ∈ tokenize text :=
      Statement.subset_of_mem_all hst (by simp [Statement.tokens])
    obtain rfl := Diagnostic.eq_of_isAtToken hown hbrace' hat hat'
    exact hnot (List.mem_flatMap.2 ⟨st, hst', hmem⟩)
  have hhere : (listFindings setting (.opening prelude brace)).countP (·.isAtToken brace) =
      (selectorFindings setting prelude brace).length := by
    refine List.countP_eq_length.2 fun d hd => ?_
    have hd' : d ∈ listFindings setting (.opening prelude brace) := hd
    obtain ⟨-, brace', hopens, hat⟩ := at_of_mem_listFindings hd'
    obtain rfl := Option.some.inj hopens
    exact hat
  rw [List.mem_append, not_or] at hbrace
  rw [← List.countP_filter, ofText, filter_emptySelector_parse, hall, List.flatMap_append,
    List.flatMap_cons, List.countP_append, List.countP_append, hhere, length_selectorFindings,
    helsewhere ahead (by simp [hall]) hbrace.1,
    helsewhere behind (fun st h => by simp [hall, h]) hbrace.2, Nat.zero_add, Nat.add_zero]

/-! ## 4. What is recorded of a list -/

namespace Nesting

variable {text : Text} {row : List Token}

/-- Without empty entries the texts of the selectors are those of the entries. -/
theorem map_text_selectorsOf (h : ¬ HasEmptyEntry row) :
    (selectorsOf row).map (·.text) =
      (entries 0 row).map fun entry =>
        Text.squeeze (Token.plainText (Token.trimTrivia entry)) := by
  have hsolid : ∀ entry ∈ entries 0 row, selectorOf? entry ≠ none := fun entry hentry hnone =>
    h ⟨entry, hentry, selectorOf?_eq_none_iff.1 hnone⟩
  rw [selectorsOf]
  generalize entries 0 row = es at hsolid
  induction es with
  | nil => rfl
  | cons entry es ih =>
    obtain ⟨hentry, hes⟩ := List.forall_mem_cons.1 hsolid
    obtain ⟨selector, hselector⟩ := Option.ne_none_iff_exists'.1 hentry
    have htext : selector.text = Text.squeeze (Token.plainText (Token.trimTrivia entry)) := by
      unfold selectorOf? at hselector
      split at hselector
      · cases hselector
      · rename_i t rest htrim
        obtain rfl := Option.some.inj hselector
        rw [htrim]
        rfl
    rw [List.filterMap_cons_some hselector, List.map_cons, List.map_cons, ih hes, htext]

/-- Without empty entries the texts of the selectors, joined with commas, are the text of the list,
apart from blanks. -/
theorem withoutBlanks_selectorsOf (hrow : ∀ t ∈ row, t ∈ tokenize text)
    (h : ¬ HasEmptyEntry row) :
    Text.withoutBlanks (List.intercalate [','] ((selectorsOf row).map (·.text))) =
      Text.withoutBlanks (Token.plainText row) := by
  rw [Text.withoutBlanks_intercalate, Text.withoutBlanks_comma, map_text_selectorsOf h,
    List.map_map, (separated_entries 0 row).withoutBlanks_eq hrow]
  refine congrArg _ (List.map_congr_left fun entry hentry => ?_)
  have hentry' : ∀ t ∈ entry, t ∈ tokenize text := fun t ht =>
    hrow t (mem_of_mem_entries hentry ht)
  rw [Function.comp_apply, Text.withoutBlanks_squeeze, Token.withoutBlanks_trimTrivia hentry']

end Nesting

/-- A ruleset is read off the statement that ends with its opening brace. -/
theorem Stylesheet.exists_opening_of_isRuleset {file : String} {tokens : List Token} {n : Node}
    (hn : n ∈ (parse file tokens).1.rulesets) :
    ∃ prelude brace, Statement.opening prelude brace ∈ Statement.all tokens ∧
      n.block.openBrace = some brace ∧
      { n.block.heading with comment := none } = rulesetHeading prelude brace none := by
  obtain ⟨hmem, hruleset⟩ := List.mem_filter.1 hn
  have hb : (n.block.beginning ((parse file tokens).1.ownerOf? n.index)).plain ∈
      outline 0 0 [] (Statement.all tokens) := by
    rw [← outline_parse file]
    exact List.mem_map_of_mem hmem
  obtain ⟨st, hst, passed, owner, hbegins⟩ := exists_statement_of_mem_outline hb
  cases st with
  | opening prelude brace =>
    have hbeginning := Option.some.inj hbegins
    exact ⟨prelude, brace, hst, (congrArg Beginning.brace hbeginning).symm,
      (congrArg Beginning.heading hbeginning).symm⟩
  | atRule keyword prelude ending =>
    have hshape := congrArg (fun b => b.heading.shape) (Option.some.inj hbegins)
    unfold Node.isRuleset Block.isRuleset at hruleset
    split at hruleset
    · rename_i hblock
      have hblock' : n.block.heading.shape = _ := hshape.symm
      rw [hblock] at hblock'
      cases hblock'
    · cases hruleset
  | _ => cases hbegins

/-! ## 5. Selector lists lose nothing -/

/-- **A selector list loses nothing**, whatever the text is. The list in front of the brace of a
ruleset is cut into entries at some of its commas, and its selectors are the entries that hold more
than trivia. The list is reported at the brace once if some entry holds nothing else, and otherwise
not; then the selectors, joined with commas, are the recorded prelude, apart from blanks. If the
brackets of the list are balanced, a comma cuts it exactly if no parenthesis or bracket goes around
the comma, which is to say that none is awaited in front of it where the end of the statement is
looked for. -/
theorem selector_lists_complete (file : String) (text : Text) :
    let s := (Stylesheet.ofText file text).1
    let found := (Stylesheet.ofText file text).2
    ∀ n ∈ s.rulesets, ∃ prelude brace,
      Statement.opening prelude brace ∈ Statement.all s.tokens ∧
      n.block.openBrace = some brace ∧
      n.selectors = (entries 0 prelude).filterMap selectorOf? ∧
      Separated prelude (entries 0 prelude) ∧
      (let reports := found.countP fun d => d.isAtToken brace && d.rule == .emptySelector
       reports = (if HasEmptyEntry prelude then 1 else 0) ∧
       (reports = 0 →
          Text.withoutBlanks (List.intercalate [','] (n.selectors.map (·.text))) =
            Text.withoutBlanks n.block.heading.prelude)) ∧
      (Balanced Token.Kind.brackets prelude →
        ∀ front t back, prelude = front ++ t :: back → t.kind = .comma →
          (SplitsAt (entries 0 prelude) front back ↔
            ¬ Enclosed Token.Kind.brackets prelude front.length) ∧
          (SplitsAt (entries 0 prelude) front back ↔ Statement.awaitOver [] front = [])) := by
  intro s found n hn
  obtain ⟨prelude, brace, hst, hbrace, hheading⟩ := Stylesheet.exists_opening_of_isRuleset hn
  have hselectors : n.selectors = selectorsOf prelude := by
    have hshape := congrArg Heading.shape hheading
    have hshape' : n.block.heading.shape = .ruleset (selectorsOf prelude) := hshape
    unfold Node.selectors Block.selectors
    rw [hshape']
  have hprelude : n.block.heading.prelude = Text.squeeze (Token.plainText prelude) :=
    congrArg Heading.prelude hheading
  have hcount := Stylesheet.countP_emptySelector file text hst
  refine ⟨prelude, brace, hst, hbrace, hselectors, separated_entries 0 prelude,
    ⟨hcount, fun hzero => ?_⟩, fun hbalanced front t back hsplit kind => ?_⟩
  · have hnone : ¬ HasEmptyEntry prelude := by
      intro hempty
      rw [hcount, if_pos hempty] at hzero
      cases hzero
    have hmem : ∀ t ∈ prelude, t ∈ tokenize text := fun t ht =>
      Statement.subset_of_mem_all hst (List.mem_append_left _ ht)
    rw [hselectors, hprelude, Text.withoutBlanks_squeeze, withoutBlanks_selectorsOf hmem hnone]
  · subst hsplit
    have hneutral : t.kind.IsNeutral Token.Kind.brackets := by
      rw [kind]
      decide
    obtain ⟨henclosed, hdepth⟩ := hbalanced.enclosed_iff hneutral
    rw [splitsAt_iff kind, hdepth]
    exact ⟨by rw [henclosed, not_not], Iff.rfl⟩

/-- A list with a comma between parentheses and one outside. -/
theorem selector_lists_complete_nested :
    let text := ":is(.a, .b), .c \x7b\x7d\n".toList
    let s := (Stylesheet.ofText "a.css" text).1
    ∃ n ∈ s.rulesets, n.selectors.length = 2 ∧
      Text.withoutBlanks (List.intercalate [','] (n.selectors.map (·.text))) =
        Text.withoutBlanks n.block.heading.prelude ∧
      ¬ SplitsAt (entries 0 (s.tokens.take 15)) (s.tokens.take 5) ((s.tokens.take 15).drop 6) ∧
      SplitsAt (entries 0 (s.tokens.take 15)) (s.tokens.take 10) ((s.tokens.take 15).drop 11) := by
  intro text s
  have hnodes : ∃ n ∈ s.rulesets, n.selectors.length = 2 := by decide +kernel
  obtain ⟨n, hn, hlength⟩ := hnodes
  obtain ⟨prelude, brace, hst, -, -, -, ⟨hcount, htext⟩, hsplits⟩ :=
    selector_lists_complete "a.css" text n hn
  obtain rfl : prelude = s.tokens.take 15 := by
    have hranges : ∀ st ∈ Statement.all s.tokens, st.opener?.isSome = true →
        st.range = s.tokens.take 15 := by decide +kernel
    exact hranges _ hst rfl
  have hsolid : ¬ HasEmptyEntry (s.tokens.take 15) := by decide +kernel
  have hbalanced : Balanced Token.Kind.brackets (s.tokens.take 15) := by
    obtain ⟨opening, -, closing, -, hcloses, hrow⟩ : ∃ opening ∈ s.tokens, ∃ closing ∈ s.tokens,
        (opening.kind, closing.kind) ∈ Token.Kind.brackets ∧
        s.tokens.take 15 = s.tokens.take 2 ++
          ((opening :: (((s.tokens.take 9).drop 3) ++ [closing])) ++
            (s.tokens.take 15).drop 10) := by decide +kernel
    rw [hrow]
    refine (balanced_of_neutral ?_).append
      (((balanced_of_neutral ?_).around hcloses).append (balanced_of_neutral ?_))
    all_goals decide +kernel
  obtain ⟨inner, -, outer, -, hinner, houter, hfirst, hsecond⟩ :
      ∃ inner ∈ s.tokens, ∃ outer ∈ s.tokens, inner.kind = .comma ∧ outer.kind = .comma ∧
        s.tokens.take 15 = s.tokens.take 5 ++ inner :: (s.tokens.take 15).drop 6 ∧
        s.tokens.take 15 = s.tokens.take 10 ++ outer :: (s.tokens.take 15).drop 11 := by
    decide +kernel
  have hawaited : Statement.awaitOver [] (s.tokens.take 5) ≠ [] ∧
      Statement.awaitOver [] (s.tokens.take 10) = [] := by decide +kernel
  refine ⟨n, hn, hlength, htext ?_, ?_, ?_⟩
  · rw [hcount, if_neg hsolid]
  · rw [(hsplits hbalanced _ _ _ hfirst hinner).2]
    exact hawaited.1
  · rw [(hsplits hbalanced _ _ _ hsecond houter).2]
    exact hawaited.2

end HouseStyle
