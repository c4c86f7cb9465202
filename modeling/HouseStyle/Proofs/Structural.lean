/-
HouseStyle.Proofs.Structural — which tokens lie inside a statement.

A statement runs up to the first `;`, `{` or `}` outside parentheses and brackets. Such a token is
structural: it ends a statement or stands between two. All others that look like it belong to the
statement around them, and what keeps them there is a parenthesis or bracket that is still open
(`isStructural_iff_not_swallowed`).

What the cut into statements promises is said once for each statement (`Delimited`). From it and
from the fact that statements cover every token once, the structural tokens of a kind can be read
off the statements, in order and each once (`count_filterMap_all`).
-/
import HouseStyle.Proofs.Walk
import Mathlib.Data.List.Nodup
import Mathlib.Data.List.Perm.Basic

namespace HouseStyle

/-! ## 1. Where statements end -/

namespace Statement

/-- The tokens of a statement from its start up to the token that ends it; what stands between
statements has none. -/
def range : Statement → List Token
  | .opening prelude _ => prelude
  | .atRule keyword prelude _ => keyword :: prelude
  | .plain ts _ => ts
  | _ => []

/-- The token that ends a statement, if one does, or that stands between statements. -/
def ending : Statement → List Token
  | .comment t | .lineBreak t | .filler t | .closing t => [t]
  | .opening _ brace => [brace]
  | .atRule _ _ ending => ending.tokens
  | .plain _ semicolon => semicolon.toList

theorem range_append_ending (st : Statement) : st.range ++ st.ending = st.tokens := by
  cases st <;> rfl

/-- At most one token ends a statement. -/
theorem length_ending_le (st : Statement) : st.ending.length ≤ 1 := by
  cases st with
  | atRule keyword prelude ending => cases ending <;> simp [ending, AtRuleEnd.tokens]
  | plain ts semicolon => cases semicolon <;> simp [ending]
  | _ => exact Nat.le_refl 1

/-- The closing kinds that are awaited behind a row of tokens. -/
def awaitOver (awaited : List Token.Kind) (ts : List Token) : List Token.Kind :=
  ts.foldl (fun awaited t => awaitAfter awaited t.kind) awaited

/-- The token in front of which a row is cut ends a statement, and nothing is awaited there. -/
theorem awaitOver_cut {awaited : List Token.Kind} {ts rest : List Token} {e : Token}
    (h : (cut awaited ts).2 = e :: rest) :
    awaitOver awaited (cut awaited ts).1 = [] ∧ isTerminator e.kind = true := by
  induction ts generalizing awaited with
  | nil => cases h
  | cons t ts ih =>
    rw [cut] at h ⊢
    split at h
    · rename_i hstop
      rw [if_pos hstop]
      rw [Bool.and_eq_true, List.isEmpty_iff] at hstop
      cases h
      exact ⟨hstop.1, hstop.2⟩
    · rename_i hgo
      rw [if_neg hgo]
      exact ih h

/-- In front of the cut something is awaited at every token that could end a statement. -/
theorem awaitOver_ne_nil_of_cut {awaited : List Token.Kind} {ts before after : List Token}
    {t : Token} (h : (cut awaited ts).1 = before ++ t :: after)
    (ht : isTerminator t.kind = true) : awaitOver awaited before ≠ [] := by
  induction ts generalizing awaited before with
  | nil => simp [cut] at h
  | cons u ts ih =>
    rw [cut] at h
    split at h
    · simp at h
    · rename_i hgo
      cases before with
      | nil =>
        obtain ⟨rfl, -⟩ := List.cons.inj h
        rintro (rfl : awaited = [])
        simp [ht] at hgo
      | cons first before =>
        obtain ⟨rfl, hrest⟩ := List.cons.inj h
        exact @ih (awaitAfter awaited u.kind) before hrest

/-- What the cut into statements promises of each of them: a token inside it that could end it
stands behind an open parenthesis or bracket, none is open at its end, and a brace at its end opens
or closes a block. -/
structure Delimited (st : Statement) : Prop where
  inside : ∀ {before after : List Token} {t : Token}, st.range = before ++ t :: after →
    isTerminator t.kind = true → awaitOver [] before ≠ []
  outside : st.ending ≠ [] → awaitOver [] st.range = []
  opener : ∀ t, st.opener? = some t ↔ t ∈ st.ending ∧ t.kind = .leftBrace
  closer : ∀ t, st.closer? = some t ↔ t ∈ st.ending ∧ t.kind = .rightBrace

/-- A statement that runs up to the cut keeps the first two promises. -/
theorem inside_outside_of_cut (st : Statement) (first : Token) (rest : List Token)
    (hk : isTerminator first.kind = false)
    (hrange : st.range = first :: (cut (awaitAfter [] first.kind) rest).1)
    (hending : st.ending ≠ [] → (cut (awaitAfter [] first.kind) rest).2 ≠ []) :
    (∀ {before after : List Token} {t : Token}, st.range = before ++ t :: after →
      isTerminator t.kind = true → awaitOver [] before ≠ []) ∧
    (st.ending ≠ [] → awaitOver [] st.range = []) := by
  refine ⟨fun {before after t} h ht => ?_, fun h => ?_⟩
  · rw [hrange] at h
    cases before with
    | nil =>
      obtain ⟨rfl, -⟩ := List.cons.inj h
      rw [hk] at ht
      cases ht
    | cons u before =>
      obtain ⟨rfl, hrest⟩ := List.cons.inj h
      have hne : awaitOver (awaitAfter [] first.kind) before ≠ [] :=
        awaitOver_ne_nil_of_cut hrest ht
      exact hne
  · rw [hrange]
    obtain ⟨e, more, hcut⟩ := List.exists_cons_of_ne_nil (hending h)
    exact (awaitOver_cut hcut).1

theorem delimited_readAtRule {keyword : Token} (hk : keyword.kind = .atKeyword)
    (rest : List Token) : Delimited (readAtRule keyword rest).1 := by
  have hcut : cut (awaitAfter [] keyword.kind) rest = cut [] rest := by rw [hk]; rfl
  have hbounds := inside_outside_of_cut (readAtRule keyword rest).1 keyword rest
    (by rw [hk]; rfl)
    (by rw [hcut]; unfold readAtRule; dsimp only; split <;> [rfl; split <;> rfl])
    (by
      rw [hcut]
      intro h hnil
      simp [readAtRule, hnil, ending, AtRuleEnd.tokens] at h)
  refine ⟨hbounds.1, hbounds.2, ?_, ?_⟩
  all_goals
    intro t
    unfold readAtRule
    dsimp only
    split
    · simp [opener?, closer?, ending, AtRuleEnd.brace?, AtRuleEnd.tokens]
    · split <;> grind [opener?, closer?, ending, AtRuleEnd.brace?, AtRuleEnd.tokens]

theorem delimited_readPlain {first : Token} (hk : isTerminator first.kind = false)
    (rest : List Token) : Delimited (readPlain first rest).1 := by
  have hbounds := inside_outside_of_cut (readPlain first rest).1 first rest hk
    (by unfold readPlain; dsimp only; split <;> [rfl; split <;> rfl])
    (by
      intro h hnil
      simp [readPlain, hnil, ending] at h)
  refine ⟨hbounds.1, hbounds.2, ?_, ?_⟩
  all_goals
    intro t
    unfold readPlain
    dsimp only
    split
    · simp [opener?, closer?, ending]
    · split <;> grind [opener?, closer?, ending]

theorem delimited_read (t : Token) (rest : List Token) : Delimited (read t rest).1 := by
  unfold read
  split
  case h_8 h => exact delimited_readAtRule h rest
  case h_9 => exact delimited_readPlain (by cases h : t.kind <;> simp_all [isTerminator]) rest
  all_goals
    refine ⟨fun h => by simp [range] at h, fun _ => rfl, ?_, ?_⟩ <;>
      grind [opener?, closer?, ending]

/-- A statement is read where the statements before it stop. -/
theorem exists_read_of_all_eq {ts : List Token} {before after : List Statement} {st : Statement}
    (h : all ts = before ++ st :: after) :
    ∃ first rest, ts = before.flatMap tokens ++ first :: rest ∧ (read first rest).1 = st := by
  induction before generalizing ts with
  | nil =>
    cases ts with
    | nil => simp [all] at h
    | cons first rest =>
      rw [all] at h
      exact ⟨first, rest, rfl, (List.cons.inj h).1⟩
  | cons passed before ih =>
    cases ts with
    | nil => simp [all] at h
    | cons first rest =>
      rw [all] at h
      obtain ⟨rfl, hrest⟩ := List.cons.inj h
      obtain ⟨next, more, hmore, hst⟩ := ih hrest
      refine ⟨next, more, ?_, hst⟩
      rw [List.flatMap_cons, List.append_assoc, ← hmore, read_append]

/-- Every statement of a row is read off some token and what follows it. -/
theorem exists_read_of_mem_all {ts : List Token} {st : Statement} (h : st ∈ all ts) :
    ∃ t rest, st = (read t rest).1 := by
  obtain ⟨before, after, hall⟩ := List.append_of_mem h
  obtain ⟨t, rest, -, hread⟩ := exists_read_of_all_eq hall
  exact ⟨t, rest, hread.symm⟩

theorem delimited_of_mem_all {ts : List Token} {st : Statement} (h : st ∈ all ts) :
    Delimited st := by
  obtain ⟨t, rest, rfl⟩ := exists_read_of_mem_all h
  exact delimited_read t rest

end Statement

/-! ## 2. Structural tokens -/

/-- The token lies in no statement of a row of tokens: it ends one, or stands between two. -/
def isStructural (tokens : List Token) (t : Token) : Bool :=
  (Statement.all tokens).all fun st => !st.range.contains t

/-- The token stands behind a parenthesis or bracket that its statement has left open. -/
def Swallowed (tokens : List Token) (t : Token) : Prop :=
  ∃ st ∈ Statement.all tokens, ∃ before after,
    st.tokens = before ++ t :: after ∧ Statement.awaitOver [] before ≠ []

/-- The tokens of a row are those that lie inside its statements and those that do not. -/
theorem Statement.perm_range_ending (tokens : List Token) :
    ((all tokens).flatMap range ++ (all tokens).flatMap ending).Perm tokens := by
  have h := List.flatMap_append_perm (all tokens) range ending
  simp only [range_append_ending] at h
  rwa [tokens_all tokens] at h

/-- A token is structural unless it lies in the range of a statement. -/
theorem isStructural_iff (tokens : List Token) (t : Token) :
    isStructural tokens t = true ↔ t ∉ (Statement.all tokens).flatMap Statement.range := by
  simp [isStructural]

/-- Of the tokens that could end a statement, those are structural that no open parenthesis or
bracket swallows. -/
theorem isStructural_iff_not_swallowed (tokens : List Token) {t : Token}
    (ht : Statement.isTerminator t.kind = true) :
    isStructural tokens t = true ↔ ¬ Swallowed tokens t := by
  rw [isStructural_iff]
  constructor
  · rintro hout ⟨st, hst, before, after, hsplit, hopen⟩
    have hnot : t ∉ st.range := fun h => hout (List.mem_flatMap.2 ⟨st, hst, h⟩)
    rw [← st.range_append_ending, List.append_eq_append_iff] at hsplit
    have hlen := st.length_ending_le
    rcases hsplit with ⟨more, rfl, hend⟩ | ⟨more, hrange, hend⟩
    · rw [hend] at hlen
      obtain rfl : more = [] := by
        simp at hlen
        exact List.length_eq_zero_iff.1 (by omega)
      rw [List.append_nil] at hopen
      exact hopen ((Statement.delimited_of_mem_all hst).outside (by simp [hend]))
    · cases more with
      | nil =>
        rw [List.append_nil] at hrange
        have hne : st.ending ≠ [] := by rw [← List.nil_append st.ending, ← hend]; simp
        exact hopen (hrange ▸ (Statement.delimited_of_mem_all hst).outside hne)
      | cons u more =>
        obtain ⟨rfl, -⟩ := List.cons.inj hend
        exact hnot (by simp [hrange])
  · intro hfree hin
    obtain ⟨st, hst, hrange⟩ := List.mem_flatMap.1 hin
    obtain ⟨before, after, hsplit⟩ := List.append_of_mem hrange
    refine hfree ⟨st, hst, before, after ++ st.ending, ?_,
      (Statement.delimited_of_mem_all hst).inside hsplit ht⟩
    rw [← st.range_append_ending, hsplit, List.append_assoc]
    rfl

section

variable {tokens : List Token} {pick : Statement → Option Token} {k : Token.Kind}

/-- Tokens picked from the ends of statements stand in the order of the text. -/
theorem sublist_filterMap_tokens {statements : List Statement}
    (hpick : ∀ st ∈ statements, ∀ t, pick st = some t → t ∈ st.ending) :
    (statements.filterMap pick).Sublist (statements.flatMap Statement.tokens) := by
  induction statements with
  | nil => exact List.Sublist.refl _
  | cons st rest ih =>
    have hrest := ih fun st' h => hpick st' (List.mem_cons_of_mem _ h)
    rw [List.flatMap_cons]
    cases hp : pick st with
    | none =>
      rw [List.filterMap_cons_none hp]
      exact hrest.trans (List.sublist_append_right _ _)
    | some t =>
      rw [List.filterMap_cons_some hp, ← st.range_append_ending]
      have ht : [t].Sublist (st.range ++ st.ending) :=
        List.singleton_sublist.2 (List.mem_append_right _ (hpick st List.mem_cons_self t hp))
      exact ht.append hrest

/-- If every token of a kind that ends a statement is picked, then of the tokens of this kind those
are picked that are structural, and each is picked once. -/
theorem count_filterMap_all (hnodup : tokens.Nodup)
    (hpick : ∀ st ∈ Statement.all tokens, ∀ t, pick st = some t ↔ t ∈ st.ending ∧ t.kind = k)
    {t : Token} (ht : t ∈ tokens) :
    ((Statement.all tokens).filterMap pick).count t =
      if t.kind = k ∧ isStructural tokens t = true then 1 else 0 := by
  have hall := Statement.tokens_all tokens
  have hsub := sublist_filterMap_tokens fun st hst t h => ((hpick st hst t).1 h).1
  rw [hall] at hsub
  -- a token lies inside a statement or at the end of one, and not at two places
  have hparts := Statement.perm_range_ending tokens
  have hmem : t ∈ (Statement.all tokens).filterMap pick ↔
      t.kind = k ∧ isStructural tokens t = true := by
    rw [isStructural_iff, List.mem_filterMap]
    constructor
    · rintro ⟨st, hst, hp⟩
      obtain ⟨hend, hk⟩ := (hpick st hst t).1 hp
      refine ⟨hk, fun hin => ?_⟩
      exact List.disjoint_of_nodup_append (hparts.nodup_iff.2 hnodup) hin
        (List.mem_flatMap.2 ⟨st, hst, hend⟩)
    · rintro ⟨hk, hout⟩
      have hend := (List.mem_append.1 (hparts.mem_iff.2 ht)).resolve_left hout
      obtain ⟨st, hst, hend⟩ := List.mem_flatMap.1 hend
      exact ⟨st, hst, (hpick st hst t).2 ⟨hend, hk⟩⟩
  rw [(hsub.nodup hnodup).count]
  simp only [hmem]

end

end HouseStyle
