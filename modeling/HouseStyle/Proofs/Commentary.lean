/-
HouseStyle.Proofs.Commentary — which comments a stylesheet records, and what they document.

The comments of a stylesheet are the comment tokens that lie in no statement, each once and in their
order. A comment is attached if it documents a node, and then it documents one only. It documents
the node whose statement follows it, if nothing but blanks, semicolons and at most one line break
lie between the two (`comments_recorded`).

## How the proof goes

A comment is held back at the innermost level until a statement settles what it belongs to. Opening
a block puts that level away, and by then it holds nothing: only the innermost level ever does
(`State.Settled`). So what is held does not depend on blocks, and it can be read off the statements
passed so far (`heldAfter`). A statement adds at most one comment to those that are recorded
(`State.recorded?`), and attaches it just if it begins a node with that comment. From these two
equations for one step everything else follows (`State.Noted`).
-/
import HouseStyle.Proofs.Containment
import HouseStyle.Proofs.Locality
import HouseStyle.Proofs.Standing

namespace HouseStyle

/-- The token is a blank, a semicolon or a line break. -/
def Token.isGap (t : Token) : Bool :=
  t.kind == .whitespace || t.kind == .semicolon || t.kind == .newline

/-! ## 1. Comments among statements -/

namespace Statement

def comment? : Statement → Option Token
  | .comment t => some t
  | _ => none

def isLineBreak : Statement → Bool
  | .lineBreak _ => true
  | _ => false

theorem comment?_eq_some {st : Statement} {t : Token} : st.comment? = some t ↔ st = .comment t := by
  cases st <;> simp [comment?]

/-- The first token of a statement tells whether it is a comment or a gap. -/
theorem comment?_isGap_read (t : Token) (rest : List Token) :
    (read t rest).1.comment? = (if t.isComment then some t else none) ∧
    (read t rest).1.isGap = t.isGap ∧
    (read t rest).1.isLineBreak = (t.kind == .newline) := by
  unfold Token.isComment Token.Kind.isComment Token.isGap read
  cases hk : t.kind with
  | atKeyword =>
    unfold readAtRule
    dsimp only
    split
    · exact ⟨rfl, rfl, rfl⟩
    · split <;> exact ⟨rfl, rfl, rfl⟩
  | _ =>
    first
    | exact ⟨rfl, rfl, rfl⟩
    | unfold readPlain
      dsimp only
      split
      · exact ⟨rfl, rfl, rfl⟩
      · split <;> exact ⟨rfl, rfl, rfl⟩

/-- A comment ends no statement but itself. -/
theorem not_isComment_of_mem_ending_read {t u : Token} {rest : List Token}
    (hu : u ∈ (read t rest).1.ending) :
    (read t rest).1.comment? = some u ∨ u.isComment = false := by
  unfold Token.isComment Token.Kind.isComment
  unfold read at hu ⊢
  cases hk : t.kind with
  | atKeyword =>
    rw [hk] at hu
    unfold readAtRule at hu
    dsimp only at hu
    split at hu
    · cases hu
    · rename_i e more hcut
      split at hu <;> grind [ending, AtRuleEnd.tokens]
  | _ =>
    simp only [hk] at hu
    first
    | (obtain rfl := List.mem_singleton.1 hu; simp [comment?, hk])
    | unfold readPlain at hu
      dsimp only at hu
      split at hu
      · cases hu
      · rename_i e more hcut
        split at hu <;> grind [ending]

/-- The comments among the statements are those that lie in none. -/
theorem comment_mem_all_iff {tokens : List Token} (hnodup : tokens.Nodup) {t : Token} :
    .comment t ∈ all tokens ↔
      t ∈ tokens ∧ t.isComment = true ∧ isStructural tokens t = true := by
  have hparts := perm_range_ending tokens
  rw [isStructural_iff]
  constructor
  · intro h
    have hend : t ∈ (all tokens).flatMap ending :=
      List.mem_flatMap.2 ⟨.comment t, h, List.mem_cons_self⟩
    obtain ⟨first, rest, hread⟩ := exists_read_of_mem_all h
    have hcomment := (comment?_isGap_read first rest).1
    rw [← hread] at hcomment
    refine ⟨hparts.subset (List.mem_append_right _ hend), ?_, fun hin => ?_⟩
    · grind [comment?]
    · exact List.disjoint_of_nodup_append (hparts.nodup_iff.2 hnodup) hin hend
  · rintro ⟨hmem, hcomment, hout⟩
    have hend := (List.mem_append.1 (hparts.mem_iff.2 hmem)).resolve_left hout
    obtain ⟨st, hst, hend⟩ := List.mem_flatMap.1 hend
    obtain ⟨first, rest, rfl⟩ := exists_read_of_mem_all hst
    have hkind := (not_isComment_of_mem_ending_read hend).resolve_right (by simp [hcomment])
    rwa [← comment?_eq_some.1 hkind]

/-- The comments that are statements are those outside every statement. -/
theorem filterMap_comment?_all (text : Text) :
    (all (tokenize text)).filterMap comment? =
      (tokenize text).filter fun t => t.isComment && isStructural (tokenize text) t := by
  have hnodup := Token.nodup_tokenize text
  have hordered := Token.pairwise_offset text
  have hsub : ((all (tokenize text)).filterMap comment?).Sublist (tokenize text) := by
    have hpick : ∀ st ∈ all (tokenize text), ∀ t, st.comment? = some t → t ∈ st.ending := by
      intro st _ t ht
      rw [comment?_eq_some.1 ht]
      exact List.mem_cons_self
    have h := sublist_filterMap_tokens hpick
    rwa [tokens_all] at h
  have hperm : ((all (tokenize text)).filterMap comment?).Perm
      ((tokenize text).filter fun t => t.isComment && isStructural (tokenize text) t) := by
    refine (List.perm_ext_iff_of_nodup (hsub.nodup hnodup) (hnodup.filter _)).2 fun t => ?_
    rw [List.mem_filter, Bool.and_eq_true, ← comment_mem_all_iff hnodup, List.mem_filterMap]
    simp only [comment?_eq_some, exists_eq_right]
  exact hperm.eq_of_pairwise (fun a b _ _ hab hba => absurd (hab.trans hba) (lt_irrefl _))
    (hordered.sublist hsub) (hordered.filter _)

end Statement

/-! ## 2. One statement -/

namespace Nesting

variable {s : State} {st : Statement} {passed : List Statement}

/-- The comment that a statement records. -/
def State.recorded? (s : State) : Statement → Option Comment
  | .lineBreak _ | .filler _ => none
  | .opening _ _ | .atRule _ _ _ => s.level.pending.map fun p => ⟨p.token, s.attaches⟩
  | _ => s.level.pending.map fun p => ⟨p.token, false⟩

/-- The comment that is held behind a statement, if this one is held in front of it. -/
def heldAfter (held : Option Pending) : Statement → Option Pending
  | .comment t => some { token := t }
  | .lineBreak _ => held.map fun p => { p with breaks := p.breaks + 1 }
  | .filler _ => held
  | _ => none

theorem State.comments_release (s : State) (attached : Bool) :
    (s.release attached).comments =
      s.comments ++ (s.level.pending.map fun p => (⟨p.token, attached⟩ : Comment)).toList := by
  unfold release
  split
  · rename_i h
    rw [h]
    exact (List.append_nil _).symm
  · rename_i p h
    rw [h]
    rfl

theorem State.comments_leave (setting : Setting) (s : State) (brace : Token) :
    (s.leave setting brace).comments = s.comments := by
  unfold leave
  split <;> rfl

/-- A statement records at most one comment, behind all others. -/
theorem State.comments_step (setting : Setting) (s : State) (st : Statement) :
    (s.step setting st).comments = s.comments ++ (s.recorded? st).toList := by
  show (s.take setting st).comments = _
  cases st with
  | comment t => exact s.comments_release false
  | lineBreak t => exact (List.append_nil _).symm
  | filler t => exact (List.append_nil _).symm
  | closing brace => exact (comments_leave _ _ _).trans (s.comments_release false)
  | opening prelude brace => exact s.comments_release s.attaches
  | atRule keyword prelude ending => cases ending <;> exact s.comments_release s.attaches
  | plain tokens semicolon =>
    unfold take
    dsimp only
    split <;> exact s.comments_release false

/-- A node that begins is documented by the comment that its statement records as attached. -/
theorem State.comment_beginning? (s : State) (st : Statement) :
    (s.beginning? st).bind (·.heading.comment) = (s.recorded? st).filter (·.attached) := by
  have hdocumentation : s.documentation =
      (s.level.pending.map fun p => (⟨p.token, s.attaches⟩ : Comment)).filter (·.attached) := by
    unfold documentation attaches
    cases s.level.pending with
    | none => rfl
    | some p => by_cases h : p.breaks ≤ 1 <;> simp [Option.filter, h]
  have hdropped : (s.level.pending.map fun p => (⟨p.token, false⟩ : Comment)).filter (·.attached) =
      none := by
    cases s.level.pending <;> rfl
  cases st with
  | opening prelude brace => exact hdocumentation
  | atRule keyword prelude ending => exact hdocumentation
  | lineBreak t => rfl
  | filler t => rfl
  | comment t => exact hdropped.symm
  | closing brace => exact hdropped.symm
  | plain tokens semicolon => exact hdropped.symm

/-! ## 3. What a state knows of comments -/

/-- What a state knows of the comments among the statements passed: only the innermost level holds
one, the one that the statements leave; all others are recorded; and those are attached that
document a node. -/
structure State.Noted (passed : List Statement) (s : State) : Prop where
  innermost : s.Settled
  held : s.level.pending = passed.foldl heldAfter none
  met : s.comments.map (·.token) ++ (s.level.pending.map (·.token)).toList =
    passed.filterMap Statement.comment?
  used : s.begun.filterMap (·.heading.comment) = s.comments.filter (·.attached)

/-- What a statement leaves held. -/
theorem State.pending_step (h : s.Settled) (setting : Setting) (st : Statement) :
    (s.step setting st).level.pending = heldAfter s.level.pending st := by
  show (s.take setting st).level.pending = _
  cases st with
  | comment t => rfl
  | lineBreak t => rfl
  | filler t => rfl
  | closing brace => exact State.pending_step_closing h setting brace
  | opening prelude brace => rfl
  | atRule keyword prelude ending =>
    cases ending with
    | opens brace => rfl
    | _ => exact s.pending_release s.attaches
  | plain tokens semicolon =>
    unfold take
    dsimp only
    split <;> exact s.pending_release false

/-- What is noted about the statements that were passed stays true with one more statement. -/
theorem State.Noted.step (h : s.Noted passed) (setting : Setting) (st : Statement) :
    (s.step setting st).Noted (passed ++ [st]) := by
  constructor
  case innermost => exact h.innermost.step setting st
  case held =>
    rw [State.pending_step h.innermost, h.held, List.foldl_append]
    rfl
  case met =>
    rw [State.comments_step, State.pending_step h.innermost, List.filterMap_append, ← h.met]
    unfold State.recorded? heldAfter
    cases hheld : s.level.pending <;> cases st <;> simp [Statement.comment?]
  case used =>
    rw [State.begun_step, State.comments_step, List.filterMap_append, List.filter_append, h.used,
      List.filterMap_eq_flatMap_toList, ← Option.toList_filter, ← State.comment_beginning?,
      Option.toList_bind]
    rfl

theorem walk_concat (setting : Setting) (front : List Statement) (st : Statement) :
    walk setting (front ++ [st]) = (walk setting front).step setting st := by
  rw [walk, List.foldl_concat]
  rfl

/-- After a walk the comments are recorded, and the last one held, as the statements say. -/
theorem noted_walk (setting : Setting) (passed : List Statement) :
    (walk setting passed).Noted passed := by
  induction passed using List.reverseRecOn with
  | nil => exact ⟨(fun o ho => nomatch ho), rfl, rfl, rfl⟩
  | append_singleton front st ih =>
    rw [walk_concat]
    exact ih.step setting st

/-! ## 4. What is held -/

/-- A gap leaves what is held, and counts its line breaks. -/
theorem foldl_heldAfter_gap (held : Option Pending) {gap : List Statement}
    (hgap : ∀ st ∈ gap, st.isGap = true) :
    gap.foldl heldAfter held = held.map fun p =>
      { p with breaks := p.breaks + gap.countP Statement.isLineBreak } := by
  induction gap generalizing held with
  | nil => exact Option.map_id'.symm
  | cons st gap ih =>
    have hst := hgap st List.mem_cons_self
    rw [List.foldl_cons, ih _ fun u hu => hgap u (List.mem_cons_of_mem _ hu), List.countP_cons]
    cases st with
    | lineBreak t =>
      rw [heldAfter, Option.map_map]
      refine congrArg (Option.map · held) (funext fun p => ?_)
      simp [Statement.isLineBreak]
      omega
    | filler t => rfl
    | _ => cases hst

/-- A comment is held if nothing but a gap came behind it. -/
theorem foldl_heldAfter_eq_some_iff {passed : List Statement} {p : Pending} :
    passed.foldl heldAfter none = some p ↔
      ∃ before gap, passed = before ++ .comment p.token :: gap ∧
        (∀ st ∈ gap, st.isGap = true) ∧ gap.countP Statement.isLineBreak = p.breaks := by
  constructor
  · intro h
    induction passed using List.reverseRecOn generalizing p with
    | nil => cases h
    | append_singleton front st ih =>
      rw [List.foldl_concat] at h
      cases st with
      | comment t =>
        obtain rfl := Option.some.inj h
        exact ⟨front, [], rfl, (fun _ hst => nomatch hst), rfl⟩
      | lineBreak t =>
        obtain ⟨held, hheld, rfl⟩ := Option.map_eq_some_iff.1 h
        obtain ⟨before, gap, rfl, hgap, hbreaks⟩ := ih hheld
        refine ⟨before, gap ++ [.lineBreak t], by simp, ?_, ?_⟩
        · simpa [Statement.isGap, or_imp, forall_and] using hgap
        · simp [hbreaks, Statement.isLineBreak]
      | filler t =>
        obtain ⟨before, gap, rfl, hgap, hbreaks⟩ := ih h
        refine ⟨before, gap ++ [.filler t], by simp, ?_, ?_⟩
        · simpa [Statement.isGap, or_imp, forall_and] using hgap
        · simp [hbreaks, Statement.isLineBreak]
      | _ => cases h
  · rintro ⟨before, gap, rfl, hgap, hbreaks⟩
    rw [List.foldl_append, List.foldl_cons, foldl_heldAfter_gap _ hgap, hbreaks, heldAfter,
      Option.map_some, Nat.zero_add]

/-! ## 5. Where a node begins -/

/-- The count of a walk is the number of tokens that its statements cover. -/
theorem index_walk_eq_covered (setting : Setting) (statements : List Statement) :
    (walk setting statements).index = covered statements := by
  rw [walk, index_foldl]
  exact Nat.zero_add _

/-- Every node was begun by some statement. -/
theorem exists_statement_of_begun {setting : Setting} {statements : List Statement} {k : Nat}
    {b : Beginning} (h : (walk setting statements).begun[k]? = some b) :
    ∃ before st after, statements = before ++ st :: after ∧
      (walk setting before).begun.length = k ∧ (walk setting before).beginning? st = some b := by
  induction statements using List.reverseRecOn with
  | nil => cases h
  | append_singleton front st ih =>
    rw [walk_concat, State.begun_step] at h
    by_cases hk : k < (walk setting front).begun.length
    · rw [List.getElem?_append_left hk] at h
      obtain ⟨before, st', after, rfl, hlength, hbegins⟩ := ih h
      exact ⟨before, st', after ++ [st], by simp, hlength, hbegins⟩
    · rw [List.getElem?_append_right (Nat.le_of_not_lt hk)] at h
      have hsome : (walk setting front).beginning? st = some b :=
        Option.mem_toList.1 (List.mem_of_getElem? h)
      have hzero : k - (walk setting front).begun.length = 0 := by
        have hlt := (List.getElem?_eq_some_iff.1 h).1
        rw [hsome] at hlt
        exact Nat.lt_one_iff.1 hlt
      exact ⟨front, st, [], rfl, by omega, hsome⟩

/-- The extents of the nodes that are still to begin. -/
theorem drop_extents (setting : Setting) (total : Nat) (before after : List Statement) :
    (extents total 0 (before ++ after)).drop (walk setting before).begun.length =
      extents total (covered before) after := by
  induction before using List.reverseRecOn generalizing after with
  | nil => rfl
  | append_singleton front st ih =>
    have hcount := length_extent? total after (walk setting front) st
    rw [index_walk_eq_covered] at hcount
    have hcovered : covered (front ++ [st]) = covered front + st.tokens.length := by
      simp [covered]
    rw [walk_concat, State.begun_step, List.length_append, ← List.drop_drop, List.append_assoc, ih,
      List.singleton_append, extents, ← hcount, List.drop_left, hcovered]

/-- The extent of the node that a statement begins starts with the statement. -/
theorem start_of_extent? {total passed : Nat} {rest : List Statement} {st : Statement} {e : Extent}
    (h : extent? total passed rest st = some e) : e.start = passed := by
  unfold extent? at h
  dsimp only at h
  split at h
  · rw [← Option.some.inj h, Extent.start_ofBlock]
  · rw [← Option.some.inj h, Extent.start_ofBlock]
  · rw [← Option.some.inj h]
  · cases h

end Nesting

namespace Stylesheet

variable {file : String} {tokens : List Token}

/-- A node has the comment that is held in front of its statement, which is where its extent
starts. -/
theorem exists_statement_of_node {n : Node} (hn : n ∈ (parse file tokens).1.nodes) :
    ∃ before st after, Statement.all tokens = before ++ st :: after ∧
      n.comment = (Nesting.walk ⟨file, lastLine tokens⟩ before).documentation ∧
      ∃ e, (parse file tokens).1.extents[n.index]? = some e ∧
        e.start = Nesting.covered before := by
  have hbegun : (Nesting.walk ⟨file, lastLine tokens⟩ (Statement.all tokens)).begun[n.index]? =
      some (n.block.beginning ((parse file tokens).1.ownerOf? n.index)) := by
    rw [← map_beginning_parse, List.getElem?_map, getElem?_index hn]
    rfl
  obtain ⟨before, st, after, hsplit, hlength, hbegins⟩ :=
    Nesting.exists_statement_of_begun hbegun
  refine ⟨before, st, after, hsplit, ?_, ?_⟩
  · cases st with
    | opening prelude brace =>
      exact (congrArg (·.heading.comment) (Option.some.inj hbegins)).symm
    | atRule keyword prelude ending =>
      exact (congrArg (·.heading.comment) (Option.some.inj hbegins)).symm
    | _ => cases hbegins
  · have hcount := Nesting.length_extent? tokens.length after
      (Nesting.walk ⟨file, lastLine tokens⟩ before) st
    rw [hbegins, Nesting.index_walk_eq_covered] at hcount
    cases hextent : Nesting.extent? tokens.length (Nesting.covered before) after st with
    | none =>
      rw [hextent] at hcount
      cases hcount
    | some e =>
      refine ⟨e, ?_, Nesting.start_of_extent? hextent⟩
      have hdrop := Nesting.drop_extents ⟨file, lastLine tokens⟩ tokens.length before (st :: after)
      rw [← hsplit, hlength, Nesting.extents, hextent] at hdrop
      rw [← List.head?_drop]
      exact congrArg List.head? hdrop

end Stylesheet

/-! ## 6. Gaps between statements -/

namespace Statement

variable {ts : List Token} {st : Statement} {gap : List Statement}

/-- A gap is a single token. -/
theorem tokens_read_of_isGap {t : Token} {rest : List Token} (h : (read t rest).1.isGap = true) :
    (read t rest).1.tokens = [t] := by
  have hhead := head?_tokens_read t rest
  cases hread : (read t rest).1 with
  | lineBreak u =>
    rw [hread] at hhead
    exact congrArg (fun v => [v]) (Option.some.inj hhead)
  | filler u =>
    rw [hread] at hhead
    exact congrArg (fun v => [v]) (Option.some.inj hhead)
  | _ =>
    rw [hread] at h
    cases h

/-- A statement is a gap if its tokens are. -/
theorem isGap_iff (hst : st ∈ all ts) :
    st.isGap = true ↔ ∀ t ∈ st.tokens, t.isGap = true := by
  obtain ⟨first, rest, rfl⟩ := exists_read_of_mem_all hst
  have hfirst := (comment?_isGap_read first rest).2.1
  constructor
  · intro hgap t ht
    rw [tokens_read_of_isGap hgap, List.mem_singleton] at ht
    rw [ht, ← hfirst, hgap]
  · intro htokens
    rw [hfirst]
    exact htokens first (List.mem_of_head? (head?_tokens_read first rest))

/-- A gap is a single line break, or holds none. -/
theorem countP_newline_of_isGap (hst : st ∈ all ts) (hgap : st.isGap = true) :
    st.tokens.countP (·.kind == .newline) = if st.isLineBreak = true then 1 else 0 := by
  obtain ⟨first, rest, rfl⟩ := exists_read_of_mem_all hst
  rw [tokens_read_of_isGap hgap, List.countP_singleton, (comment?_isGap_read first rest).2.2]

/-- The line breaks of a gap are its statements that are one. -/
theorem countP_newline_of_gap (hread : ∀ st ∈ gap, st ∈ all ts)
    (hgap : ∀ st ∈ gap, st.isGap = true) :
    (gap.flatMap tokens).countP (·.kind == .newline) = gap.countP isLineBreak := by
  induction gap with
  | nil => rfl
  | cons st gap ih =>
    rw [List.flatMap_cons, List.countP_append, List.countP_cons,
      countP_newline_of_isGap (hread st List.mem_cons_self) (hgap st List.mem_cons_self),
      ih (fun u hu => hread u (List.mem_cons_of_mem _ hu))
        (fun u hu => hgap u (List.mem_cons_of_mem _ hu)), Nat.add_comm]

end Statement

/-! ## 7. Comments of a text -/

/-- In front of the token with number `start` stands the comment, with nothing but blanks,
semicolons and at most one line break in between. -/
def Comment.StandsAbove (tokens : List Token) (start : Nat) (c : Comment) : Prop :=
  ∃ front gap, tokens.take start = front ++ c.token :: gap ∧
    (∀ t ∈ gap, t.isGap = true) ∧ gap.countP (·.kind == .newline) ≤ 1

/-- A comment that is a statement stands above the token behind a row of statements if it is among
them, with nothing but a gap behind it. -/
theorem Statement.standsAbove_iff {tokens : List Token} (hnodup : tokens.Nodup)
    {before after : List Statement} (hsplit : all tokens = before ++ after) {c : Comment}
    (hc : .comment c.token ∈ all tokens) :
    c.StandsAbove tokens (Nesting.covered before) ↔
      ∃ front gap, before = front ++ .comment c.token :: gap ∧ (∀ st ∈ gap, st.isGap = true) ∧
        gap.countP isLineBreak ≤ 1 := by
  have hall : before.flatMap Statement.tokens ++ after.flatMap Statement.tokens = tokens := by
    rw [← List.flatMap_append, ← hsplit, tokens_all]
  have htake : tokens.take (Nesting.covered before) = before.flatMap Statement.tokens := by
    rw [← hall]
    exact List.take_left
  have hread : ∀ st ∈ before, st ∈ all tokens := fun st hst => by
    rw [hsplit]
    exact List.mem_append_left _ hst
  rw [← hall] at hnodup
  unfold Comment.StandsAbove
  rw [htake]
  constructor
  · rintro ⟨front, gap, hbefore, hgap, hbreaks⟩
    have hin : c.token ∈ before.flatMap Statement.tokens := by
      rw [hbefore]
      exact List.mem_append_right _ List.mem_cons_self
    have hmem : .comment c.token ∈ before := by
      rw [hsplit] at hc
      refine (List.mem_append.1 hc).resolve_right fun hbehind => ?_
      exact List.disjoint_of_nodup_append hnodup hin
        (List.mem_flatMap.2 ⟨_, hbehind, List.mem_cons_self⟩)
    obtain ⟨front', gap', rfl⟩ := List.append_of_mem hmem
    obtain rfl : gap'.flatMap Statement.tokens = gap := by
      have honce := (List.nodup_append.1 hnodup).1
      rw [hbefore, List.nodup_append, List.nodup_cons] at honce
      have hsame : front ++ c.token :: gap = front'.flatMap Statement.tokens ++
          c.token :: gap'.flatMap Statement.tokens := by
        rw [← hbefore, List.flatMap_append, List.flatMap_cons]
        rfl
      refine ((List.append_cons_inj_of_notMem (fun hfront => ?_) honce.2.1.1).1 hsame).2.2.symm
      exact honce.2.2 _ hfront _ List.mem_cons_self rfl
    have hread' : ∀ st ∈ gap', st ∈ all tokens := fun st hst => hread st (by simp [hst])
    have hgap' : ∀ st ∈ gap', st.isGap = true := fun st hst =>
      (isGap_iff (hread' st hst)).2 fun t ht => hgap t (List.mem_flatMap.2 ⟨st, hst, ht⟩)
    exact ⟨front', gap', rfl, hgap', countP_newline_of_gap hread' hgap' ▸ hbreaks⟩
  · rintro ⟨front, gap, rfl, hgap, hbreaks⟩
    have hread' : ∀ st ∈ gap, st ∈ all tokens := fun st hst => hread st (by simp [hst])
    refine ⟨front.flatMap Statement.tokens, gap.flatMap Statement.tokens,
      by simp [Statement.tokens], ?_, ?_⟩
    · intro t ht
      obtain ⟨st, hst, ht⟩ := List.mem_flatMap.1 ht
      exact (isGap_iff (hread' st hst)).1 (hgap st hst) t ht
    · rw [countP_newline_of_gap hread' hgap]
      exact hbreaks

/-- A comment that is held documents what comes now, unless more than one line break stands
between. -/
theorem Nesting.State.documentation_eq_some_iff {s : Nesting.State} {c : Comment} :
    s.documentation = some c ↔
      ∃ p, s.level.pending = some p ∧ p.breaks ≤ 1 ∧ c = ⟨p.token, true⟩ := by
  unfold documentation
  cases s.level.pending with
  | none => simp
  | some p =>
    by_cases h : p.breaks ≤ 1
    · simp [h, eq_comm]
    · simp [h]

namespace Stylesheet

variable {file : String} {text : Text}

/-- What the walk over a text knows of its comments, when it has recorded the last of them. -/
theorem tokens_comments (file : String) (tokens : List Token) :
    (parse file tokens).1.comments.map (·.token) =
      (Statement.all tokens).filterMap Statement.comment? := by
  rw [← (Nesting.noted_walk ⟨file, lastLine tokens⟩ (Statement.all tokens)).met]
  show ((Nesting.walk _ _).release false).comments.map _ = _
  rw [Nesting.State.comments_release, List.map_append, ← Option.toList_map, Option.map_map]
  rfl

/-- The comments that document nodes are those that are attached. -/
theorem filterMap_comment_nodes (file : String) (tokens : List Token) :
    (parse file tokens).1.nodes.filterMap Node.comment =
      (parse file tokens).1.comments.filter (·.attached) := by
  have hused := (Nesting.noted_walk ⟨file, lastLine tokens⟩ (Statement.all tokens)).used
  have hdropped : ∀ held : Option Nesting.Pending,
      (held.map fun p => (⟨p.token, false⟩ : Comment)).toList.filter (·.attached) = [] := by
    intro held
    cases held <;> rfl
  rw [← map_beginning_parse, List.filterMap_map] at hused
  show _ = ((Nesting.walk _ _).release false).comments.filter _
  rw [Nesting.State.comments_release, List.filter_append, hdropped, List.append_nil, ← hused]
  rfl

/-- No token is recorded as a comment twice. -/
theorem nodup_tokens_comments (file : String) (text : Text) :
    ((ofText file text).1.comments.map (·.token)).Nodup := by
  rw [ofText, tokens_comments, Statement.filterMap_comment?_all]
  exact (Token.nodup_tokenize text).filter _

/-- A comment that documents a node is recorded, and marked as attached. -/
theorem mem_comments_of_comment {n : Node} (hn : n ∈ (ofText file text).1.nodes) {c : Comment}
    (hc : n.comment = some c) : c ∈ (ofText file text).1.comments ∧ c.attached = true := by
  have hmem : c ∈ (ofText file text).1.nodes.filterMap Node.comment :=
    List.mem_filterMap.2 ⟨n, hn, hc⟩
  rw [ofText, filterMap_comment_nodes] at hmem
  exact List.mem_filter.1 hmem

/-- A comment documents a node if it stands right in front of its statement. -/
theorem comment_eq_some_iff {n : Node} (hn : n ∈ (ofText file text).1.nodes) :
    ∃ e, (ofText file text).1.extents[n.index]? = some e ∧ ∀ c, n.comment = some c ↔
      c ∈ (ofText file text).1.comments ∧ c.StandsAbove (tokenize text) e.start := by
  obtain ⟨before, st, after, hsplit, hcomment, e, he, hstart⟩ := exists_statement_of_node hn
  have hheld : ∀ c, n.comment = some c ↔ c.attached = true ∧ ∃ front gap,
      before = front ++ .comment c.token :: gap ∧ (∀ u ∈ gap, u.isGap = true) ∧
        gap.countP Statement.isLineBreak ≤ 1 := by
    intro c
    rw [hcomment, Nesting.State.documentation_eq_some_iff,
      (Nesting.noted_walk ⟨file, lastLine (tokenize text)⟩ before).held]
    constructor
    · rintro ⟨p, hheld, hbreaks, rfl⟩
      obtain ⟨front, gap, hbefore, hgap, hcount⟩ := Nesting.foldl_heldAfter_eq_some_iff.1 hheld
      exact ⟨rfl, front, gap, hbefore, hgap, hcount ▸ hbreaks⟩
    · rintro ⟨hattached, front, gap, hbefore, hgap, hcount⟩
      refine ⟨⟨c.token, gap.countP Statement.isLineBreak⟩, ?_, hcount, ?_⟩
      · exact Nesting.foldl_heldAfter_eq_some_iff.2 ⟨front, gap, hbefore, hgap, rfl⟩
      · rw [← hattached]
  have hin : ∀ c ∈ (ofText file text).1.comments,
      .comment c.token ∈ Statement.all (tokenize text) := by
    intro c hc
    have htoken : c.token ∈ (ofText file text).1.comments.map (·.token) := List.mem_map_of_mem hc
    rw [ofText, tokens_comments] at htoken
    obtain ⟨u, hu, hu'⟩ := List.mem_filterMap.1 htoken
    rwa [← Statement.comment?_eq_some.1 hu']
  refine ⟨e, he, fun c => ⟨fun hc => ?_, ?_⟩⟩
  · have hmem := (mem_comments_of_comment hn hc).1
    rw [hstart, Statement.standsAbove_iff (Token.nodup_tokenize text) hsplit (hin c hmem)]
    exact ⟨hmem, ((hheld c).1 hc).2⟩
  · rintro ⟨hc, habove⟩
    rw [hstart, Statement.standsAbove_iff (Token.nodup_tokenize text) hsplit (hin c hc)] at habove
    -- what stands there is documented, and no other comment that is recorded has its token
    have hdocuments := (hheld ⟨c.token, true⟩).2 ⟨rfl, habove⟩
    have hrecorded := (mem_comments_of_comment hn hdocuments).1
    rw [hdocuments, List.inj_on_of_nodup_map (nodup_tokens_comments file text) hc hrecorded rfl]

end Stylesheet

/-- **Every comment outside statements is recorded, and documents what it stands above**, whatever
the text is. The comments of a stylesheet are the comment tokens of its text that lie in no
statement, each once and in their order. A comment is attached if it is the comment of one node, and
not attached if it is the comment of none. A node has the comment that stands above the first token
of its statement. -/
theorem comments_recorded (file : String) (text : Text) :
    let s := (Stylesheet.ofText file text).1
    let tokens := tokenize text
    s.comments.map (·.token) =
      tokens.filter (fun t => t.isComment && isStructural tokens t) ∧
    s.comments.Pairwise (fun a b => a.token.offset < b.token.offset) ∧
    (∀ c ∈ s.comments,
      (c.attached = true ↔ s.nodes.countP (fun n => n.comment = some c) = 1) ∧
      (c.attached = false ↔ s.nodes.countP (fun n => n.comment = some c) = 0)) ∧
    ∀ n ∈ s.nodes, ∃ e, s.extents[n.index]? = some e ∧ ∀ c, n.comment = some c ↔
      c ∈ s.comments ∧ c.StandsAbove tokens e.start := by
  intro s tokens
  have htokens : s.comments.map (·.token) =
      tokens.filter (fun t => t.isComment && isStructural tokens t) :=
    (Stylesheet.tokens_comments file tokens).trans (Statement.filterMap_comment?_all text)
  refine ⟨htokens, ?_, ?_, fun n hn => Stylesheet.comment_eq_some_iff hn⟩
  · have hordered := (Token.pairwise_offset text).filter
      fun t => t.isComment && isStructural tokens t
    rw [← htokens, List.pairwise_map] at hordered
    exact hordered
  · intro c hc
    have hnodup : s.comments.Nodup := (Stylesheet.nodup_tokens_comments file text).of_map _
    have hdocuments : s.nodes.filterMap Node.comment = s.comments.filter (·.attached) :=
      Stylesheet.filterMap_comment_nodes file tokens
    have hcount : s.nodes.countP (fun n => n.comment = some c) =
        (s.comments.filter (·.attached)).count c := by
      rw [← hdocuments, List.count_filterMap]
      exact List.countP_congr fun n _ => by simp
    rw [hcount, (hnodup.filter _).count]
    cases hattached : c.attached <;> simp [hc, hattached]

end HouseStyle
