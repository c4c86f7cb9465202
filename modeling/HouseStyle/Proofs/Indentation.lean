/-
HouseStyle.Proofs.Indentation — the rule about indentation counts the blocks that are open.

The rule has the braces only: going through the tokens it adds one for an opening brace and takes
one away for a closing one, down to zero (`Layout.depthAt`). The walk over the statements has the
blocks. A brace that an open parenthesis or bracket swallows is a brace for the one and none for
the other; if there is no such brace, the two agree at every token, stray and missing braces
included. So what the rule expects in front of a line is what the stylesheet says: two spaces for
every block that is open there (`indentation_counts_blocks`).

## How the proof goes

A statement has its brace at its end, if it has one, so passing its tokens does to the count what
the statement does to the blocks (`foldl_depthAfter_tokens`). What the count is in terms of the
finished stylesheet follows by counting braces: in front of a token there are as many blocks opened
as were closed there and are still open (`length_openers`), and a block is opened in front of where
it is closed. Which tokens are judged is read off the recursion of the rule, one token at a time
(`misplacedFrom_append`); since no two runs of blanks stand next to each other, the text it has in
hand is all that stands in front of a token on its line (`exists_lead`).
-/
import HouseStyle.Proofs.Blanks
import HouseStyle.Proofs.Containment
import HouseStyle.Rule.Layout

namespace HouseStyle

theorem bne_of_not_mem {α : Type} [DecidableEq α] {a : α} {l : List α} (h : a ∉ l) :
    ∀ b ∈ l, (b != a) = true := by
  intro b hb
  rw [bne_iff_ne]
  rintro rfl
  exact h hb

/-! ## 1. The first token of a line -/

/-- The token is the first on its line that is no blank, and `lead` is the text of the blanks in
front of it. -/
def LeadsLine (tokens : List Token) (lead : Text) (t : Token) : Prop :=
  ∃ front blanks back, tokens = front ++ (blanks ++ t :: back) ∧
    (∀ u ∈ front.getLast?, u.kind = .newline) ∧ (∀ u ∈ blanks, u.kind = .whitespace) ∧
    t.kind ≠ .whitespace ∧ lead = Token.source blanks

namespace LeadsLine

variable {text lead lead' : Text} {t u : Token}

theorem mem {tokens : List Token} (h : LeadsLine tokens lead t) : t ∈ tokens := by
  obtain ⟨front, blanks, back, rfl, -⟩ := h
  simp

/-- A token that leads a line stands behind the line of everything that comes before it and is no
blank. -/
theorem line_lt (h : LeadsLine (tokenize text) lead t) (hu : u ∈ tokenize text)
    (hbefore : u.offset < t.offset) (hink : u.kind ≠ .whitespace) : u.line < t.line := by
  obtain ⟨front, blanks, back, htokens, hlast, hblanks, -, -⟩ := h
  have hordered := Token.pairwise_offset text
  have hlines := Token.pairwise_before text
  rw [htokens, ← List.append_assoc] at hordered
  rw [htokens] at hu hlines
  rcases List.mem_append.1 hu with hu | hu
  · rcases List.eq_nil_or_concat' front with rfl | ⟨init, v, rfl⟩
    · cases hu
    · have hsplit : tokenize text = init ++ v :: (blanks ++ t :: back) := by
        simp [htokens]
      have hbreak : v.line < t.line :=
        Token.line_lt_of_newline hsplit (hlast v (by simp)) (by simp)
      rcases List.mem_append.1 hu with hu | hu
      · have hle := (List.pairwise_append.1 (List.pairwise_append.1 hlines).1).2.2 u hu v
          List.mem_cons_self
        unfold Position.Before at hle
        unfold Token.line at hbreak ⊢
        omega
      · rwa [List.mem_singleton.1 hu]
  · rcases List.mem_append.1 hu with hu | hu
    · exact absurd (hblanks u hu) hink
    · rcases List.mem_cons.1 hu with rfl | hu
      · exact absurd hbefore (Nat.lt_irrefl _)
      · have hbehind := List.rel_of_pairwise_cons (List.pairwise_append.1 hordered).2.1 hu
        omega

/-- No two tokens lead the same line. -/
theorem unique (h : LeadsLine (tokenize text) lead t) (h' : LeadsLine (tokenize text) lead' u)
    (hline : t.line = u.line) : t = u := by
  obtain ⟨i, hi⟩ := List.mem_iff_getElem?.1 h.mem
  obtain ⟨j, hj⟩ := List.mem_iff_getElem?.1 h'.mem
  have hink : t.kind ≠ .whitespace := by
    obtain ⟨-, -, -, -, -, -, hink, -⟩ := h
    exact hink
  have hink' : u.kind ≠ .whitespace := by
    obtain ⟨-, -, -, -, -, -, hink, -⟩ := h'
    exact hink
  rcases Nat.lt_trichotomy i j with hlt | rfl | hlt
  · have hless := h'.line_lt h.mem (Token.offset_lt hi hj hlt) hink
    omega
  · rw [hi] at hj
    exact Option.some.inj hj
  · have hless := h.line_lt h'.mem (Token.offset_lt hj hi hlt) hink'
    omega

end LeadsLine

/-! ## 2. What the rule has in hand -/

namespace Layout

variable (starts : List (Nat × Nat))

def depthAt (tokens : List Token) (t : Token) : Nat :=
  (tokens.takeWhile (· != t)).foldl depthAfter 0

/-- The indentation of a line behind a token, as long as nothing else stands on the line. -/
def leadAfter (lead : Option Text) (t : Token) : Option Text :=
  if t.kind = .newline then some []
  else if t.kind = .whitespace then lead.map fun _ => t.lexeme
  else none

def misplaced? (depth : Nat) (lead : Option Text) (t : Token) : Option (Token × Nat × Nat) :=
  match lead with
  | none => none
  | some indent =>
    if t.isVisible && isMisplaced starts depth indent t then
      some (t, expectedIndent depth t, indent.length)
    else none

/-- The report goes token by token: what is wrong at one, and then the rest with depth and
indentation carried on. -/
theorem misplacedFrom_cons (depth : Nat) (lead : Option Text) (t : Token) (rest : List Token) :
    misplacedFrom starts depth lead (t :: rest) =
      (misplaced? starts depth lead t).toList ++
        misplacedFrom starts (depthAfter depth t) (leadAfter lead t) rest := by
  conv_lhs => unfold misplacedFrom
  by_cases hnewline : t.kind = .newline
  · cases lead <;> simp [misplaced?, leadAfter, depthAfter, Token.isVisible, hnewline]
  · cases lead with
    | none => simp [misplaced?, leadAfter, hnewline]
    | some indent =>
      by_cases hblank : t.kind = .whitespace
      · simp [misplaced?, leadAfter, depthAfter, Token.isVisible, hblank]
      · by_cases hwrong : isMisplaced starts depth indent t
        · simp [misplaced?, leadAfter, Token.isVisible, hnewline, hblank, hwrong]
        · simp [misplaced?, leadAfter, Token.isVisible, hnewline, hblank, hwrong]

/-- The rule goes on behind a row of tokens with what it has counted there. -/
theorem misplacedFrom_append (depth : Nat) (lead : Option Text) (front back : List Token) :
    misplacedFrom starts depth lead (front ++ back) =
      misplacedFrom starts depth lead front ++
        misplacedFrom starts (front.foldl depthAfter depth) (front.foldl leadAfter lead) back := by
  induction front generalizing depth lead with
  | nil => rfl
  | cons t front ih =>
    rw [List.cons_append, misplacedFrom_cons, misplacedFrom_cons, ih, List.append_assoc]
    rfl

variable {starts}

/-- What is reported in a row of tokens, by the token where it is. -/
theorem mem_misplacedFrom {depth : Nat} {lead : Option Text} {ts : List Token}
    {x : Token × Nat × Nat} :
    x ∈ misplacedFrom starts depth lead ts ↔
      ∃ front t back, ts = front ++ t :: back ∧
        misplaced? starts (front.foldl depthAfter depth) (front.foldl leadAfter lead) t =
          some x := by
  constructor
  · intro h
    induction ts generalizing depth lead with
    | nil => cases h
    | cons t ts ih =>
      rw [misplacedFrom_cons] at h
      rcases List.mem_append.1 h with h | h
      · exact ⟨[], t, ts, rfl, Option.mem_toList.1 h⟩
      · obtain ⟨front, u, back, rfl, hu⟩ := ih h
        exact ⟨t :: front, u, back, rfl, hu⟩
  · rintro ⟨front, t, back, rfl, h⟩
    rw [misplacedFrom_append, misplacedFrom_cons, h]
    simp

theorem takeWhile_of_split {tokens front back : List Token} {t : Token} (hnodup : tokens.Nodup)
    (h : tokens = front ++ t :: back) : tokens.takeWhile (· != t) = front := by
  have hfront : t ∉ front := by
    intro ht
    rw [h] at hnodup
    exact (List.nodup_append.1 hnodup).2.2 t ht t List.mem_cons_self rfl
  rw [h, List.takeWhile_append_of_pos (bne_of_not_mem hfront)]
  simp

/-- The depth at a token is counted over the tokens in front of it. -/
theorem depthAt_of_split {tokens front back : List Token} {t : Token} (hnodup : tokens.Nodup)
    (h : tokens = front ++ t :: back) : depthAt tokens t = front.foldl depthAfter 0 := by
  rw [depthAt, takeWhile_of_split hnodup h]

/-! ## 3. The text in front of a token on its line -/

/-- A line starts behind a line break, and at the start of the text. -/
theorem foldl_leadAfter_front {front : List Token} (h : ∀ u ∈ front.getLast?, u.kind = .newline) :
    front.foldl leadAfter (some []) = some [] := by
  rcases List.eq_nil_or_concat' front with rfl | ⟨init, v, rfl⟩
  · rfl
  · have hnewline : v.kind = .newline := h v (by simp)
    simp [leadAfter, hnewline]

variable {ts : List Token} {lead : Text}

/-- If the rule has a text in hand, it is that of the blanks which a line starts with. -/
theorem exists_lead (hchain : ts.IsChain fun a b => a.kind = .whitespace → b.kind ≠ .whitespace)
    (h : ts.foldl leadAfter (some []) = some lead) :
    ∃ front blanks, ts = front ++ blanks ∧ (∀ u ∈ front.getLast?, u.kind = .newline) ∧
      (∀ u ∈ blanks, u.kind = .whitespace) ∧ lead = Token.source blanks := by
  induction ts using List.reverseRecOn generalizing lead with
  | nil =>
    obtain rfl := Option.some.inj h
    exact ⟨[], [], rfl, by simp, by simp, rfl⟩
  | append_singleton ts t ih =>
    rw [List.foldl_append, List.foldl_cons, List.foldl_nil, leadAfter] at h
    split at h
    · rename_i hnewline
      obtain rfl := Option.some.inj h
      exact ⟨ts ++ [t], [], by simp, by simpa using hnewline, by simp, rfl⟩
    · split at h
      · rename_i hblank
        obtain ⟨before, hbefore, rfl⟩ := Option.map_eq_some_iff.1 h
        obtain ⟨hinit, -, hlast⟩ := List.isChain_append.1 hchain
        obtain ⟨front, blanks, hts, hfront, hblanks, -⟩ := ih hinit hbefore
        -- in front of one run of blanks there is no other
        have hnone : blanks = [] := by
          rcases List.eq_nil_or_concat' blanks with hnil | ⟨init, w, rfl⟩
          · exact hnil
          · have hw := hlast w (by simp [hts]) t rfl (hblanks w (by simp))
            exact absurd hblank hw
        rw [hnone, List.append_nil] at hts
        refine ⟨ts, [t], rfl, by rwa [hts], by simpa using hblank, ?_⟩
        simp [Token.source]
      · cases h

/-- The rule has the blanks in hand that stand in front of a token on its line. -/
theorem foldl_leadAfter_lead {front blanks : List Token}
    (hchain : (front ++ blanks).IsChain fun a b => a.kind = .whitespace → b.kind ≠ .whitespace)
    (hfront : ∀ u ∈ front.getLast?, u.kind = .newline)
    (hblanks : ∀ u ∈ blanks, u.kind = .whitespace) :
    (front ++ blanks).foldl leadAfter (some []) = some (Token.source blanks) := by
  rw [List.foldl_append, foldl_leadAfter_front hfront]
  match blanks, hchain, hblanks with
  | [], _, _ => rfl
  | [w], _, hblanks =>
    have hblank : w.kind = .whitespace := hblanks w (by simp)
    simp [leadAfter, hblank, Token.source]
  | w :: w' :: more, hchain, hblanks =>
    have hrun := (List.isChain_cons_cons.1 (List.isChain_append.1 hchain).2.1).1
    exact absurd (hblanks w' (by simp)) (hrun (hblanks w (by simp)))

/-- A token stands behind one text on its line. -/
theorem lead_unique {text lead lead' : Text} {t : Token}
    (h : LeadsLine (tokenize text) lead t) (h' : LeadsLine (tokenize text) lead' t) :
    lead = lead' := by
  have hlead {lead : Text} (h : LeadsLine (tokenize text) lead t) :
      ((tokenize text).takeWhile (· != t)).foldl leadAfter (some []) = some lead := by
    obtain ⟨front, blanks, back, htokens, hfront, hblanks, -, rfl⟩ := h
    rw [← List.append_assoc] at htokens
    have hchain := Token.isChain_blank text
    rw [htokens] at hchain
    rw [takeWhile_of_split (Token.nodup_tokenize text) htokens]
    exact foldl_leadAfter_lead (List.isChain_append.1 hchain).1 hfront hblanks
  have hsame := (hlead h).symm.trans (hlead h')
  exact Option.some.inj hsame

/-- What the rule reports, token by token: a token that leads a line, with the indentation that it
expects there. -/
theorem mem_misplacedFrom_iff {text : Text} {starts : List (Nat × Nat)} {x : Token × Nat × Nat} :
    x ∈ misplacedFrom starts 0 (some []) (tokenize text) ↔
      ∃ lead t, LeadsLine (tokenize text) lead t ∧ t.kind ≠ .newline ∧
        isMisplaced starts (depthAt (tokenize text) t) lead t = true ∧
        x = (t, expectedIndent (depthAt (tokenize text) t) t, lead.length) := by
  have hnodup := Token.nodup_tokenize text
  have hchain := Token.isChain_blank text
  rw [mem_misplacedFrom]
  constructor
  · rintro ⟨before, t, back, hsplit, hx⟩
    unfold misplaced? at hx
    split at hx
    · cases hx
    · rename_i lead hlead
      split at hx
      · rename_i hwrong
        obtain rfl := Option.some.inj hx
        simp only [Bool.and_eq_true, Token.isVisible, bne_iff_ne] at hwrong
        obtain ⟨⟨hblank, hnewline⟩, hwrong⟩ := hwrong
        rw [hsplit] at hchain
        obtain ⟨front, blanks, rfl, hfront, hblanks, rfl⟩ :=
          exists_lead (List.isChain_append.1 hchain).1 hlead
        rw [← depthAt_of_split hnodup hsplit] at hwrong ⊢
        refine ⟨_, t, ⟨front, blanks, back, ?_, hfront, hblanks, hblank, rfl⟩, hnewline, hwrong,
          rfl⟩
        rw [hsplit, List.append_assoc]
      · cases hx
  · rintro ⟨lead, t, ⟨front, blanks, back, htokens, hfront, hblanks, hblank, rfl⟩, hnewline,
      hwrong, rfl⟩
    rw [← List.append_assoc] at htokens
    rw [htokens] at hchain
    have hlead := foldl_leadAfter_lead (List.isChain_append.1 hchain).1 hfront hblanks
    have hdepth := depthAt_of_split hnodup htokens
    refine ⟨front ++ blanks, t, back, htokens, ?_⟩
    rw [← hdepth]
    simp [misplaced?, hlead, Token.isVisible, hblank, hnewline, hwrong]

end Layout

/-! ## 4. Two counters -/

/-- No brace of a row of tokens stands behind a parenthesis or bracket that is left open. -/
def NoBraceSwallowed (tokens : List Token) : Prop :=
  ∀ t ∈ tokens, t.kind = .leftBrace ∨ t.kind = .rightBrace → ¬ Swallowed tokens t

namespace Nesting

variable {tokens : List Token} {st : Statement}

/-- Braces end statements, as long as none is swallowed. -/
theorem not_brace_of_mem_range (hfree : NoBraceSwallowed tokens) (hst : st ∈ Statement.all tokens)
    {u : Token} (hu : u ∈ st.range) : u.kind ≠ .leftBrace ∧ u.kind ≠ .rightBrace := by
  have hmem : u ∈ tokens := by
    refine Statement.subset_of_mem_all hst ?_
    rw [← st.range_append_ending]
    exact List.mem_append_left _ hu
  have hnot : ¬ (u.kind = .leftBrace ∨ u.kind = .rightBrace) := by
    intro hkind
    have hterminator : Statement.isTerminator u.kind = true := by
      rcases hkind with hkind | hkind <;> rw [hkind] <;> rfl
    have hstructural := (isStructural_iff_not_swallowed tokens hterminator).2 (hfree u hmem hkind)
    exact (isStructural_iff tokens u).1 hstructural (List.mem_flatMap.2 ⟨st, hst, hu⟩)
  exact not_or.1 hnot

/-- A row without braces leaves the count as it is. -/
theorem foldl_depthAfter_of_no_brace {ts : List Token}
    (h : ∀ u ∈ ts, u.kind ≠ .leftBrace ∧ u.kind ≠ .rightBrace) (depth : Nat) :
    ts.foldl Layout.depthAfter depth = depth := by
  induction ts generalizing depth with
  | nil => rfl
  | cons u ts ih =>
    obtain ⟨hleft, hright⟩ := h u List.mem_cons_self
    have hstep : Layout.depthAfter depth u = depth := by
      unfold Layout.depthAfter
      split
      · exact absurd ‹_› hleft
      · exact absurd ‹_› hright
      · rfl
    rw [List.foldl_cons, hstep]
    exact ih (fun v hv => h v (List.mem_cons_of_mem _ hv)) depth

theorem isSome_opener?_iff (hst : st ∈ Statement.all tokens) :
    st.opener?.isSome ↔ ∃ e ∈ st.ending, e.kind = .leftBrace := by
  simp [Option.isSome_iff_exists, (Statement.delimited_of_mem_all hst).opener]

theorem isSome_closer?_iff (hst : st ∈ Statement.all tokens) :
    st.closer?.isSome ↔ ∃ e ∈ st.ending, e.kind = .rightBrace := by
  simp [Option.isSome_iff_exists, (Statement.delimited_of_mem_all hst).closer]

/-- Passing the tokens of a statement does to the count what the statement does to the number of
open blocks. -/
theorem foldl_depthAfter_tokens (hfree : NoBraceSwallowed tokens) (hst : st ∈ Statement.all tokens)
    (depth : Nat) : st.tokens.foldl Layout.depthAfter depth = depthAfter depth st := by
  have hopens := isSome_opener?_iff hst
  have hcloses := isSome_closer?_iff hst
  rw [← st.range_append_ending, List.foldl_append,
    foldl_depthAfter_of_no_brace fun u hu => not_brace_of_mem_range hfree hst hu]
  unfold depthAfter
  match hend : st.ending, st.length_ending_le with
  | [], _ => simp [hopens, hcloses, hend]
  | [e], _ =>
    by_cases hleft : e.kind = .leftBrace
    · simp [hopens, hend, Layout.depthAfter, hleft]
    · by_cases hright : e.kind = .rightBrace
      · simp [hopens, hcloses, hend, Layout.depthAfter, hright]
      · simp [hopens, hcloses, hend, Layout.depthAfter, hleft, hright]

/-- Counting braces token by token and statement by statement comes to the same, as long as none is
swallowed. -/
theorem foldl_depthAfter_flatMap (hfree : NoBraceSwallowed tokens) {statements : List Statement}
    (hst : ∀ st ∈ statements, st ∈ Statement.all tokens) (depth : Nat) :
    (statements.flatMap Statement.tokens).foldl Layout.depthAfter depth =
      statements.foldl depthAfter depth := by
  induction statements generalizing depth with
  | nil => rfl
  | cons st rest ih =>
    rw [List.flatMap_cons, List.foldl_append, List.foldl_cons,
      foldl_depthAfter_tokens hfree (hst st List.mem_cons_self)]
    exact ih (fun st' h => hst st' (List.mem_cons_of_mem _ h)) _

/-- A walk has as many blocks open as its statements leave open. -/
theorem length_enclosing_foldl (setting : Setting) (s : State) (statements : List Statement) :
    (statements.foldl (State.step setting) s).enclosing.length =
      statements.foldl depthAfter s.enclosing.length := by
  induction statements generalizing s with
  | nil => rfl
  | cons st rest ih => rw [List.foldl_cons, ih, State.length_enclosing_step, List.foldl_cons]

variable {before after : List Statement} {t : Token}

/-- At a token of a statement the count is what the statements in front of it leave open. -/
theorem depthAt_eq (hnodup : tokens.Nodup) (hfree : NoBraceSwallowed tokens)
    (hall : Statement.all tokens = before ++ st :: after) (ht : t ∈ st.tokens) :
    Layout.depthAt tokens t = before.foldl depthAfter 0 := by
  have hst : st ∈ Statement.all tokens := by simp [hall]
  obtain ⟨front, back, hsplit⟩ := List.append_of_mem ht
  have htokens : tokens =
      before.flatMap Statement.tokens ++ front ++
        t :: (back ++ after.flatMap Statement.tokens) := by
    rw [← Statement.tokens_all tokens, hall, List.flatMap_append, List.flatMap_cons, hsplit]
    simp
  -- only the last token of a statement can be a brace, and it is not in front of another
  have hrange : front <+: st.range := by
    have hlength := congrArg List.length (hsplit.symm.trans st.range_append_ending.symm)
    have hending := st.length_ending_le
    simp only [List.length_append, List.length_cons] at hlength
    refine List.prefix_of_prefix_length_le ⟨t :: back, hsplit.symm⟩ ?_ (by omega)
    exact ⟨st.ending, st.range_append_ending⟩
  rw [Layout.depthAt_of_split hnodup htokens, List.foldl_append, foldl_depthAfter_flatMap hfree]
  · exact foldl_depthAfter_of_no_brace
      (fun u hu => not_brace_of_mem_range hfree hst (hrange.subset hu)) _
  · intro st' h
    simp [hall, h]

end Nesting

/-! ## 5. Blocks that are open at a token -/

/-- The number of blocks that are open at a token: opened in front of it, and not closed there or by
the token itself. -/
def Stylesheet.openAt (s : Stylesheet) (t : Token) : Nat :=
  s.nodes.countP fun n =>
    n.block.openBrace.any (fun brace => brace.offset < t.offset) &&
      n.block.closeBrace.all (fun brace => t.offset < brace.offset)

namespace Nesting

theorem matched_append (depth : Nat) (before after : List Statement) :
    matched depth (before ++ after) =
      matched depth before ++ matched (before.foldl depthAfter depth) after := by
  induction before generalizing depth with
  | nil => rfl
  | cons st before ih =>
    rw [List.cons_append, matched_cons, matched_cons, ih, List.append_assoc]
    rfl

/-- Of the blocks that statements open, those that they do not close are left open. -/
theorem length_openers (depth : Nat) (statements : List Statement) :
    depth + (statements.filterMap Statement.opener?).length =
      (matched depth statements).length + statements.foldl depthAfter depth := by
  induction statements generalizing depth with
  | nil => simp [matched, closings]
  | cons st rest ih =>
    have hrest := ih (depthAfter depth st)
    have hhere : depth + (st.opener?.toList).length =
        (if depth = 0 then [] else st.closer?.toList).length + depthAfter depth st := by
      cases st with
      | opening prelude brace => simp [Statement.opener?, Statement.closer?, depthAfter]
      | closing brace =>
        by_cases hzero : depth = 0
        · simp [Statement.opener?, Statement.closer?, depthAfter, hzero]
        · simp only [Statement.opener?, Statement.closer?, depthAfter, hzero, if_false,
            Option.toList_none, Option.toList_some, List.length_nil, List.length_singleton,
            Option.isSome_none, Option.isSome_some, if_true, Bool.false_eq_true]
          omega
      | atRule keyword prelude ending =>
        cases ending <;> simp [Statement.opener?, Statement.closer?, depthAfter, AtRuleEnd.brace?]
      | _ => simp [Statement.opener?, Statement.closer?, depthAfter]
    have hopeners : ((st :: rest).filterMap Statement.opener?).length =
        (st.opener?.toList).length + (rest.filterMap Statement.opener?).length := by
      rw [List.filterMap_cons]
      cases st.opener? with
      | none => simp
      | some brace => simp [Nat.add_comm]
    rw [matched_cons, List.length_append, List.foldl_cons, hopeners]
    omega

/-! The tokens in front of a token, in terms of the statements. -/

section

variable {text : Text} {before after : List Statement} {st : Statement} {t u : Token}

theorem pairwise_offset_of_split (hall : Statement.all (tokenize text) = before ++ st :: after) :
    (before.flatMap Statement.tokens ++
      (st.tokens ++ after.flatMap Statement.tokens)).Pairwise fun a b => a.offset < b.offset := by
  have hordered := Token.pairwise_offset text
  rwa [← Statement.tokens_all (tokenize text), hall, List.flatMap_append, List.flatMap_cons]
    at hordered

/-- The tokens of earlier statements stand further in front. -/
theorem offset_lt_of_before (hall : Statement.all (tokenize text) = before ++ st :: after)
    (ht : t ∈ st.tokens) (hu : u ∈ before.flatMap Statement.tokens) : u.offset < t.offset := by
  obtain ⟨-, -, hacross⟩ := List.pairwise_append.1 (pairwise_offset_of_split hall)
  exact hacross u hu t (List.mem_append_left _ ht)

theorem offset_lt_of_after (hall : Statement.all (tokenize text) = before ++ st :: after)
    (ht : t ∈ st.tokens) (hu : u ∈ after.flatMap Statement.tokens) : t.offset < u.offset := by
  obtain ⟨-, hbehind, -⟩ := List.pairwise_append.1 (pairwise_offset_of_split hall)
  obtain ⟨-, -, hacross⟩ := List.pairwise_append.1 hbehind
  exact hacross t ht u hu

/-- The token that ends a statement stands behind the others. -/
theorem offset_le_of_ending (hall : Statement.all (tokenize text) = before ++ st :: after)
    (ht : t ∈ st.tokens) (hu : u ∈ st.ending) : t.offset ≤ u.offset := by
  obtain ⟨-, hbehind, -⟩ := List.pairwise_append.1 (pairwise_offset_of_split hall)
  obtain ⟨hwithin, -, -⟩ := List.pairwise_append.1 hbehind
  rw [← st.range_append_ending] at hwithin ht
  rcases List.mem_append.1 ht with ht | ht
  · exact Nat.le_of_lt ((List.pairwise_append.1 hwithin).2.2 t ht u hu)
  · have hsame : t = u := by
      match hend : st.ending, st.length_ending_le with
      | [], _ =>
        rw [hend] at ht
        cases ht
      | [e], _ =>
        rw [hend, List.mem_singleton] at ht hu
        rw [ht, hu]
    rw [hsame]

theorem mem_all_of_before (hall : Statement.all (tokenize text) = before ++ st :: after) :
    ∀ st' ∈ before, st' ∈ Statement.all (tokenize text) := by
  intro st' h
  simp [hall, h]

theorem mem_all_of_after (hall : Statement.all (tokenize text) = before ++ st :: after) :
    ∀ st' ∈ after, st' ∈ Statement.all (tokenize text) := by
  intro st' h
  simp [hall, h]

theorem mem_tokens_of_opener {statements : List Statement} {brace : Token}
    (hst : ∀ st ∈ statements, st ∈ Statement.all (tokenize text))
    (h : brace ∈ statements.filterMap Statement.opener?) :
    brace ∈ statements.flatMap Statement.tokens := by
  obtain ⟨st, hmem, hopens⟩ := List.mem_filterMap.1 h
  exact List.mem_flatMap.2 ⟨st, hmem, (brace_of_opener? (hst st hmem) hopens).1⟩

/-- A brace that closes a block is the closing brace of a statement. -/
theorem exists_closer_of_mem_matched {depth : Nat} {statements : List Statement} {brace : Token}
    (h : brace ∈ matched depth statements) : ∃ st ∈ statements, st.closer? = some brace := by
  have hcloser := (perm_matched_strays depth statements).subset (List.mem_append_left _ h)
  exact List.mem_filterMap.1 hcloser

/-- A brace that closes a block stands in one of the statements. -/
theorem mem_tokens_of_matched {depth : Nat} {statements : List Statement} {brace : Token}
    (hst : ∀ st ∈ statements, st ∈ Statement.all (tokenize text))
    (h : brace ∈ matched depth statements) : brace ∈ statements.flatMap Statement.tokens := by
  obtain ⟨st, hmem, hcloses⟩ := exists_closer_of_mem_matched h
  exact List.mem_flatMap.2 ⟨st, hmem, (brace_of_closer? (hst st hmem) hcloses).1⟩

/-- The opening braces in front of a token are those of the statements in front of its own. -/
theorem countP_openers (hall : Statement.all (tokenize text) = before ++ st :: after)
    (ht : t ∈ st.tokens) :
    ((Statement.all (tokenize text)).filterMap Statement.opener?).countP
        (fun brace => brace.offset < t.offset) =
      (before.filterMap Statement.opener?).length := by
  have hbefore :
      (before.filterMap Statement.opener?).countP (fun brace => brace.offset < t.offset) =
        (before.filterMap Statement.opener?).length := by
    refine List.countP_eq_length.2 ?_
    intro brace h
    have hmem := mem_tokens_of_opener (mem_all_of_before hall) h
    simpa using offset_lt_of_before hall ht hmem
  have hbehind : ((st :: after).filterMap Statement.opener?).countP
      (fun brace => brace.offset < t.offset) = 0 := by
    refine List.countP_eq_zero.2 ?_
    intro brace h
    obtain ⟨st', hmem, hopens⟩ := List.mem_filterMap.1 h
    have hst' : st' ∈ Statement.all (tokenize text) := by
      rw [hall]
      exact List.mem_append_right _ hmem
    rcases List.mem_cons.1 hmem with rfl | hmem
    · have hending := (((Statement.delimited_of_mem_all hst').opener brace).1 hopens).1
      simpa using offset_le_of_ending hall ht hending
    · have hlater := offset_lt_of_after hall ht
        (List.mem_flatMap.2 ⟨st', hmem, (brace_of_opener? hst' hopens).1⟩)
      simpa using Nat.le_of_lt hlater
  rw [hall, List.filterMap_append, List.countP_append, hbefore, hbehind, Nat.add_zero]

/-- The closing braces in front of a token that close a block are those of the statements in front
of its own; the token may be one itself. -/
theorem countP_matched (hall : Statement.all (tokenize text) = before ++ st :: after)
    (ht : t ∈ st.tokens) :
    (matched 0 (Statement.all (tokenize text))).countP
        (fun brace => brace.offset ≤ t.offset) =
      (matched 0 before).length +
        (if before.foldl depthAfter 0 = 0 then [] else st.closer?.toList).length := by
  have hbefore : (matched 0 before).countP (fun brace => brace.offset ≤ t.offset) =
      (matched 0 before).length := by
    refine List.countP_eq_length.2 ?_
    intro brace h
    have hmem := mem_tokens_of_matched (mem_all_of_before hall) h
    simpa using Nat.le_of_lt (offset_lt_of_before hall ht hmem)
  have hbehind (depth : Nat) :
      (matched depth after).countP (fun brace => brace.offset ≤ t.offset) = 0 := by
    refine List.countP_eq_zero.2 ?_
    intro brace h
    have hmem := mem_tokens_of_matched (mem_all_of_after hall) h
    simpa using offset_lt_of_after hall ht hmem
  have hhere : (if before.foldl depthAfter 0 = 0 then [] else st.closer?.toList).countP
      (fun brace => brace.offset ≤ t.offset) =
        (if before.foldl depthAfter 0 = 0 then [] else st.closer?.toList).length := by
    refine List.countP_eq_length.2 ?_
    intro brace h
    split at h
    · cases h
    · cases st with
      | closing c =>
        have hc : brace = c := List.mem_singleton.1 h
        have ht' : t = c := List.mem_singleton.1 ht
        simp [hc, ht']
      | _ => cases h
  rw [hall, matched_append, matched_cons, List.countP_append, List.countP_append, hbefore, hhere,
    hbehind, Nat.add_zero]

end

end Nesting

/-- Of the blocks that are opened in front of a token, those are open there that are not closed
there or by the token. -/
theorem Stylesheet.countP_opened (file : String) (text : Text) (t : Token) :
    let s := (ofText file text).1
    (s.nodes.filterMap (·.block.openBrace)).countP (·.offset < t.offset) =
      s.openAt t + (s.nodes.filterMap (·.block.closeBrace)).countP (·.offset ≤ t.offset) := by
  intro s
  have hnode : ∀ n ∈ s.nodes, ∀ c, n.block.closeBrace = some c →
      ∃ o, n.block.openBrace = some o ∧ o.offset < c.offset := by
    intro n hn c hc
    obtain ⟨e, -, hb, -⟩ := exists_extent hn
    cases ho : n.block.openBrace with
    | none =>
      rw [(hb.bare ho).1] at hc
      cases hc
    | some o => exact ⟨o, rfl, hb.offset_lt ho hc⟩
  rw [List.countP_filterMap, List.countP_filterMap, openAt]
  generalize s.nodes = nodes at hnode
  induction nodes with
  | nil => rfl
  | cons n nodes ih =>
    have hrest := ih fun m hm => hnode m (List.mem_cons_of_mem _ hm)
    have hn := hnode n List.mem_cons_self
    rw [List.countP_cons, List.countP_cons, List.countP_cons, hrest]
    cases hc : n.block.closeBrace with
    | none => cases n.block.openBrace <;> simp [Nat.add_right_comm]
    | some c =>
      obtain ⟨o, ho, hlt⟩ := hn c hc
      rw [ho]
      by_cases hclosed : c.offset ≤ t.offset
      · have hopened : o.offset < t.offset := by
          omega
        have hlate : ¬ t.offset < c.offset := by
          omega
        simp [hclosed, hopened, hlate]
        omega
      · have hlate : t.offset < c.offset := by
          omega
        simp [hclosed, hlate]
        omega

/-- The blocks that are open in front of a token are the blocks of the stylesheet that are open
there, and the one that the token closes, if it does. -/
theorem Stylesheet.foldl_depthAfter_eq (file : String) {text : Text} {before after : List Statement}
    {st : Statement} {t : Token}
    (hall : Statement.all (tokenize text) = before ++ st :: after) (ht : t ∈ st.tokens) :
    before.foldl Nesting.depthAfter 0 =
      (ofText file text).1.openAt t +
        (if before.foldl Nesting.depthAfter 0 = 0 then [] else st.closer?.toList).length := by
  have hbalance := Nesting.length_openers 0 before
  have hopened := countP_opened file text t
  have hopeners := Nesting.countP_openers hall ht
  have hmatched := Nesting.countP_matched hall ht
  rw [← filterMap_openBrace file] at hopeners
  rw [← (perm_closeBrace file _).countP_eq] at hmatched
  dsimp only [ofText] at hopened ⊢
  omega

/-! ## 6. The rule -/

/-- A node, a selector, a declaration or a recorded comment stands at this line and column. -/
def Stylesheet.StartsAt (s : Stylesheet) (line column : Nat) : Prop :=
  (∃ n ∈ s.nodes, n.line = line ∧ n.column = column) ∨
  (∃ n ∈ s.nodes, ∃ selector ∈ n.selectors, selector.line = line ∧ selector.column = column) ∨
  (∃ d ∈ s.allDeclarations, d.line = line ∧ d.column = column) ∨
  ∃ c ∈ s.comments, c.line = line ∧ c.column = column

/-- The listed places are those where a node, a selector, a declaration or a comment starts. -/
theorem Layout.mem_statementStarts {s : Stylesheet} {line column : Nat} :
    (line, column) ∈ statementStarts s ↔ s.StartsAt line column := by
  simp only [statementStarts, Stylesheet.StartsAt, List.mem_append, List.mem_flatMap, List.mem_cons,
    List.mem_map, Prod.mk.injEq]
  constructor
  · rintro ((⟨n, hn, ⟨hline, hcolumn⟩ | ⟨x, hx, hplace⟩⟩ | ⟨d, hd, hplace⟩) | ⟨c, hc, hplace⟩)
    · exact .inl ⟨n, hn, hline.symm, hcolumn.symm⟩
    · exact .inr (.inl ⟨n, hn, x, hx, hplace⟩)
    · exact .inr (.inr (.inl ⟨d, hd, hplace⟩))
    · exact .inr (.inr (.inr ⟨c, hc, hplace⟩))
  · rintro (⟨n, hn, hline, hcolumn⟩ | ⟨n, hn, x, hx, hplace⟩ | ⟨d, hd, hplace⟩ | ⟨c, hc, hplace⟩)
    · exact .inl (.inl ⟨n, hn, .inl ⟨hline.symm, hcolumn.symm⟩⟩)
    · exact .inl (.inl ⟨n, hn, .inr ⟨x, hx, hplace⟩⟩)
    · exact .inl (.inr ⟨d, hd, hplace⟩)
    · exact .inr ⟨c, hc, hplace⟩

/-- A line is misplaced if it starts with a brace or a statement, is indented without tabs, and not
by the expected spaces. -/
theorem Layout.isMisplaced_iff {s : Stylesheet} {depth : Nat} {lead : Text} {t : Token} :
    isMisplaced (statementStarts s) depth lead t = true ↔
      (t.kind = .leftBrace ∨ t.kind = .rightBrace ∨ s.StartsAt t.line t.column) ∧
        '\t' ∉ lead ∧ lead ≠ List.replicate (expectedIndent depth t) ' ' := by
  rw [← mem_statementStarts]
  simp [isMisplaced, isJudged, and_assoc, or_assoc, or_left_comm]

/-- Nothing starts at a line break. -/
theorem Stylesheet.StartsAt.ne_newline {file : String} {text : Text} {t : Token}
    (ht : t ∈ tokenize text) (h : (ofText file text).1.StartsAt t.line t.column) :
    t.kind ≠ .newline := by
  have hvisible : VisibleAt (tokenize text) t.line t.column := by
    rcases h with ⟨n, hn, hline, hcolumn⟩ | ⟨n, hn, selector, hselector, hline, hcolumn⟩ |
      ⟨d, hd, hline, hcolumn⟩ | ⟨c, hc, hline, hcolumn⟩
    all_goals rw [← hline, ← hcolumn]
    · exact visibleAt_node hn
    · exact visibleAt_selector hn hselector
    · exact visibleAt_declaration hd
    · exact visibleAt_comment hc
  obtain ⟨u, hu, hvisible, hline, hcolumn⟩ := hvisible
  have hsame : t = u := List.inj_on_of_nodup_map (Token.nodup_places text) ht hu
    (Prod.ext hline hcolumn)
  subst hsame
  intro hnewline
  simp [Token.isVisible, hnewline] at hvisible

/-- What the rule expects in front of a token is two spaces for every block that is open there. -/
theorem Layout.expectedIndent_eq (file : String) {text : Text}
    (hfree : NoBraceSwallowed (tokenize text)) {t : Token} (ht : t ∈ tokenize text) :
    expectedIndent (depthAt (tokenize text) t) t =
      2 * (Stylesheet.ofText file text).1.openAt t := by
  have hmem := ht
  rw [← Statement.tokens_all (tokenize text)] at hmem
  obtain ⟨st, hst, hmem⟩ := List.mem_flatMap.1 hmem
  obtain ⟨before, after, hall⟩ := List.append_of_mem hst
  have hdepth := Nesting.depthAt_eq (Token.nodup_tokenize text) hfree hall hmem
  have hopen := Stylesheet.foldl_depthAfter_eq file hall hmem
  rw [← hdepth] at hopen
  unfold expectedIndent indentWidth
  by_cases hright : t.kind = .rightBrace
  · have hcloses : st.closer? = some t := by
      rw [(Statement.delimited_of_mem_all hst).closer]
      refine ⟨?_, hright⟩
      rw [← st.range_append_ending] at hmem
      refine (List.mem_append.1 hmem).resolve_left ?_
      intro hrange
      exact (Nesting.not_brace_of_mem_range hfree hst hrange).2 hright
    rw [if_pos hright]
    rw [hcloses] at hopen
    split at hopen
    · simp at hopen
      omega
    · simp at hopen
      omega
  · have hcloses : st.closer? = none := by
      cases st with
      | closing c =>
        have hc : t = c := List.mem_singleton.1 hmem
        have hkind := (Nesting.brace_of_closer? hst rfl).2
        exact absurd (hc ▸ hkind) hright
      | _ => rfl
    rw [if_neg hright]
    rw [hcloses] at hopen
    simp at hopen
    rw [hopen]

/-- **The rule about indentation counts the blocks that are open**, in every text in which no brace
is swallowed by an open parenthesis or bracket. At every token the number that it has counted is the
number of blocks that the walk over the statements has open when it comes to the statement of the
token. So the rule reports a token that leads a line if and only if it is a brace or something
starts there, the blanks in front of it have no tab, and they are not two spaces for every block of
the stylesheet that is open there. It reports nothing else. -/
theorem indentation_counts_blocks (file : String) (text : Text) (o : Options)
    (hfree : NoBraceSwallowed (tokenize text)) :
    let s := (Stylesheet.ofText file text).1
    let tokens := tokenize text
    (∀ before st after, Statement.all tokens = before ++ st :: after → ∀ t ∈ st.tokens,
      Layout.depthAt tokens t =
        (Nesting.walk ⟨file, Stylesheet.lastLine tokens⟩ before).enclosing.length) ∧
    (∀ lead t, LeadsLine tokens lead t →
      ((∃ d ∈ Layout.checkIndentation s o, d.line = t.line) ↔
        (t.kind = .leftBrace ∨ t.kind = .rightBrace ∨ s.StartsAt t.line t.column) ∧
          '\t' ∉ lead ∧ lead ≠ List.replicate (2 * s.openAt t) ' ')) ∧
    (∀ d ∈ Layout.checkIndentation s o, ∃ lead t, LeadsLine tokens lead t ∧ d.line = t.line) := by
  intro s tokens
  have hreported : ∀ d, d ∈ Layout.checkIndentation s o ↔ ∃ x ∈ Layout.misplacedFrom
      (Layout.statementStarts s) 0 (some []) tokens, _ = d := fun d => List.mem_map
  refine ⟨?_, ?_, ?_⟩
  · intro before st after hall t ht
    rw [Nesting.depthAt_eq (Token.nodup_tokenize text) hfree hall ht, Nesting.walk,
      Nesting.length_enclosing_foldl]
    rfl
  · intro lead t hlead
    rw [← Layout.expectedIndent_eq file hfree hlead.mem, ← Layout.isMisplaced_iff]
    constructor
    · rintro ⟨d, hd, hline⟩
      obtain ⟨x, hx, rfl⟩ := (hreported d).1 hd
      obtain ⟨lead', u, hlead', -, hwrong, rfl⟩ := Layout.mem_misplacedFrom_iff.1 hx
      have hsame : u = t := hlead'.unique hlead (Int.ofNat.inj hline)
      subst hsame
      rwa [Layout.lead_unique hlead hlead']
    · intro hwrong
      have hink : t.kind ≠ .newline := by
        rcases (Layout.isMisplaced_iff.1 hwrong).1 with hkind | hkind | hstarts
        · simp [hkind]
        · simp [hkind]
        · exact hstarts.ne_newline hlead.mem
      refine ⟨_, (hreported _).2 ⟨_, Layout.mem_misplacedFrom_iff.2
        ⟨lead, t, hlead, hink, hwrong, rfl⟩, rfl⟩, rfl⟩
  · intro d hd
    obtain ⟨x, hx, rfl⟩ := (hreported d).1 hd
    obtain ⟨lead, t, hlead, -, -, rfl⟩ := Layout.mem_misplacedFrom_iff.1 hx
    exact ⟨lead, t, hlead, rfl⟩

/-- A stray brace does not count and a block that is never closed does: the declaration on the third
line of this text is reported, since one block is open there. -/
theorem indentation_counts_unclosed :
    let text := "\x7d\na \x7b\nb: c;\n".toList
    NoBraceSwallowed (tokenize text) ∧
      ∃ d ∈ Layout.checkIndentation (Stylesheet.ofText "a.css" text).1 {}, d.line = 3 := by
  intro text
  have hfree : NoBraceSwallowed (tokenize text) := by
    have hstructural : ∀ t ∈ tokenize text, t.kind = .leftBrace ∨ t.kind = .rightBrace →
        Statement.isTerminator t.kind = true ∧ isStructural (tokenize text) t = true := by
      decide +kernel
    intro t ht hkind
    obtain ⟨hterminator, ht⟩ := hstructural t ht hkind
    exact (isStructural_iff_not_swallowed _ hterminator).1 ht
  refine ⟨hfree, ?_⟩
  have hlead : LeadsLine (tokenize text) [] ⟨.ident, ['b'], ⟨6, 3, 1⟩⟩ :=
    ⟨(tokenize text).take 6, [], (tokenize text).drop 7, by decide +kernel, by decide +kernel,
      by decide +kernel, by decide +kernel, rfl⟩
  refine ((indentation_counts_blocks "a.css" text {} hfree).2.1 _ _ hlead).2 ⟨?_, ?_, ?_⟩
  · exact .inr (.inr (.inr (.inr (.inl (by decide +kernel)))))
  · exact List.not_mem_nil
  · decide +kernel

end HouseStyle
