/-
HouseStyle.Proofs.Braces — every brace outside parentheses is accounted for.

A brace between parentheses or brackets belongs to the statement around it. All others are
structural, and `brace_accounting` says what becomes of each of them: an opening brace opens the
block of one node, a closing brace closes one block or is reported once, and the blocks that are
never closed lie inside each other, are counted, and are reported once, at the innermost.

## How the proof goes

The structural braces are those that end a statement or stand between two. The nodes begin in the
order of the outline, which names their opening braces. For the closing braces the walk is followed
once more, with the number of open blocks (`closings`): at zero a brace is reported, otherwise it
closes a block, and what is closed can be read off the forests of a state in postorder
(`State.closed`). Finished nodes that have a block have it closed (`Block.Closed`), so all that
is left unclosed at the end of the text is the stack of open blocks, outermost first
(`unclosed_closeAll`).
-/
import HouseStyle.Proofs.Structural
import HouseStyle.Proofs.TokenPlaces
import Mathlib.Data.List.Chain

namespace HouseStyle

/-! ## 1. Opening braces -/

/-- The braces that open the nodes of an outline are those of the statements. -/
theorem Nesting.filterMap_brace_outline (passed count : Nat) (opened : List Nat)
    (statements : List Statement) :
    (outline passed count opened statements).filterMap (·.brace) =
      statements.filterMap Statement.opener? := by
  induction statements generalizing passed count opened with
  | nil => rfl
  | cons st rest ih =>
    rw [outline, List.filterMap_append, ih]
    cases st with
    | atRule keyword prelude ending => cases ending <;> rfl
    | _ => rfl

/-- The nodes with a block and the statements that open one correspond, in order. -/
theorem Stylesheet.filterMap_openBrace (file : String) (tokens : List Token) :
    (parse file tokens).1.nodes.filterMap (·.block.openBrace) =
      (Statement.all tokens).filterMap Statement.opener? := by
  rw [← Nesting.filterMap_brace_outline 0 0 [], ← outline_parse file, List.filterMap_map]
  rfl

/-! ## 2. Closing braces -/

namespace Nesting

/-- The closing braces gathered around open blocks. -/
def closedAround : List OpenBlock → List Token
  | [] => []
  | o :: outer => closedAround outer ++ o.outer.children.closers

def State.closed (s : State) : List Token :=
  closedAround s.enclosing ++ s.level.children.closers

/-- The number of open blocks behind a statement. -/
def depthAfter (depth : Nat) (st : Statement) : Nat :=
  if st.opener?.isSome then depth + 1 else if st.closer?.isSome then depth - 1 else depth

/-- The closing braces of a row of statements, each with whether a block is open in front of it. -/
def closings (depth : Nat) : List Statement → List (Token × Bool)
  | [] => []
  | st :: rest =>
    (st.closer?.map fun t => (t, decide (0 < depth))).toList ++
      closings (depthAfter depth st) rest

/-- Every closing brace is classified once, as matched or as stray. -/
theorem map_fst_closings (depth : Nat) (statements : List Statement) :
    (closings depth statements).map (·.1) = statements.filterMap Statement.closer? := by
  induction statements generalizing depth with
  | nil => rfl
  | cons st rest ih =>
    rw [closings, List.map_append, ih, List.filterMap_cons]
    cases st.closer? <;> rfl

@[simp] theorem State.closed_release (s : State) (attached : Bool) :
    (s.release attached).closed = s.closed := by
  unfold release
  split <;> rfl

@[simp] theorem State.closed_report (s : State) (ds : List Diagnostic) :
    (s.report ds).closed = s.closed := rfl

@[simp] theorem State.closed_enter (s : State) (heading : Heading) (brace : Token) :
    (s.enter heading brace).closed = s.closed := by
  simp [closed, enter, closedAround, Forest.closers]

@[simp] theorem State.closed_addLeaf (s : State) (heading : Heading) (endLine : Nat) :
    (s.addLeaf heading endLine).closed = s.closed := by
  simp [closed, addLeaf, Level.addNode, Forest.closers_append, Forest.closers]

/-- A block that is closed has its brace behind those inside it. -/
theorem closers_close (o : OpenBlock) (inner : Level) (brace : Option Token) (endLine : Nat) :
    (o.close inner brace endLine).children.closers =
      o.outer.children.closers ++ (inner.children.closers ++ brace.toList) := by
  simp [OpenBlock.close, Level.addNode, Forest.closers_append, Forest.closers]

/-- A closing brace closes a block exactly if one is open. -/
theorem State.closed_leave (setting : Setting) (s : State) (brace : Token) :
    (s.leave setting brace).closed = s.closed ++ if s.enclosing.isEmpty then [] else [brace] := by
  unfold leave
  split
  · rename_i h
    simp [h]
  · rename_i o outer h
    simp [closed, h, closers_close, closedAround]

/-- A closing brace closes a block if one is open; nothing else does. -/
theorem State.closed_step (setting : Setting) (s : State) (st : Statement) :
    (s.step setting st).closed =
      s.closed ++ if s.enclosing.isEmpty then [] else st.closer?.toList := by
  show (s.take setting st).closed = _
  have h := s.passes setting st
  generalize s.take setting st = next at h
  cases h with
  | silent pending comments begins opens closes =>
    show s.closed = _
    simp [closes]
  | closing brace =>
    rw [closed_leave, closed_release, enclosing_release]
    rfl
  | opening | block | leaf => simp [Statement.closer?]
  | declaring => exact (closed_release s false).trans (by simp [Statement.closer?])

theorem length_numbers (enclosing : List OpenBlock) :
    (numbers enclosing).length = enclosing.length := by
  induction enclosing with
  | nil => rfl
  | cons o outer ih => rw [numbers, List.length_cons, ih, List.length_cons]

/-- A statement changes the number of open blocks as its brace says; at depth zero a closing brace
changes nothing. -/
theorem State.length_enclosing_step (setting : Setting) (s : State) (st : Statement) :
    (s.step setting st).enclosing.length = depthAfter s.enclosing.length st := by
  rw [← length_numbers, numbers_step, ← length_numbers s.enclosing]
  cases st with
  | closing brace => exact List.length_tail
  | atRule keyword prelude ending => cases ending <;> rfl
  | _ => rfl

/-- The closing braces that a row of statements matches with a block that is open. -/
def matched (depth : Nat) (statements : List Statement) : List Token :=
  ((closings depth statements).filter (·.2)).map (·.1)

/-- The closing braces of a row of statements that stand where no block is open. -/
def strays (depth : Nat) (statements : List Statement) : List Token :=
  ((closings depth statements).filter fun c => !c.2).map (·.1)

/-- A closing brace matches an open block or is a stray one, never both. -/
theorem perm_matched_strays (depth : Nat) (statements : List Statement) :
    (matched depth statements ++ strays depth statements).Perm
      (statements.filterMap Statement.closer?) := by
  rw [matched, strays, ← List.map_append, ← map_fst_closings depth]
  exact (List.filter_append_perm _ _).map _

theorem matched_cons (depth : Nat) (st : Statement) (rest : List Statement) :
    matched depth (st :: rest) =
      (if depth = 0 then [] else st.closer?.toList) ++ matched (depthAfter depth st) rest := by
  rw [matched, closings, List.filter_append, List.map_append]
  cases st.closer? <;> cases depth <;> simp [matched]

theorem strays_cons (depth : Nat) (st : Statement) (rest : List Statement) :
    strays depth (st :: rest) =
      (if depth = 0 then st.closer?.toList else []) ++ strays (depthAfter depth st) rest := by
  rw [strays, closings, List.filter_append, List.map_append]
  cases st.closer? <;> cases depth <;> simp [strays]

/-- A walk closes blocks with the closing braces that it finds one open for. -/
theorem closed_foldl (setting : Setting) (s : State) (statements : List Statement) :
    (statements.foldl (State.step setting) s).closed =
      s.closed ++ matched s.enclosing.length statements := by
  induction statements generalizing s with
  | nil => exact (List.append_nil _).symm
  | cons st rest ih =>
    rw [List.foldl_cons, ih, State.closed_step, State.length_enclosing_step, matched_cons,
      List.append_assoc]
    cases s.enclosing <;> rfl

/-- The findings of a walk that are about braces are those about closing braces that it finds no
block open for. -/
theorem filter_diagnostics_foldl (setting : Setting) {p : Diagnostic → Bool}
    (hp : ∀ d, p d = true → d.rule = .unbalancedBraces) (s : State) (statements : List Statement) :
    (statements.foldl (State.step setting) s).diagnostics.filter p =
      s.diagnostics.filter p ++
        ((strays s.enclosing.length statements).map (strayFinding setting)).filter p := by
  induction statements generalizing s with
  | nil => exact (List.append_nil _).symm
  | cons st rest ih =>
    have hhere : (s.findingsAt setting st).filter p =
        ((if s.enclosing.length = 0 then st.closer?.toList else []).map
          (strayFinding setting)).filter p := by
      cases st with
      | opening prelude brace =>
        have hnone : (selectorFindings setting prelude brace).filter p = [] := by
          rw [List.filter_eq_nil_iff]
          intro d hd hpd
          have hrule : d.rule = .emptySelector := by
            unfold selectorFindings at hd
            grind [Setting.finding]
          rw [hp d hpd] at hrule
          cases hrule
        simp [State.findingsAt, hnone, Statement.closer?]
      | closing brace => cases h : s.enclosing <;> simp [State.findingsAt, Statement.closer?, h]
      | _ => simp [State.findingsAt, Statement.closer?]
    rw [List.foldl_cons, ih, State.diagnostics_step, State.length_enclosing_step, strays_cons,
      List.filter_append, hhere, List.map_append, List.filter_append, List.append_assoc]

/-- Closing all blocks at the end of the text uses no brace. -/
theorem closers_closeAll (lastLine : Nat) (level : Level) (enclosing : List OpenBlock) :
    (closeAll lastLine level enclosing).children.closers =
      closedAround enclosing ++ level.children.closers := by
  induction enclosing generalizing level with
  | nil => rfl
  | cons o outer ih => simp [closeAll, ih, closers_close, closedAround]

end Nesting

/-- The braces that close the blocks of a stylesheet are the matched ones, each for one block. -/
theorem Stylesheet.perm_closeBrace (file : String) (tokens : List Token) :
    ((parse file tokens).1.nodes.filterMap (·.block.closeBrace)).Perm
      (Nesting.matched 0 (Statement.all tokens)) := by
  let setting : Nesting.Setting := ⟨file, lastLine tokens⟩
  have hclosed : (parse file tokens).1.forest.closers =
      (Nesting.walk setting (Statement.all tokens)).closed := by
    refine (Nesting.closers_closeAll _ _ _).trans ?_
    exact Nesting.State.closed_release _ false
  rw [Nesting.walk, Nesting.closed_foldl] at hclosed
  have hperm := Forest.perm_closers {} 0 (parse file tokens).1.forest
  rw [hclosed, ← (parse file tokens).1.nodes_eq] at hperm
  exact hperm

/-! ## 3. Blocks that are never closed -/

/-- The node has a block that is never closed. -/
def Node.isUnclosed (n : Node) : Bool := n.block.openBrace.isSome && n.block.closeBrace.isNone

def Block.Closed (b : Block) : Prop := b.openBrace.isSome → b.closeBrace.isSome

namespace Forest

/-- No node of a forest of closed blocks is left open. -/
theorem filter_isUnclosed_of_all {f : Forest} (h : f.All Block.Closed) (s : Scope) (index : Nat) :
    (f.number s index).filter Node.isUnclosed = [] := by
  rw [List.filter_eq_nil_iff]
  intro n hn hunclosed
  rw [Node.isUnclosed, Bool.and_eq_true, Option.isNone_iff_eq_none] at hunclosed
  have hclosed := h.of_mem_number hn hunclosed.1
  rw [hunclosed.2] at hclosed
  cases hclosed

/-- The unclosed blocks of a row lie inside each other, and the given braces open them, outermost
first. -/
structure Unclosed (braces : List Token) (f : Forest) : Prop where
  opened : ∀ s index,
    ((f.number s index).filter Node.isUnclosed).map (·.block.openBrace) = braces.map some
  top : ∀ s index, ∀ n ∈ ((f.number s index).filter Node.isUnclosed).head?,
    n.index ∈ f.roots index
  chain : ∀ s index,
    ((f.number s index).filter Node.isUnclosed).IsChain fun m n => n.index ∈ m.children

theorem unclosed_of_all {f : Forest} (h : f.All Block.Closed) : Unclosed [] f := by
  refine ⟨fun s index => ?_, fun s index => ?_, fun s index => ?_⟩
  all_goals simp [filter_isUnclosed_of_all h]

/-- A block that is left unclosed comes last in its row and goes around those inside it. -/
theorem unclosed_append_node {f children : Forest} {b : Block} {brace : Token}
    {braces : List Token} (hf : f.All Block.Closed) (hopen : b.openBrace = some brace)
    (hclose : b.closeBrace = none) (h : Unclosed braces children) :
    Unclosed (brace :: braces) (f.append (.node b children .nil)) := by
  have hsplit (s : Scope) (index : Nat) :
      ((f.append (.node b children .nil)).number s index).filter Node.isUnclosed =
        ⟨index + f.size, b, s, children.roots (index + f.size + 1)⟩ ::
          (children.number (s.inside (index + f.size) b) (index + f.size + 1)).filter
            Node.isUnclosed := by
    rw [number_append, List.filter_append, filter_isUnclosed_of_all hf, List.nil_append,
      number, number, List.append_nil, List.filter_cons_of_pos (by simp [Node.isUnclosed, *])]
  refine ⟨fun s index => ?_, fun s index => ?_, fun s index => ?_⟩
  · rw [hsplit, List.map_cons, h.opened]
    simp [hopen]
  · rw [hsplit, roots_append]
    rintro n ⟨⟩
    simp [roots]
  · rw [hsplit, List.isChain_cons]
    exact ⟨fun n hn => h.top _ _ n hn, h.chain _ _⟩

end Forest

namespace Nesting

/-- A leaf has no block to close, and a block that is left has its brace. -/
theorem holdsOfFinished_closed : HoldsOfFinished Block.Closed where
  leaf _ _ h := by cases h
  closed _ _ _ _ _ := rfl

/-- The blocks that are still open at the end of the text become the unclosed ones. -/
theorem unclosed_closeAll (lastLine : Nat) {level : Level} {enclosing : List OpenBlock}
    {braces : List Token} (hlevel : Forest.Unclosed braces level.children)
    (haround : ∀ o ∈ enclosing, o.outer.children.All Block.Closed) :
    Forest.Unclosed ((enclosing.map (·.brace)).reverse ++ braces)
      (closeAll lastLine level enclosing).children := by
  induction enclosing generalizing level braces with
  | nil => exact hlevel
  | cons o outer ih =>
    rw [List.map_cons, List.reverse_cons, List.append_assoc]
    refine ih ?_ fun o' ho' => haround o' (List.mem_cons_of_mem _ ho')
    exact Forest.unclosed_append_node (haround o List.mem_cons_self) rfl rfl hlevel

end Nesting

/-! ## 4. The account -/

/-- The finding is about braces, and its message starts with the given words. -/
def Diagnostic.saysOfBraces (words : String) (d : Diagnostic) : Bool :=
  d.rule == .unbalancedBraces && words.toList.isPrefixOf d.message.toList

def Diagnostic.isAtToken (t : Token) (d : Diagnostic) : Bool :=
  decide (d.line = t.line ∧ d.column = t.column)

theorem Diagnostic.isAtToken_iff (t : Token) (d : Diagnostic) :
    d.isAtToken t = true ↔ d.line = t.line ∧ d.column = t.column :=
  decide_eq_true_iff

namespace Nesting

theorem filter_malformedFindings (setting : Setting) (tokens : List Token) (words : String) :
    (malformedFindings setting tokens).filter (Diagnostic.saysOfBraces words) = [] := by
  rw [List.filter_eq_nil_iff]
  intro d hd
  obtain ⟨t, -, rfl⟩ := List.mem_map.1 hd
  unfold malformedFinding
  dsimp only
  split <;> simp [Diagnostic.saysOfBraces, Setting.finding]

/-- The findings about braces are about stray closing braces, then about unclosed blocks. -/
theorem filter_parse (file : String) (tokens : List Token) (words : String) :
    (Stylesheet.parse file tokens).2.filter (Diagnostic.saysOfBraces words) =
      ((strays 0 (Statement.all tokens)).map
        (strayFinding ⟨file, Stylesheet.lastLine tokens⟩)).filter (Diagnostic.saysOfBraces words) ++
      (unclosedFindings ⟨file, Stylesheet.lastLine tokens⟩
        (walk ⟨file, Stylesheet.lastLine tokens⟩ (Statement.all tokens)).enclosing).filter
          (Diagnostic.saysOfBraces words) := by
  have hrule (d : Diagnostic) (h : d.saysOfBraces words = true) : d.rule = .unbalancedBraces := by
    rw [Diagnostic.saysOfBraces, Bool.and_eq_true] at h
    exact of_decide_eq_true h.1
  rw [Stylesheet.parse]
  dsimp only
  rw [List.filter_append, List.filter_append, filter_malformedFindings, List.nil_append,
    State.diagnostics_release, State.enclosing_release, walk, filter_diagnostics_foldl _ hrule]
  rfl

/-- The two messages about braces differ in their first words, so that findings of the two kinds can
be told apart. -/
theorem strayFinding_unexpected (setting : Setting) (brace : Token) :
    (strayFinding setting brace).saysOfBraces "Unexpected '\x7d'" = true := by
  simp [strayFinding, Setting.finding, Diagnostic.saysOfBraces]

theorem strayFinding_unclosed (setting : Setting) (brace : Token) :
    (strayFinding setting brace).saysOfBraces "Unclosed '\x7b'" = false := by
  simp [strayFinding, Setting.finding, Diagnostic.saysOfBraces, List.isPrefixOf]

theorem filter_unclosedFindings_unexpected (setting : Setting) (enclosing : List OpenBlock) :
    (unclosedFindings setting enclosing).filter (Diagnostic.saysOfBraces "Unexpected '\x7d'") =
      [] := by
  cases enclosing with
  | nil => rfl
  | cons o outer =>
    simp [unclosedFindings, Setting.finding, Diagnostic.saysOfBraces, toString]

theorem filter_unclosedFindings_unclosed (setting : Setting) (enclosing : List OpenBlock) :
    (unclosedFindings setting enclosing).filter (Diagnostic.saysOfBraces "Unclosed '\x7b'") =
      unclosedFindings setting enclosing := by
  cases enclosing with
  | nil => rfl
  | cons o outer =>
    simp [unclosedFindings, Setting.finding, Diagnostic.saysOfBraces, toString]

end Nesting

namespace Stylesheet

/-- The findings about stray closing braces, one for each. -/
theorem filter_unexpected (file : String) (tokens : List Token) :
    (parse file tokens).2.filter (Diagnostic.saysOfBraces "Unexpected '\x7d'") =
      (Nesting.strays 0 (Statement.all tokens)).map
        (Nesting.strayFinding ⟨file, lastLine tokens⟩) := by
  rw [Nesting.filter_parse, Nesting.filter_unclosedFindings_unexpected, List.append_nil,
    List.filter_eq_self]
  intro d hd
  obtain ⟨t, -, rfl⟩ := List.mem_map.1 hd
  exact Nesting.strayFinding_unexpected _ t

/-- The finding about unclosed blocks, if there are any. -/
theorem filter_unclosed (file : String) (tokens : List Token) :
    (parse file tokens).2.filter (Diagnostic.saysOfBraces "Unclosed '\x7b'") =
      Nesting.unclosedFindings ⟨file, lastLine tokens⟩
        (Nesting.walk ⟨file, lastLine tokens⟩ (Statement.all tokens)).enclosing := by
  have hstray : ((Nesting.strays 0 (Statement.all tokens)).map
      (Nesting.strayFinding ⟨file, lastLine tokens⟩)).filter
        (Diagnostic.saysOfBraces "Unclosed '\x7b'") = [] := by
    rw [List.filter_eq_nil_iff]
    intro d hd
    obtain ⟨t, -, rfl⟩ := List.mem_map.1 hd
    rw [Nesting.strayFinding_unclosed]
    exact Bool.false_ne_true
  rw [Nesting.filter_parse, hstray, List.nil_append, Nesting.filter_unclosedFindings_unclosed]

/-- The unclosed blocks of a stylesheet are those that the walk over its statements leaves open. -/
theorem unclosed_parse (file : String) (tokens : List Token) :
    Forest.Unclosed
      ((Nesting.walk ⟨file, lastLine tokens⟩ (Statement.all tokens)).enclosing.map
        (·.brace)).reverse (parse file tokens).1.forest := by
  have hclosed := (Nesting.all_walk Nesting.holdsOfFinished_closed ⟨file, lastLine tokens⟩
    (Statement.all tokens)).release false
  have h := Nesting.unclosed_closeAll (lastLine tokens)
    (Forest.unclosed_of_all hclosed.level) hclosed.around
  rw [List.append_nil, Nesting.State.enclosing_release] at h
  unfold parse
  dsimp only
  rw [Nesting.State.enclosing_release]
  exact h

end Stylesheet

/-- If the open blocks, from the inside out, are the unclosed nodes, there is one finding about
them, at the last of them, or none if they are none. -/
theorem Nesting.unclosedFindings_of_nodes (setting : Setting) {enclosing : List OpenBlock}
    {nodes : List Node}
    (h : nodes.map (·.block.openBrace) = (enclosing.map (·.brace)).reverse.map some) :
    (nodes = [] → unclosedFindings setting enclosing = []) ∧
    (∀ n ∈ nodes.getLast?, ∃ brace d, n.block.openBrace = some brace ∧
      unclosedFindings setting enclosing = [d] ∧ d.isAtToken brace = true ∧
      d.message =
        s!"Unclosed '\x7b' at end of input ({nodes.length} block(s) closed implicitly).") := by
  have hlen : nodes.length = enclosing.length := by simpa using congrArg List.length h
  have hlast := congrArg List.getLast? h
  rw [List.getLast?_map, List.getLast?_map, List.getLast?_reverse, List.head?_map] at hlast
  cases enclosing with
  | nil =>
    refine ⟨fun _ => rfl, fun n hn => ?_⟩
    rw [Option.mem_def] at hn
    simp [hn] at hlast
  | cons o outer =>
    refine ⟨fun hnil => by simp [hnil] at hlen, fun n hn => ⟨o.brace, _, ?_, rfl, ?_, ?_⟩⟩
    · rw [Option.mem_def] at hn
      simpa [hn] using hlast
    · simp [Diagnostic.isAtToken, Setting.finding]
    · rw [hlen]
      rfl

theorem Token.nodup_tokenize (text : Text) : (tokenize text).Nodup :=
  (Token.nodup_places text).of_map _

/-- The findings about stray closing braces that stand at a token count that token among the
strays. -/
theorem countP_unexpected (file : String) (text : Text) {t : Token} (ht : t ∈ tokenize text) :
    ((Stylesheet.ofText file text).2.countP fun d =>
        d.isAtToken t && d.saysOfBraces "Unexpected '\x7d'") =
      (Nesting.strays 0 (Statement.all (tokenize text))).count t := by
  have hsub : ∀ u ∈ Nesting.strays 0 (Statement.all (tokenize text)), u ∈ tokenize text := by
    intro u hu
    have hcloser := (Nesting.perm_matched_strays 0 _).subset (List.mem_append_right _ hu)
    have hpick : ∀ st ∈ Statement.all (tokenize text), ∀ u, st.closer? = some u → u ∈ st.ending :=
      fun st hst u h => (((Statement.delimited_of_mem_all hst).closer u).1 h).1
    have hmem := (sublist_filterMap_tokens hpick).subset hcloser
    rwa [Statement.tokens_all] at hmem
  rw [← List.countP_filter, Stylesheet.ofText, Stylesheet.filter_unexpected, List.countP_map,
    List.count]
  refine List.countP_congr fun u hu => ?_
  have hplace := List.inj_on_of_nodup_map (Token.nodup_places text) (hsub u hu) ht
  rw [Function.comp_apply, Diagnostic.isAtToken_iff, beq_iff_eq]
  constructor
  · rintro ⟨hline, hcolumn⟩
    exact hplace (Prod.ext (Int.ofNat.inj hline) (Int.ofNat.inj hcolumn))
  · rintro rfl
    exact ⟨rfl, rfl⟩

/-- **Every structural brace is accounted for**, whatever the text is. A brace is structural if it
lies in no statement, which is to say that no open parenthesis or bracket swallows it. A structural
opening brace opens the block of one node, a structural closing brace closes the block of one node
or is reported as unexpected once, and no other token does either. The nodes whose block is never
closed are a chain: the first is at the top level, and each owns the next. If there are any, one
finding says how many and stands at the opening brace of the last, and otherwise there is none. -/
theorem brace_accounting (file : String) (text : Text) :
    let s := (Stylesheet.ofText file text).1
    let found := (Stylesheet.ofText file text).2
    let tokens := tokenize text
    let unclosed := s.nodes.filter Node.isUnclosed
    (∀ t ∈ tokens, t.kind = .leftBrace ∨ t.kind = .rightBrace →
      (isStructural tokens t = true ↔ ¬ Swallowed tokens t)) ∧
    (∀ t ∈ tokens,
      (s.nodes.countP fun n => n.block.openBrace == some t) =
        if t.kind = .leftBrace ∧ isStructural tokens t = true then 1 else 0) ∧
    (∀ t ∈ tokens,
      (s.nodes.countP fun n => n.block.closeBrace == some t) +
          (found.countP fun d => d.isAtToken t && d.saysOfBraces "Unexpected '\x7d'") =
        if t.kind = .rightBrace ∧ isStructural tokens t = true then 1 else 0) ∧
    (∀ n ∈ unclosed.head?, n.index ∈ s.topLevel) ∧
    (unclosed.IsChain fun m n => n.index ∈ m.children) ∧
    (unclosed = [] → found.filter (Diagnostic.saysOfBraces "Unclosed '\x7b'") = []) ∧
    (∀ n ∈ unclosed.getLast?, ∃ brace d, n.block.openBrace = some brace ∧
      found.filter (Diagnostic.saysOfBraces "Unclosed '\x7b'") = [d] ∧ d.isAtToken brace = true ∧
      d.message =
        s!"Unclosed '\x7b' at end of input ({unclosed.length} block(s) closed implicitly).") := by
  intro s found tokens unclosed
  have hnodup : tokens.Nodup := Token.nodup_tokenize text
  have hopen := Stylesheet.unclosed_parse file tokens
  have hunclosed : unclosed = (s.forest.number {} 0).filter Node.isUnclosed :=
    congrArg _ s.nodes_eq
  have hreport := Nesting.unclosedFindings_of_nodes ⟨file, Stylesheet.lastLine tokens⟩
    (hopen.opened {} 0)
  have hfound : found.filter (Diagnostic.saysOfBraces "Unclosed '\x7b'") = _ :=
    Stylesheet.filter_unclosed file tokens
  rw [hfound, hunclosed]
  refine ⟨fun t _ hk => ?_, fun t ht => ?_, fun t ht => ?_, hopen.top {} 0, hopen.chain {} 0,
    hreport⟩
  · refine isStructural_iff_not_swallowed tokens ?_
    rcases hk with hk | hk <;> rw [hk] <;> rfl
  · rw [← List.count_filterMap, ← count_filterMap_all hnodup
      (fun st hst => (Statement.delimited_of_mem_all hst).opener) ht]
    exact congrArg _ (Stylesheet.filterMap_openBrace file tokens)
  · have hclosed := (Stylesheet.perm_closeBrace file tokens).count_eq t
    have hall := (Nesting.perm_matched_strays 0 (Statement.all tokens)).count_eq t
    rw [List.count_append, count_filterMap_all hnodup
      (fun st hst => (Statement.delimited_of_mem_all hst).closer) ht] at hall
    rw [countP_unexpected file text ht, ← List.count_filterMap, ← hall, ← hclosed]
    rfl

end HouseStyle
