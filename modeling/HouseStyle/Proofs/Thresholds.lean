/-
HouseStyle.Proofs.Thresholds — a threshold changes the findings of its own rule and no others.

All rules are given the same options, and what they find is put in order and cleared of repetitions
together. Even so a line length touches the lines that are too long and nothing else, and likewise
for the nesting depth and for what is exempt from the naming of classes (`thresholds_apart`).

## How the proof goes

Each of these options is read by one rule, and a rule has an identifier of its own, so what is made
of all other findings is the same (`filter_madeFindings_of_apart`). Asking for the rule and for the
message of a finding can be done before all findings are put in order or after (`filter_check`),
which carries this over to checks. Names that are added to the list of allowed ones are treated in
the same way: the findings that they take away are those with their message. That a line or a
ruleset is reported is read off the members of a check (`exists_mem_check_iff`).
-/
import HouseStyle.Proofs.Advice
import HouseStyle.Proofs.Owners
import HouseStyle.Proofs.Positions

namespace HouseStyle

open Diagnostic

/-! ## 1. Options that differ in one thing -/

namespace Options

def DifferInLineLength (o o' : Options) : Prop :=
  ∃ (limit : Nat) (h : 1 ≤ limit),
    o' = { o with maxLineLength := limit, one_le_maxLineLength := h }

def DifferInNestingDepth (o o' : Options) : Prop :=
  ∃ (limit : Nat) (h : 1 ≤ limit),
    o' = { o with maxNestingDepth := limit, one_le_maxNestingDepth := h }

def DifferInNaming (o o' : Options) : Prop :=
  ∃ (vendorExempt : Bool) (allowlist : List String), o' = { o with vendorExempt, allowlist }

/-- The options want the same findings and find them equally serious. -/
def JudgeAlike (o o' : Options) : Prop := o'.enabled = o.enabled ∧ o'.override = o.override

/-- What a check under these options reports of what was found. -/
def report (o : Options) (ds : List Diagnostic) : List Diagnostic :=
  ((consolidate ds).filter o.wants).map o.judge

variable {o o' : Options}

theorem DifferInLineLength.judgeAlike (h : o.DifferInLineLength o') : o.JudgeAlike o' := by
  obtain ⟨limit, hlimit, rfl⟩ := h
  exact ⟨rfl, rfl⟩

theorem DifferInNestingDepth.judgeAlike (h : o.DifferInNestingDepth o') : o.JudgeAlike o' := by
  obtain ⟨limit, hlimit, rfl⟩ := h
  exact ⟨rfl, rfl⟩

theorem DifferInNaming.judgeAlike (h : o.DifferInNaming o') : o.JudgeAlike o' := by
  obtain ⟨vendorExempt, allowlist, rfl⟩ := h
  exact ⟨rfl, rfl⟩

section

variable {r : Rule}

/-- The length of lines is read by one rule. -/
theorem DifferInLineLength.run (h : o.DifferInLineLength o') (hr : r ≠ .lineLength)
    (s : Stylesheet) : r.run s o' = r.run s o := by
  obtain ⟨limit, hlimit, rfl⟩ := h
  cases r <;> first | rfl | contradiction

/-- The depth of nesting is read by one rule. -/
theorem DifferInNestingDepth.run (h : o.DifferInNestingDepth o') (hr : r ≠ .nestingDepth)
    (s : Stylesheet) : r.run s o' = r.run s o := by
  obtain ⟨limit, hlimit, rfl⟩ := h
  cases r <;> first | rfl | contradiction

/-- What is exempt from the naming of classes is read by one rule. -/
theorem DifferInNaming.run (h : o.DifferInNaming o') (hr : r ≠ .classNaming)
    (s : Stylesheet) : r.run s o' = r.run s o := by
  obtain ⟨vendorExempt, allowlist, rfl⟩ := h
  cases r <;> first | rfl | contradiction

end

/-- Options that judge alike report the same of the same findings. -/
theorem JudgeAlike.report (h : o.JudgeAlike o') (ds : List Diagnostic) :
    o'.report ds = o.report ds := by
  have hwants : o'.wants = o.wants := by
    funext d
    rw [wants, wants, h.1]
  have hjudge : o'.judge = o.judge := by
    funext d
    rw [judge, judge, severityOf, severityOf, h.2]
  rw [Options.report, Options.report, hwants, hjudge]

end Options

variable {file : String} {text : Text} {o o' : Options}

/-! ## 2. From what is found to what is reported -/

/-- What is asked of the rule and the message of a finding can be asked before the findings are put
in order. -/
theorem filter_check (keeps : RuleId → String → Bool) :
    (check file text o).filter (fun d => keeps d.rule d.message) =
      o.report ((madeFindings file text o).filter fun d => keeps d.rule d.message) := by
  have hkey (a b : Diagnostic) (h : a.compareKey b = .eq) :
      keeps a.rule a.message = keeps b.rule b.message := by
    obtain ⟨-, -, -, hrule, hmessage⟩ := compareKey_eq_iff.1 h
    rw [hrule, hmessage]
  rw [check_eq_select, Options.report, consolidate_filter hkey, List.filter_map,
    List.filter_filter, List.filter_filter]
  congr 2
  funext d
  exact Bool.and_comm ..

/-- A check reports what is found as the options want it. -/
theorem check_eq_report : check file text o = o.report (madeFindings file text o) :=
  check_eq_select o

/-- The findings of a check are those of the parser and of all rules that are wanted, with the
severities that the options give. -/
theorem mem_check {d : Diagnostic} :
    d ∈ check file text o ↔ ∃ e ∈ madeFindings file text o, o.wants e = true ∧ o.judge e = d := by
  rw [check_eq_select, List.mem_map]
  refine exists_congr fun e => ?_
  rw [List.mem_filter, (unambiguous_madeFindings file text o).mem_consolidate, and_assoc]

/-! ## 3. Rules with an identifier of their own -/

def others (rule : RuleId) (ds : List Diagnostic) : List Diagnostic := ds.filter (·.rule != rule)

section

variable {r : Rule} {rule : RuleId}

/-- Findings with the identifier of a rule are made by that rule. -/
theorem mem_run_of_mem_madeFindings {e : Diagnostic} (hr : rule ∈ r.emits)
    (he : e ∈ madeFindings file text o) (hrule : e.rule = rule) :
    e ∈ r.run (Stylesheet.ofText file text).1 o := by
  rcases mem_madeFindings.1 he with he | ⟨q, he⟩
  · exact absurd (category_of_mem_recovered he) (Rule.category_ne_of_mem_emits (hrule ▸ hr))
  · rwa [Rule.eq_of_mem_emits hr (hrule ▸ Rule.rule_mem_emits he)]

/-- What a check reports under the identifier of a rule is what that rule finds, if it is wanted. -/
theorem exists_mem_check_iff (hr : r.emits = [rule]) (P : Int → Int → Prop) :
    (∃ d ∈ check file text o, d.rule = rule ∧ P d.line d.column) ↔
      o.enabled rule = true ∧
        ∃ e ∈ r.run (Stylesheet.ofText file text).1 o, P e.line e.column := by
  have hmem : rule ∈ r.emits := hr ▸ List.mem_singleton_self rule
  constructor
  · rintro ⟨d, hd, hrule, hP⟩
    obtain ⟨e, he, hwanted, rfl⟩ := mem_check.1 hd
    have hrule' : e.rule = rule := hrule
    exact ⟨hrule' ▸ hwanted, e, mem_run_of_mem_madeFindings hmem he hrule', hP⟩
  · rintro ⟨henabled, e, he, hP⟩
    have hrule : e.rule = rule := List.mem_singleton.1 (hr ▸ Rule.rule_mem_emits he)
    have hwanted : o.wants e = true := by rwa [Options.wants, hrule]
    exact ⟨o.judge e, mem_check.2 ⟨e, mem_madeFindings.2 (.inr ⟨r, he⟩), hwanted, rfl⟩, hrule, hP⟩

/-- Where two sets of options tell one rule apart and no other, what is kept of its findings under
the one may be dropped from all findings under the other. -/
theorem filter_madeFindings_of_apart {keeps keeps' : Diagnostic → Bool} (hr : r.emits = [rule])
    (hkeeps : ∀ d : Diagnostic, d.rule ≠ rule → keeps' d = keeps d)
    (hothers : ∀ (q : Rule) (s : Stylesheet), q ≠ r → q.run s o' = q.run s o)
    (hown : (r.run (Stylesheet.ofText file text).1 o').filter keeps' =
      (r.run (Stylesheet.ofText file text).1 o).filter keeps) :
    (madeFindings file text o').filter keeps' = (madeFindings file text o).filter keeps := by
  have hmem : rule ∈ r.emits := hr ▸ List.mem_singleton_self rule
  rw [madeFindings, madeFindings, List.filter_append, List.filter_append, List.filter_flatMap,
    List.filter_flatMap]
  congr 1
  · refine List.filter_congr fun d hd => hkeeps d fun hrule => ?_
    exact Rule.category_ne_of_mem_emits hmem (hrule ▸ category_of_mem_recovered hd)
  · refine List.flatMap_congr fun q _ => ?_
    by_cases hq : q = r
    · rw [hq, hown]
    · rw [hothers q _ hq]
      exact List.filter_congr fun d hd => hkeeps d fun hrule =>
        hq (Rule.eq_of_mem_emits (hrule ▸ Rule.rule_mem_emits hd) hmem)

/-- Options that tell one rule apart and no other leave the findings of the others as they are. -/
theorem others_check (hr : r.emits = [rule]) (hjudge : o.JudgeAlike o')
    (hothers : ∀ (q : Rule) (s : Stylesheet), q ≠ r → q.run s o' = q.run s o) :
    others rule (check file text o') = others rule (check file text o) := by
  have hown (o : Options) :
      (r.run (Stylesheet.ofText file text).1 o).filter (·.rule != rule) = [] := by
    refine List.filter_eq_nil_iff.2 fun d hd => ?_
    have hrule : d.rule = rule := List.mem_singleton.1 (hr ▸ Rule.rule_mem_emits hd)
    simp [hrule]
  have hmade : (madeFindings file text o').filter (·.rule != rule) =
      (madeFindings file text o).filter (·.rule != rule) :=
    filter_madeFindings_of_apart hr (fun _ _ => rfl) hothers ((hown o').trans (hown o).symm)
  rw [others, others, filter_check fun q _ => q != rule, filter_check fun q _ => q != rule,
    hjudge.report, hmade]

end

/-! ## 4. Lines and rulesets that are reported -/

def FlagsLine (ds : List Diagnostic) (number : Int) : Prop :=
  ∃ d ∈ ds, d.rule = .lineTooLong ∧ d.line = number

def FlagsNesting (ds : List Diagnostic) (n : Node) : Prop :=
  ∃ d ∈ ds, d.rule = .excessiveNesting ∧ Blocks.isAt n d = true

instance (ds : List Diagnostic) (number : Int) : Decidable (FlagsLine ds number) :=
  inferInstanceAs <| Decidable <| ∃ d ∈ ds, d.rule = .lineTooLong ∧ d.line = number

instance (ds : List Diagnostic) (n : Node) : Decidable (FlagsNesting ds n) :=
  inferInstanceAs <| Decidable <| ∃ d ∈ ds, d.rule = .excessiveNesting ∧ Blocks.isAt n d = true

namespace Layout

/-- A line is found to be too long if it is longer than the limit. -/
theorem exists_mem_checkLength_iff {s : Stylesheet} {number : Int} :
    (∃ e ∈ checkLength s o, e.line = number) ↔
      ∃ (i : Nat) (row : Text), number = i + 1 ∧ s.lines[i]? = some row ∧
        o.maxLineLength < row.length := by
  constructor
  · rintro ⟨e, he, hline⟩
    obtain ⟨⟨row, k⟩, hk, rfl⟩ := List.mem_map.1 he
    obtain ⟨hmem, hlong⟩ := List.mem_filter.1 hk
    obtain ⟨i, rfl, hrow⟩ := mem_numbered hmem
    exact ⟨i, row, hline.symm, hrow, by simpa using hlong⟩
  · rintro ⟨i, row, rfl, hrow, hlong⟩
    have hmem : (row, i + 1) ∈ numbered s.lines :=
      List.mk_mem_zipIdx_iff_le_and_getElem?_sub.2 ⟨Nat.le_add_left _ _, hrow⟩
    exact ⟨_, List.mem_map.2 ⟨_, List.mem_filter.2 ⟨hmem, by simpa using hlong⟩, rfl⟩, rfl⟩

end Layout

/-- A line is reported exactly if it is longer than allowed and the rule is enabled. -/
theorem flagsLine_iff {number : Int} :
    FlagsLine (check file text o) number ↔
      o.enabled .lineTooLong = true ∧
        ∃ (i : Nat) (row : Text), number = i + 1 ∧
          (Stylesheet.ofText file text).1.lines[i]? = some row ∧ o.maxLineLength < row.length := by
  rw [← Layout.exists_mem_checkLength_iff]
  exact exists_mem_check_iff (r := .lineLength) rfl fun line _ => line = number

/-- A node is reported exactly if it is a ruleset nested deeper than allowed and the rule is
enabled. -/
theorem flagsNesting_iff {n : Node} (hn : n ∈ (Stylesheet.ofText file text).1.nodes) :
    FlagsNesting (check file text o) n ↔
      o.enabled .excessiveNesting = true ∧ n.isRuleset = true ∧ o.maxNestingDepth < n.level := by
  have hcount := Blocks.countP_isAt_checkDepth (o := o) hn (Stylesheet.nodup_places_nodes file text)
  have hfound : (∃ e ∈ Blocks.checkDepth (Stylesheet.ofText file text).1 o,
      Blocks.isAt n e = true) ↔ n.isRuleset = true ∧ o.maxNestingDepth < n.level := by
    rw [← List.countP_pos_iff, hcount]
    split
    · rename_i hdeep
      simpa [Blocks.isTooDeep] using hdeep
    · rename_i hdeep
      simpa [Blocks.isTooDeep] using hdeep
  simp only [Blocks.isAt, decide_eq_true_eq] at hfound
  rw [← hfound]
  simp only [FlagsNesting, Blocks.isAt, decide_eq_true_eq]
  exact exists_mem_check_iff (r := .nestingDepth) rfl fun line column =>
    line = n.line ∧ column = n.column

/-! ## 5. Classes that are reported -/

namespace ClassNaming

/-- What is said of a class that fits no pattern. -/
def complaint (name : String) : String :=
  s!"Class '.{name}' does not match any naming pattern " ++
    "(Component, SubComponent, Modifier, State, Helper or HelperModifier)."

def isAbout (d : Diagnostic) (name : String) : Bool :=
  d.rule == .unknownNamingPattern && d.message == complaint name

/-- The complaint about a class names it, so it is about no other. -/
theorem complaint_inj {name other : String} : complaint name = complaint other ↔ name = other := by
  refine ⟨fun h => ?_, congrArg complaint⟩
  have hlist := congrArg String.toList h
  simp only [complaint, toString, String.toList_append, List.append_assoc,
    List.append_cancel_left_eq, List.append_cancel_right_eq] at hlist
  exact String.toList_injective hlist

theorem isAbout_finding (s : Stylesheet) (selector : Selector) {c : ClassName} {name : String} :
    isAbout (finding s selector c) name = true ↔ name = c.raw.shown := by
  rw [isAbout, Bool.and_eq_true, beq_iff_eq, beq_iff_eq]
  exact ⟨fun h => (complaint_inj.1 h.2).symm, fun h => ⟨rfl, complaint_inj.2 h.symm⟩⟩

/-- Allowing more names takes away the findings about them. -/
theorem check_of_added {s : Stylesheet} {added : List String}
    (hvendor : o'.vendorExempt = o.vendorExempt)
    (hadded : ∀ name, name ∈ o'.allowlist ↔ name ∈ o.allowlist ∨ name ∈ added) :
    check s o' = (check s o).filter fun d => !added.any (isAbout d) := by
  unfold check
  rw [hvendor]
  split
  · rfl
  · rw [List.filter_map, List.filter_filter]
    congr 1
    refine List.filter_congr ?_
    rintro ⟨n, selector, c⟩ -
    have hany : added.any (isAbout (finding s selector c)) = added.contains c.raw.shown := by
      rw [Bool.eq_iff_iff, List.any_eq_true, List.contains_iff_mem]
      simp [isAbout_finding]
    have hcontains : o'.allowlist.contains c.raw.shown =
        (o.allowlist.contains c.raw.shown || added.contains c.raw.shown) := by
      rw [Bool.eq_iff_iff, Bool.or_eq_true, List.contains_iff_mem, List.contains_iff_mem,
        List.contains_iff_mem, hadded]
    simp only [Function.comp_apply, isUnknown, hany, hcontains, Bool.not_or]
    rw [← Bool.and_assoc, Bool.and_comm]

end ClassNaming

/-- Allowing more names takes the findings about them out of a check. -/
theorem Options.DifferInNaming.check_of_added {added : List String} (h : o.DifferInNaming o')
    (hvendor : o'.vendorExempt = o.vendorExempt)
    (hadded : ∀ name, name ∈ o'.allowlist ↔ name ∈ o.allowlist ∨ name ∈ added) :
    check file text o' =
      (check file text o).filter fun d => !added.any (ClassNaming.isAbout d) := by
  have hkeeps (d : Diagnostic) (hd : d.rule ≠ .unknownNamingPattern) :
      true = !added.any (ClassNaming.isAbout d) := by
    simp [ClassNaming.isAbout, hd]
  have hown := ClassNaming.check_of_added (s := (Stylesheet.ofText file text).1) hvendor hadded
  have hmade : (madeFindings file text o').filter (fun _ => true) =
      (madeFindings file text o).filter fun d => !added.any (ClassNaming.isAbout d) := by
    refine filter_madeFindings_of_apart (r := .classNaming) rfl hkeeps (fun _ s hq => h.run hq s) ?_
    rw [List.filter_true]
    exact hown
  rw [List.filter_true] at hmade
  rw [check_eq_report, h.judgeAlike.report, hmade]
  exact (filter_check fun rule message => !added.any fun name =>
    rule == .unknownNamingPattern && message == ClassNaming.complaint name).symm

/-- Where the stylesheet is exempt, no class is reported. -/
theorem check_of_vendorExempt (hvendor : o.vendorExempt = true) :
    others .unknownNamingPattern (check file text o) = check file text o := by
  refine List.filter_eq_self.2 fun d hd => ?_
  obtain ⟨e, he, -, rfl⟩ := mem_check.1 hd
  refine bne_iff_ne.2 fun hrule => ?_
  have hnaming := mem_run_of_mem_madeFindings (r := .classNaming) List.mem_cons_self he hrule
  rw [Rule.run, ClassNaming.check, if_pos hvendor] at hnaming
  cases hnaming

/-- What is reported about the naming of classes is about one class of the stylesheet. -/
theorem exists_class_of_mem_check {d : Diagnostic} (hd : d ∈ check file text o)
    (hrule : d.rule = .unknownNamingPattern) :
    ∃ c ∈ ClassNaming.classes (Stylesheet.ofText file text).1,
      ∀ name, ClassNaming.isAbout d name = true ↔ name = c.2.2.raw.shown := by
  obtain ⟨e, he, -, rfl⟩ := mem_check.1 hd
  have hnaming := mem_run_of_mem_madeFindings (r := .classNaming) List.mem_cons_self he hrule
  rw [Rule.run, ClassNaming.check] at hnaming
  split at hnaming
  · cases hnaming
  · obtain ⟨⟨n, selector, c⟩, hc, rfl⟩ := List.mem_map.1 hnaming
    exact ⟨_, (List.mem_filter.1 hc).1, fun _ =>
      ClassNaming.isAbout_finding (Stylesheet.ofText file text).1 selector⟩

/-! ## 6. Two checks -/

/-- **A threshold changes the findings of its own rule and no others**, in checks of any text under
two sets of options. If these differ in the length of lines, all findings but those of lines that
are too long are the same, in the same order, and what is too long under the larger limit is too
long under the smaller. The same is true of the depth of nesting and of rulesets. If they differ in
the allowed classes or in whether the stylesheet is exempt, all findings but those about the naming
of classes are the same; added names take away the findings about them and leave all others in
their order; an exempt stylesheet loses all of them and nothing else. Which lines and rulesets are
reported, and that a finding about naming is about one class, is said at the end. -/
theorem thresholds_apart (file : String) (text : Text) (o o' : Options) :
    let s := (Stylesheet.ofText file text).1
    (o.DifferInLineLength o' →
      others .lineTooLong (check file text o') = others .lineTooLong (check file text o) ∧
      (o.maxLineLength ≤ o'.maxLineLength → ∀ number,
        FlagsLine (check file text o') number → FlagsLine (check file text o) number)) ∧
    (o.DifferInNestingDepth o' →
      others .excessiveNesting (check file text o') =
        others .excessiveNesting (check file text o) ∧
      (o.maxNestingDepth ≤ o'.maxNestingDepth → ∀ n ∈ s.nodes,
        FlagsNesting (check file text o') n → FlagsNesting (check file text o) n)) ∧
    (o.DifferInNaming o' →
      others .unknownNamingPattern (check file text o') =
        others .unknownNamingPattern (check file text o) ∧
      (∀ added : List String, o'.vendorExempt = o.vendorExempt →
        (∀ name, name ∈ o'.allowlist ↔ name ∈ o.allowlist ∨ name ∈ added) →
        check file text o' =
          (check file text o).filter fun d => !added.any (ClassNaming.isAbout d)) ∧
      (o'.vendorExempt = true →
        check file text o' = others .unknownNamingPattern (check file text o))) ∧
    (∀ number, FlagsLine (check file text o) number ↔
      o.enabled .lineTooLong = true ∧ ∃ (i : Nat) (row : Text),
        number = i + 1 ∧ s.lines[i]? = some row ∧ o.maxLineLength < row.length) ∧
    (∀ n ∈ s.nodes, FlagsNesting (check file text o) n ↔
      o.enabled .excessiveNesting = true ∧ n.isRuleset = true ∧ o.maxNestingDepth < n.level) ∧
    (∀ d ∈ check file text o, d.rule = .unknownNamingPattern →
      ∃ c ∈ ClassNaming.classes s, ∀ name,
        ClassNaming.isAbout d name = true ↔ name = c.2.2.raw.shown) := by
  intro s
  refine ⟨fun h => ⟨?_, fun hle number => ?_⟩, fun h => ⟨?_, fun hle n hn => ?_⟩,
    fun h => ⟨?_, fun _ => h.check_of_added, fun hvendor => ?_⟩, fun _ => flagsLine_iff,
    fun _ => flagsNesting_iff, fun _ => exists_class_of_mem_check⟩
  · exact others_check (r := .lineLength) rfl h.judgeAlike fun _ s hq => h.run hq s
  · rw [flagsLine_iff, flagsLine_iff, h.judgeAlike.1]
    rintro ⟨henabled, i, row, hnumber, hrow, hlong⟩
    exact ⟨henabled, i, row, hnumber, hrow, by omega⟩
  · exact others_check (r := .nestingDepth) rfl h.judgeAlike fun _ s hq => h.run hq s
  · rw [flagsNesting_iff hn, flagsNesting_iff hn, h.judgeAlike.1]
    rintro ⟨henabled, hruleset, hdeep⟩
    exact ⟨henabled, hruleset, by omega⟩
  · exact others_check (r := .classNaming) rfl h.judgeAlike fun _ s hq => h.run hq s
  · rw [← check_of_vendorExempt hvendor]
    exact others_check (r := .classNaming) rfl h.judgeAlike fun _ s hq => h.run hq s

/-- Three nested rulesets on one line, under limits that they exceed. -/
theorem thresholds_apart_nested :
    let text := ".a \x7b.b \x7b.c \x7b\x7d\x7d\x7d\n".toList
    let o : Options := { maxLineLength := 5, maxNestingDepth := 1 }
    let long : Options := { o with maxLineLength := 9, one_le_maxLineLength := by decide }
    let deep : Options := { o with maxNestingDepth := 2, one_le_maxNestingDepth := by decide }
    let allowing : Options := { o with allowlist := ["b"] }
    let exempt : Options := { o with vendorExempt := true }
    (others .lineTooLong (check "a.css" text long) = others .lineTooLong (check "a.css" text o) ∧
      FlagsLine (check "a.css" text o) 1) ∧
    (others .excessiveNesting (check "a.css" text deep) =
        others .excessiveNesting (check "a.css" text o) ∧
      ∃ n ∈ (Stylesheet.ofText "a.css" text).1.nodes,
        FlagsNesting (check "a.css" text deep) n ∧ FlagsNesting (check "a.css" text o) n) ∧
    check "a.css" text allowing =
      (check "a.css" text o).filter (fun d => !(["b"].any (ClassNaming.isAbout d))) ∧
    check "a.css" text exempt = others .unknownNamingPattern (check "a.css" text o) ∧
    ((check "a.css" text o).length, (check "a.css" text allowing).length,
      (check "a.css" text exempt).length) = (6, 5, 3) := by
  intro text o long deep allowing exempt
  obtain ⟨hlines, hline⟩ := (thresholds_apart "a.css" text o long).1 ⟨9, by decide, rfl⟩
  obtain ⟨hnesting, hnode⟩ := (thresholds_apart "a.css" text o deep).2.1 ⟨2, by decide, rfl⟩
  have hallowing := ((thresholds_apart "a.css" text o allowing).2.2.1 ⟨false, ["b"], rfl⟩).2.1
    ["b"] rfl (by simp [o, allowing])
  have hexempt := ((thresholds_apart "a.css" text o exempt).2.2.1 ⟨true, [], rfl⟩).2.2 rfl
  refine ⟨⟨hlines, hline (by decide) 1 (by decide +kernel)⟩, ⟨hnesting, ?_⟩, hallowing, hexempt,
    by decide +kernel⟩
  obtain ⟨n, hn, hflags⟩ : ∃ n ∈ (Stylesheet.ofText "a.css" text).1.nodes,
    FlagsNesting (check "a.css" text deep) n := by decide +kernel
  exact ⟨n, hn, hflags, hnode (by decide) n hn hflags⟩

end HouseStyle
