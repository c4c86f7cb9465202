/-
HouseStyle.Proofs.Selection — switching rules on and off, and what severities do to a check.

Rules look at the limits and exemptions of the options, never at which rules are enabled or how
serious they are (`Rule.run_select`). Since a rule makes only findings that it declares, a rule that
is skipped would have had all of them dropped (`Rule.filter_findings`), so a check starts from the
findings of all rules whatever is enabled (`rawFindings_eq_filter`). What a finding is filtered by,
and what its severity is taken from, is its rule, which is part of its key: both commute with
consolidating, and so with the whole check (`check_eq_select`).
-/
import HouseStyle.Check
import HouseStyle.Proofs.Consolidation
import HouseStyle.Proofs.Findings

namespace HouseStyle

variable {file : String} {text : Text}

/-! ## 1. Skipping rules -/

def Options.select (o : Options) (enabled : RuleId → Bool) (override : RuleId → Option Severity) :
    Options :=
  { o with enabled, override }

def Options.wants (o : Options) (d : Diagnostic) : Bool := o.enabled d.rule

/-- No rule looks at which rules are enabled or how serious they are. -/
theorem Rule.run_select (r : Rule) (s : Stylesheet) (o : Options) (enabled : RuleId → Bool)
    (override : RuleId → Option Severity) : r.run s (o.select enabled override) = r.run s o := by
  cases r <;> rfl

/-- A rule that is skipped has no finding that is wanted. -/
theorem Rule.filter_findings (r : Rule) (s : Stylesheet) (o : Options) :
    (r.findings s o).filter o.wants = (r.run s o).filter o.wants := by
  unfold findings
  split
  · rfl
  · rename_i hskip
    refine (List.filter_eq_nil_iff.2 fun d hd hwanted => hskip ?_).symm
    exact List.any_eq_true.2 ⟨d.rule, r.rule_mem_emits hd, hwanted⟩

def RuleSource.run (s : Stylesheet) (o : Options) : RuleSource → List Diagnostic
  | .registered rule => rule.run s o
  | .custom run => run s o

/-- Skipping rules drops no finding that is wanted. -/
theorem Stylesheet.validate_eq_filter (s : Stylesheet) (o : Options) (extra : List RuleSource) :
    s.validate o extra =
      ((Rule.all.map RuleSource.registered ++ extra).flatMap (RuleSource.run s o)).filter
        o.wants := by
  show ((Rule.all.map RuleSource.registered ++ extra).flatMap (RuleSource.findings s o)).filter
    o.wants = _
  rw [List.filter_flatMap, List.filter_flatMap]
  congr 1
  funext source
  cases source with
  | registered rule => exact rule.filter_findings s o
  | custom run => rfl

/-! ## 2. Checks under different options -/

def madeFindings (file : String) (text : Text) (o : Options) : List Diagnostic :=
  (Stylesheet.ofText file text).2 ++
    Rule.all.flatMap fun r => r.run (Stylesheet.ofText file text).1 o

/-- What is found does not depend on which rules are enabled and how serious they are. -/
theorem madeFindings_select (o : Options) (enabled : RuleId → Bool)
    (override : RuleId → Option Severity) :
    madeFindings file text (o.select enabled override) = madeFindings file text o := by
  simp only [madeFindings, Rule.run_select]

/-- The wanted findings are a part of those that are made; a rule that is skipped had nothing wanted
to say. -/
theorem rawFindings_eq_filter (o : Options) :
    rawFindings file text o = (madeFindings file text o).filter o.wants := by
  show (Stylesheet.ofText file text).2.filter o.wants ++
    (Stylesheet.ofText file text).1.validate o [] = _
  rw [Stylesheet.validate_eq_filter, List.append_nil, List.flatMap_map, madeFindings,
    List.filter_append]
  rfl

theorem Options.compareKey_judge (o : Options) (a b : Diagnostic) :
    (o.judge a).compareKey (o.judge b) = a.compareKey b := rfl

/-- A check selects from the consolidated findings of all rules. -/
theorem check_eq_select (o : Options) :
    check file text o =
      ((Diagnostic.consolidate (madeFindings file text o)).filter o.wants).map o.judge := by
  have hkey (a b : Diagnostic) (h : a.compareKey b = .eq) : o.wants a = o.wants b :=
    congrArg o.enabled (Diagnostic.compareKey_eq_iff.1 h).2.2.2.1
  rw [check, Diagnostic.consolidate_map o.compareKey_judge, rawFindings_eq_filter,
    Diagnostic.consolidate_filter hkey]

/-- Selecting among findings that were judged before. -/
theorem map_judge_filter_wants (o o' : Options) (ds : List Diagnostic) :
    ((ds.map o'.judge).filter o.wants).map o.judge = (ds.filter o.wants).map o.judge := by
  rw [List.filter_map, List.map_map]
  rfl

/-- **Enabling rules and setting severities only selects and relabels.** A check under any options
is the check under the same options with all rules enabled and no severity set, without the
findings of rules that are not enabled, in the same order, and with the severity of each set to
what the options say of its rule. So what is enabled of other rules changes nothing about the
findings of a rule, and the rules that are skipped because none of what they declare is enabled
have no finding that would be kept. -/
theorem check_selection (file : String) (text : Text) (o : Options) :
    check file text o =
      ((check file text (o.select (fun _ => true) fun _ => none)).filter fun d =>
        o.enabled d.rule).map (fun d => { d with severity := o.severityOf d.rule }) ∧
    (∀ (enabled : RuleId → Bool) (rule : RuleId), enabled rule = o.enabled rule →
      (check file text (o.select enabled o.override)).filter (·.rule == rule) =
        (check file text o).filter (·.rule == rule)) ∧
    (∀ (s : Stylesheet) (extra : List RuleSource),
      s.validate o extra =
        ((Rule.all.map RuleSource.registered ++ extra).flatMap (RuleSource.run s o)).filter
          fun d => o.enabled d.rule) := by
  refine ⟨?_, fun enabled rule hrule => ?_, fun s extra => s.validate_eq_filter o extra⟩
  · rw [check_eq_select o, check_eq_select (o.select _ _), madeFindings_select]
    have hall (ds : List Diagnostic) :
        ds.filter (o.select (fun _ => true) fun _ => none).wants = ds :=
      List.filter_eq_self.2 fun _ _ => rfl
    rw [hall]
    exact (map_judge_filter_wants o _ _).symm
  · rw [check_eq_select o, check_eq_select (o.select _ _), madeFindings_select, List.filter_map,
      List.filter_map, List.filter_filter, List.filter_filter]
    congr 1
    refine List.filter_congr fun d _ => ?_
    by_cases hd : d.rule = rule
    · simp [Options.wants, Options.select, Options.judge, hd, hrule]
    · have hother : (d.rule == rule) = false := beq_eq_false_iff_ne.2 hd
      simp [Options.judge, hother]

end HouseStyle
