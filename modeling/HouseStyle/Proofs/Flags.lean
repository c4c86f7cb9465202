/-
HouseStyle.Proofs.Flags — the command line adds to what a configuration says.

Flags are put into the fields of a configuration under the first spelling of their options, and
options are made of the fields thereafter. So a flag has the last word exactly if the field that it
is put into is the last of its option, and names are added to those of a configuration exactly if
those stand under the first spelling too. A configuration whose fields leave room for the flags
(`Receptive`) has both, and then the options of a run are those of the configuration, with the
limits that are given, the class names that are allowed besides and without the rules to disable
(`buildOptions_receptive`). A configuration that names its allowed classes in the second spelling
loses them to the flags (`allowlist_lost`).

## How the proof goes

`Options.Reads.foldlM` says which field a part of the options is read from, so both options are
compared field by field: `lastField?_mergeFields_of_ne` for options without flags, `setField` for
the limits and `listed_extendField` for the two lists of names.
-/
import HouseStyle.Command
import HouseStyle.Proofs.Completion
import HouseStyle.Proofs.Fields

namespace HouseStyle

namespace Options

/-! ## 1. Names in the last field of an option -/

/-- The names that the last field of an option lists; there are none if it has no field. -/
def Listed (name : OptionName) (fields : Value.Fields) (names : List Points) : Prop :=
  match lastField? name fields with
  | some (key, value) => readNames key value = .ok names
  | none => names = []

theorem Listed.unique {name : OptionName} {fields : Value.Fields} {names others : List Points}
    (h : Listed name fields names) (h' : Listed name fields others) : names = others := by
  unfold Listed at h h'
  split at h
  · rename_i key value hlast
    rw [hlast] at h'
    exact Except.ok.inj (h.symm.trans h')
  · rename_i hlast
    rw [hlast] at h'
    exact h.trans h'.symm

theorem Listed.congr {name : OptionName} {fields fields' : Value.Fields} {names : List Points}
    (he : lastField? name fields' = lastField? name fields) (h : Listed name fields names) :
    Listed name fields' names := by
  unfold Listed
  rw [he]
  exact h

variable {fields fields' : Value.Fields} {r r' : Reading}

theorem listed_disabled (hr : fields.foldlM Reading.take {} = .ok r) :
    Listed .disabledRules fields r.disabled := by
  have hread := (reads .disabledRules).foldlM hr
  unfold Listed
  cases hlast : lastField? .disabledRules fields <;> rw [hlast] at hread <;> exact hread

theorem listed_allowlist (hr : fields.foldlM Reading.take {} = .ok r) :
    ∃ names, Listed .namingAllowlist fields names ∧
      r.draft.allowlist = names.filterMap Points.toString? := by
  have hread := (reads .namingAllowlist).foldlM hr
  unfold Listed
  cases hlast : lastField? .namingAllowlist fields with
  | none =>
    rw [hlast] at hread
    exact ⟨[], rfl, hread⟩
  | some found =>
    rw [hlast] at hread
    obtain ⟨names, hnames, he⟩ := of_map_eq_ok hread
    exact ⟨names, hnames, he⟩

end Options

namespace Command

open Options

/-! ## 2. Fields that flags set and add to -/

variable {fields fields' : Value.Fields} {name option : OptionName}

theorem lastField?_setField_of_ne (h : option ≠ name) (number : Option Int)
    (fields : Value.Fields) :
    lastField? name (setField option.camel number fields) = lastField? name fields := by
  cases number with
  | none => rfl
  | some n => exact lastField?_put_of_ne h fields _

theorem nodup_setField (hkeys : (fields.map Prod.fst).Nodup) (key : String)
    (number : Option Int) : ((setField key number fields).map Prod.fst).Nodup := by
  cases number with
  | none => exact hkeys
  | some n => exact nodup_put hkeys _ _

/-- Without names to add a field stays as it is; otherwise what it holds must have members, and the
names go behind them. -/
theorem extendField_eq_ok {key : String} {names : List String}
    (h : extendField key names fields = .ok fields') :
    names = [] ∧ fields' = fields ∨
      names ≠ [] ∧ ∃ members,
        membersToExtend? ((Value.field? fields (.ofString key)).getD (.list [])) = some members ∧
        fields' = Value.put fields (.ofString key)
          (.list (members ++ names.map Value.ofString)) := by
  unfold extendField at h
  split at h
  · rename_i hempty
    cases h
    exact .inl ⟨List.isEmpty_iff.1 hempty, rfl⟩
  · rename_i hempty
    split at h
    · rename_i members hmembers
      cases h
      exact .inr ⟨fun he => hempty (List.isEmpty_iff.2 he), members, hmembers, rfl⟩
    · cases h

theorem lastField?_extendField_of_ne (h : option ≠ name) {names : List String}
    (hextend : extendField option.camel names fields = .ok fields') :
    lastField? name fields' = lastField? name fields := by
  rcases extendField_eq_ok hextend with ⟨-, rfl⟩ | ⟨-, members, -, rfl⟩
  · rfl
  · exact lastField?_put_of_ne h fields _

theorem nodup_extendField (hkeys : (fields.map Prod.fst).Nodup) {key : String}
    {names : List String} (hextend : extendField key names fields = .ok fields') :
    (fields'.map Prod.fst).Nodup := by
  rcases extendField_eq_ok hextend with ⟨-, rfl⟩ | ⟨-, members, -, rfl⟩
  · exact hkeys
  · exact nodup_put hkeys _ _

/-- What has members for a configuration has the same ones when more are added. -/
theorem membersToExtend?_of_members? {value : Value} {members : List Value}
    (h : value.members? = some members) : membersToExtend? value = some members := by
  cases value with
  | string s => cases h
  | _ => exact h

/-- The members to which flags add are those that the last field of the option lists, unless that
field is in the second spelling. -/
theorem names_membersToExtend (hkeys : (fields.map Prod.fst).Nodup)
    (hsnake : ¬LastInSnake name fields) {members : List Value} {names : List Points}
    (hmembers : membersToExtend?
      ((Value.field? fields (.ofString name.camel)).getD (.list [])) = some members)
    (hnames : Listed name fields names) : members.map Value.name = names := by
  unfold Listed at hnames
  cases hlast : lastField? name fields with
  | none =>
    rw [hlast] at hnames
    have hfield : Value.field? fields (.ofString name.camel) = none := by
      refine List.lookup_eq_none_iff.2 fun field hfield => bne_iff_ne.2 fun he => ?_
      exact lastField?_ne_none (he ▸ List.mem_map_of_mem hfield) hlast
    rw [hfield] at hmembers
    cases hmembers
    exact hnames.symm
  | some found =>
    obtain ⟨key, value⟩ := found
    rw [hlast] at hnames
    obtain ⟨hmem, rfl | rfl⟩ := lastField?_eq_some hlast
    · have hfield : Value.field? fields (.ofString name.camel) = some value :=
        (lookup_eq_some_iff_mem hkeys).2 hmem
      obtain ⟨listed, hlisted, rfl⟩ := readNames_eq_ok hnames
      rw [hfield, Option.getD_some, membersToExtend?_of_members? hlisted] at hmembers
      cases hmembers
      rfl
    · exact absurd (congrArg (Option.map Prod.fst) hlast) hsnake

/-- Flags add their names to those of the configuration. -/
theorem listed_extendField (hkeys : (fields.map Prod.fst).Nodup) {flags : List String}
    (hsnake : flags ≠ [] → ¬LastInSnake name fields)
    (hextend : extendField name.camel flags fields = .ok fields') {names : List Points}
    (hnames : Listed name fields names) :
    Listed name fields' (names ++ flags.map Points.ofString) := by
  rcases extendField_eq_ok hextend with ⟨rfl, rfl⟩ | ⟨hflags, members, hmembers, rfl⟩
  · rwa [List.map_nil, List.append_nil]
  · have hlist := names_membersToExtend hkeys (hsnake hflags) hmembers hnames
    have hflag : (flags.map Value.ofString).map Value.name = flags.map Points.ofString :=
      List.map_map
    unfold Listed
    rw [lastField?_put fun hshadowed => hsnake hflags hshadowed.1]
    show Except.ok ((members ++ flags.map Value.ofString).map Value.name) = _
    rw [List.map_append, hlist, hflag]

/-! ## 3. Configurations that leave room for the flags -/

/-- A limit that is given is not shadowed, and names that are given are not added to an option
whose last field is in the second spelling. -/
structure Receptive (a : CheckArguments) (fields : Value.Fields) : Prop where
  nestingDepth : a.maxNestingDepth.isSome → ¬Shadowed .maxNestingDepth fields
  lineLength : a.maxLineLength.isSome → ¬Shadowed .maxLineLength fields
  allowClasses : a.allowClasses ≠ [] → ¬LastInSnake .namingAllowlist fields
  disable : a.disable ≠ [] → ¬LastInSnake .disabledRules fields

variable {a : CheckArguments} {merged : Value.Fields}

/-- The fields with the limits that are given. -/
def withLimits (a : CheckArguments) (fields : Value.Fields) : Value.Fields :=
  setField OptionName.maxLineLength.camel a.maxLineLength
    (setField OptionName.maxNestingDepth.camel a.maxNestingDepth fields)

theorem lastField?_withLimits_of_ne (hdepth : OptionName.maxNestingDepth ≠ name)
    (hlength : OptionName.maxLineLength ≠ name) :
    lastField? name (withLimits a fields) = lastField? name fields := by
  unfold withLimits
  rw [lastField?_setField_of_ne hlength, lastField?_setField_of_ne hdepth]

theorem nodup_withLimits (hkeys : (fields.map Prod.fst).Nodup) :
    ((withLimits a fields).map Prod.fst).Nodup :=
  nodup_setField (nodup_setField hkeys _ _) _ _

/-- The stages of merging: the two limits, the class names, the rules to disable. -/
theorem mergeFields_eq_ok (h : mergeFields a fields = .ok merged) :
    ∃ allowed,
      extendField OptionName.namingAllowlist.camel a.allowClasses (withLimits a fields) =
        .ok allowed ∧
      extendField OptionName.disabledRules.camel a.disable allowed = .ok merged :=
  of_bind_eq_ok h

/-- The two lists of names leave the fields of other options alone. -/
theorem lastField?_mergeFields (h : mergeFields a fields = .ok merged)
    (hallow : OptionName.namingAllowlist ≠ name) (hdisable : OptionName.disabledRules ≠ name) :
    lastField? name merged = lastField? name (withLimits a fields) := by
  obtain ⟨allowed, hallowed, hmerged⟩ := mergeFields_eq_ok h
  rw [lastField?_extendField_of_ne hdisable hmerged, lastField?_extendField_of_ne hallow hallowed]

/-- Flags do not touch the options that have none. -/
theorem lastField?_mergeFields_of_ne (h : mergeFields a fields = .ok merged)
    (hdepth : OptionName.maxNestingDepth ≠ name) (hlength : OptionName.maxLineLength ≠ name)
    (hallow : OptionName.namingAllowlist ≠ name) (hdisable : OptionName.disabledRules ≠ name) :
    lastField? name merged = lastField? name fields := by
  rw [lastField?_mergeFields h hallow hdisable, lastField?_withLimits_of_ne hdepth hlength]

/-- A limit that is given is the last field of its option. -/
theorem lastField?_setField {n : Int} (h : ¬Shadowed name fields) :
    lastField? name (setField name.camel (some n) fields) = some (name.camel, .int n) :=
  lastField?_put h _

/-- Setting one option does not shadow another. -/
theorem not_shadowed_setField (h : option ≠ name) (hnot : ¬Shadowed name fields)
    (number : Option Int) : ¬Shadowed name (setField option.camel number fields) := by
  cases number with
  | none => exact hnot
  | some n => exact fun hshadowed => hnot (shadowed_put_of_ne h hshadowed)

/-- What is read into a limit of the merged fields: the number that is given, if there is one, and
else what was read from the configuration. -/
theorem limit_setField {part : Reading → Int} (hpart : Reads name part readInt) {r r' : Reading}
    {number : Option Int} {before : Value.Fields} (hr : fields.foldlM Reading.take {} = .ok r)
    (hr' : merged.foldlM Reading.take {} = .ok r')
    (hbefore : lastField? name before = lastField? name fields)
    (hmerged : lastField? name merged = lastField? name (setField name.camel number before))
    (hroom : number.isSome → ¬Shadowed name before) : part r' = number.getD (part r) := by
  cases number with
  | none => exact hpart.eq_of_lastField?_eq hr hr' (hmerged.trans hbefore)
  | some n =>
    have hread := hpart.foldlM hr'
    rw [hmerged, lastField?_setField (hroom rfl)] at hread
    exact (Except.ok.inj hread).symm

/-- The allowed classes of the command line are added to those that the fields list. -/
theorem listed_allowlist_mergeFields (hkeys : (fields.map Prod.fst).Nodup)
    (hroom : Receptive a fields) (hmerge : mergeFields a fields = .ok merged) {names : List Points}
    (h : Listed .namingAllowlist fields names) :
    Listed .namingAllowlist merged (names ++ a.allowClasses.map Points.ofString) := by
  obtain ⟨allowed, hallowed, hmerged⟩ := mergeFields_eq_ok hmerge
  have hsame : lastField? .namingAllowlist (withLimits a fields) =
      lastField? .namingAllowlist fields :=
    lastField?_withLimits_of_ne (by decide) (by decide)
  have hlist : Listed .namingAllowlist allowed (names ++ a.allowClasses.map Points.ofString) := by
    refine listed_extendField (nodup_withLimits hkeys) (fun hgiven hsnake => ?_) hallowed
      (h.congr hsame)
    exact hroom.allowClasses hgiven (hsnake.congr hsame)
  exact hlist.congr (lastField?_extendField_of_ne (by decide) hmerged)

/-- The disabled rules of the command line are added to those that the fields list. -/
theorem listed_disabled_mergeFields (hkeys : (fields.map Prod.fst).Nodup)
    (hroom : Receptive a fields) (hmerge : mergeFields a fields = .ok merged) {names : List Points}
    (h : Listed .disabledRules fields names) :
    Listed .disabledRules merged (names ++ a.disable.map Points.ofString) := by
  obtain ⟨allowed, hallowed, hmerged⟩ := mergeFields_eq_ok hmerge
  have hsame : lastField? .disabledRules allowed = lastField? .disabledRules fields := by
    rw [lastField?_extendField_of_ne (by decide) hallowed,
      lastField?_withLimits_of_ne (by decide) (by decide)]
  refine listed_extendField (nodup_extendField (nodup_withLimits hkeys) hallowed)
    (fun hgiven hsnake => ?_) hmerged (h.congr hsame)
  exact hroom.disable hgiven (hsnake.congr hsame)

/-- The readings of a configuration and of its fields merged with flags agree but for the flags. -/
theorem reading_mergeFields (hkeys : (fields.map Prod.fst).Nodup) (hroom : Receptive a fields)
    (hmerge : mergeFields a fields = .ok merged) {r r' : Reading}
    (hr : fields.foldlM Reading.take {} = .ok r)
    (hr' : merged.foldlM Reading.take {} = .ok r') :
    r'.draft.maxNestingDepth = a.maxNestingDepth.getD r.draft.maxNestingDepth ∧
      r'.draft.maxLineLength = a.maxLineLength.getD r.draft.maxLineLength ∧
      r'.draft.allowlist = r.draft.allowlist ++ a.allowClasses ∧
      r'.disabled = r.disabled ++ a.disable.map Points.ofString := by
  refine ⟨?_, ?_, ?_, ?_⟩
  · refine limit_setField (reads .maxNestingDepth) hr hr' rfl ?_ hroom.nestingDepth
    rw [lastField?_mergeFields hmerge (by decide) (by decide), withLimits,
      lastField?_setField_of_ne (by decide)]
  · refine limit_setField (reads .maxLineLength) hr hr'
      (lastField?_setField_of_ne (by decide) a.maxNestingDepth fields)
      (lastField?_mergeFields hmerge (by decide) (by decide)) fun hgiven => ?_
    exact not_shadowed_setField (by decide) (hroom.lineLength hgiven) _
  · obtain ⟨names, hnames, hold⟩ := listed_allowlist hr
    obtain ⟨names', hnames', hnew⟩ := listed_allowlist hr'
    have hlist := listed_allowlist_mergeFields hkeys hroom hmerge hnames
    have hflags : (a.allowClasses.map Points.ofString).filterMap Points.toString? =
        a.allowClasses := by
      rw [List.filterMap_map]
      exact (List.filterMap_congr fun s _ => Points.toString?_ofString s).trans List.filterMap_some
    rw [hnew, hold, hnames'.unique hlist, List.filterMap_append, hflags]
  · have hlist := listed_disabled_mergeFields hkeys hroom hmerge (listed_disabled hr)
    exact (listed_disabled hr').unique hlist

/-! ## 4. The options of a run -/

theorem buildOptions_eq_ok {o : Options} (h : buildOptions a fields = .ok o) :
    ∃ merged, mergeFields a fields = .ok merged ∧ Options.ofFields merged = .ok o := by
  obtain ⟨merged, hmerge, h⟩ := of_bind_eq_ok h
  exact ⟨merged, mapError_eq_ok.1 hmerge, mapError_eq_ok.1 h⟩

/-- **Flags extend or override the configuration.** Let a configuration be accepted, and let it
leave room for the flags. Then the options of a run with these flags have the limits that are given
and for the others those of the configuration, they allow the class names of both, they enable the
rules that the configuration enables less those that are named, and in all else they are the options
of the configuration. -/
theorem buildOptions_receptive {c o : Options} (hkeys : (fields.map Prod.fst).Nodup)
    (hc : Options.ofFields fields = .ok c) (ho : buildOptions a fields = .ok o)
    (hroom : Receptive a fields) :
    (o.maxNestingDepth : Int) = a.maxNestingDepth.getD c.maxNestingDepth ∧
      (o.maxLineLength : Int) = a.maxLineLength.getD c.maxLineLength ∧
      (∀ name, name ∈ o.allowlist ↔ name ∈ c.allowlist ∨ name ∈ a.allowClasses) ∧
      (∀ rule, o.enabled rule = true ↔ c.enabled rule = true ∧
        ∀ name ∈ a.disable, RuleId.parse (.ofString name) ≠ .ok rule) ∧
      o.vendorExempt = c.vendorExempt ∧ o.override = c.override := by
  obtain ⟨merged, hmerge, ho⟩ := buildOptions_eq_ok ho
  obtain ⟨r, hr, hc⟩ := ofFields_eq_ok hc
  obtain ⟨r', hr', ho⟩ := ofFields_eq_ok ho
  obtain ⟨disabled, hdisabled, hdepth, hlength, hvendor, henabled, hallow, hoverride⟩ :=
    Reading.finish_eq_ok hc
  obtain ⟨disabled', hdisabled', hdepth', hlength', hvendor', henabled', hallow', hoverride'⟩ :=
    Reading.finish_eq_ok ho
  obtain ⟨hdepths, hlengths, hallowed, hnames⟩ := reading_mergeFields hkeys hroom hmerge hr hr'
  -- options without flags are read from the same field as before
  have hsame : ∀ {α : Type} {name : OptionName} {part : Reading → α}
      {read : String → Value → Except OptionsError α}, Reads name part read →
      OptionName.maxNestingDepth ≠ name → OptionName.maxLineLength ≠ name →
      OptionName.namingAllowlist ≠ name → OptionName.disabledRules ≠ name → part r' = part r :=
    fun hpart h₁ h₂ h₃ h₄ => hpart.eq_of_lastField?_eq hr hr'
      (lastField?_mergeFields_of_ne hmerge h₁ h₂ h₃ h₄)
  refine ⟨?_, ?_, fun name => ?_, fun rule => ?_, ?_, ?_⟩
  · rw [hdepth', hdepths, hdepth]
  · rw [hlength', hlengths, hlength]
  · rw [hallow', hallow, mem_nameSet, mem_nameSet, hallowed, List.mem_append]
  · have hrule : r'.draft.enabled = r.draft.enabled :=
      hsame (reads .enabledRules) (by decide) (by decide) (by decide) (by decide)
    have hflags : rule ∈ disabled' ↔ rule ∈ disabled ∨
        ∃ name ∈ a.disable, RuleId.parse (.ofString name) = .ok rule := by
      rw [mem_readRules hdisabled', mem_readRules hdisabled, hnames]
      simp only [List.mem_append, or_and_right, exists_or, List.mem_map, exists_exists_and_eq_and]
    simp only [henabled', henabled, hrule, Bool.and_eq_true, Bool.not_eq_true',
      List.contains_eq_mem, decide_eq_false_iff_not, hflags, not_or, not_exists, not_and, and_assoc]
  · rw [hvendor', hvendor]
    exact hsame (reads .vendorExempt) (by decide) (by decide) (by decide) (by decide)
  · rw [hoverride', hoverride]
    exact hsame (reads .severityOverrides) (by decide) (by decide) (by decide) (by decide)

/-- A limit in the second spelling, a list of class names in the first, and flags for both. -/
theorem buildOptions_receptive_mixed :
    let fields : Value.Fields :=
      [(.ofString "namingAllowlist", .list [.ofString "a_b"]),
        (.ofString "max_nesting_depth", .int 5),
        (.ofString "disabled_rules", .list [.ofString "ColonSpacing"])]
    let a : CheckArguments :=
      { paths := ["a.css"], maxNestingDepth := some 2, allowClasses := ["c_d"] }
    (fields.map Prod.fst).Nodup ∧ Receptive a fields ∧
      ∃ c o, Options.ofFields fields = .ok c ∧ buildOptions a fields = .ok o ∧
        (o.maxNestingDepth : Int) = 2 ∧ (o.maxLineLength : Int) = c.maxLineLength ∧
        (∀ name, name ∈ o.allowlist ↔ name ∈ c.allowlist ∨ name ∈ ["c_d"]) ∧
        o.vendorExempt = c.vendorExempt := by
  intro fields a
  have hkeys : (fields.map Prod.fst).Nodup := by decide
  have hroom : Receptive a fields := by constructor <;> decide
  refine ⟨hkeys, hroom, _, _, rfl, rfl, ?_⟩
  obtain ⟨hdepth, hlength, hallow, -, hvendor, -⟩ := buildOptions_receptive hkeys rfl rfl hroom
  exact ⟨hdepth, hlength, hallow, hvendor⟩

/-- A class name that the configuration allows in the second spelling is lost to a flag that allows
another. -/
theorem allowlist_lost :
    ∃ c o, Options.ofFields [(.ofString "naming_allowlist", .list [.ofString "a_b"])] = .ok c ∧
      buildOptions { paths := ["a.css"], allowClasses := ["c_d"] }
        [(.ofString "naming_allowlist", .list [.ofString "a_b"])] = .ok o ∧
      "a_b" ∈ c.allowlist ∧ "a_b" ∉ o.allowlist :=
  ⟨_, _, rfl, rfl, by decide, by decide⟩

end Command

end HouseStyle
