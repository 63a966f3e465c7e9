import IdaMcp.Tools.Filter

namespace IdaMcp.Tools

variable (toLowercase : String → String) {enabled set : Finset String} {name : String}

theorem mem_foldl_insert {α : Type} (key : α → String) (items : List α) :
    name ∈ items.foldl (fun set item => insert (key item) set) set ↔
      name ∈ set ∨ ∃ item ∈ items, key item = name := by
  induction items generalizing set with
  | nil => simp
  | cons item items ih =>
    rw [List.foldl_cons, ih, Finset.mem_insert]
    simp only [List.mem_cons, exists_eq_or_imp]
    tauto

theorem mem_foldl_erase (names : List String) :
    name ∈ names.foldl (fun set name => set.erase name) set ↔ name ∈ set ∧ name ∉ names := by
  induction names generalizing set with
  | nil => simp
  | cons n names ih =>
    rw [List.foldl_cons, ih, Finset.mem_erase, List.mem_cons]
    tauto

def firstUnknown (known : String → Bool) (raws : List String) : Option String :=
  raws.find? fun raw => !known raw

theorem firstUnknown_cons {known : String → Bool} {raw : String} {rest : List String} :
    firstUnknown known (raw :: rest) = if known raw then firstUnknown known rest else some raw := by
  cases h : known raw <;> simp [firstUnknown, h]

theorem eachTool_eq (change : String → Finset String → Finset String) (raws : List String) :
    eachTool change raws enabled =
      match firstUnknown (fun raw => (getTool raw).isSome) raws with
      | some raw => .error (.unknownTool raw)
      | none => .ok (raws.foldl (fun set raw => change raw set) enabled) := by
  induction raws generalizing enabled with
  | nil => rfl
  | cons raw rest ih =>
    rw [eachTool, firstUnknown_cons]
    cases htool : getTool raw with
    | none => rfl
    | some tool =>
      obtain ⟨-, rfl⟩ := getTool_eq_some.mp htool
      exact ih

theorem addTools_eq (raws : List String) : addTools raws enabled =
    match firstUnknown (fun raw => (getTool raw).isSome) raws with
    | some raw => .error (.unknownTool raw)
    | none => .ok (raws.foldl (fun set raw => insert raw set) enabled) :=
  eachTool_eq insert raws

theorem removeTools_eq (raws : List String) : removeTools raws enabled =
    match firstUnknown (fun raw => (getTool raw).isSome) raws with
    | some raw => .error (.unknownTool raw)
    | none => .ok (raws.foldl (fun set raw => set.erase raw) enabled) :=
  eachTool_eq (fun name set => set.erase name) raws

def toolsetNames (raws : List String) : List String :=
  raws.flatMap fun raw => ((categoryFromStr toLowercase raw).elim [] toolsByCategory).map ToolInfo.name

theorem addToolsets_eq (raws : List String) : addToolsets toLowercase raws enabled =
    match firstUnknown (fun raw => (categoryFromStr toLowercase raw).isSome) raws with
    | some raw => .error (.unknownToolset raw)
    | none => .ok ((toolsetNames toLowercase raws).foldl (fun set name => insert name set) enabled) := by
  induction raws generalizing enabled with
  | nil => rfl
  | cons raw rest ih =>
    rw [addToolsets, firstUnknown_cons, toolsetNames, List.flatMap_cons, List.foldl_append]
    cases hcategory : categoryFromStr toLowercase raw with
    | none => rfl
    | some category =>
      simp only [Option.isSome_some, if_true, ih, Option.elim_some, List.foldl_map]
      rfl

theorem mem_toolsetNames {raws : List String} : name ∈ toolsetNames toLowercase raws ↔
    ∃ tool ∈ toolRegistry, tool.name = name ∧
      ∃ raw ∈ raws, categoryFromStr toLowercase raw = some tool.category := by
  simp only [toolsetNames, List.mem_flatMap, List.mem_map]
  constructor
  · rintro ⟨raw, hraw, tool, htool, rfl⟩
    cases hcategory : categoryFromStr toLowercase raw with
    | none =>
      rw [hcategory] at htool
      cases htool
    | some category =>
      rw [hcategory, Option.elim_some, toolsByCategory, List.mem_filter] at htool
      have hsame : tool.category = category := of_decide_eq_true htool.2
      exact ⟨tool, htool.1, rfl, raw, hraw, hsame ▸ hcategory⟩
  · rintro ⟨tool, htool, rfl, raw, hraw, hcategory⟩
    refine ⟨raw, hraw, tool, ?_, rfl⟩
    rw [hcategory, Option.elim_some, toolsByCategory, List.mem_filter]
    exact ⟨htool, decide_eq_true rfl⟩

def profileNames (profile : Option String) : List String := (profile.bind profileTools).getD []

theorem addProfile_eq (profile : Option String) : addProfile profile enabled =
    match profile.filter fun name => (profileTools name).isNone with
    | some name => .error (.unknownProfile name)
    | none => .ok ((profileNames profile).foldl (fun set name => insert name set) enabled) := by
  cases profile with
  | none => rfl
  | some name =>
    cases hmembers : profileTools name with
    | none => simp [addProfile, Option.filter, hmembers]
    | some members => simp [addProfile, Option.filter, profileNames, hmembers]

theorem registered_of_profile {profile : Option String} (h : name ∈ profileNames profile) :
    ∃ tool ∈ toolRegistry, tool.name = name := by
  have hlean : ∀ name ∈ leanProfile, (getTool name).isSome := by decide +kernel
  cases profile with
  | none => cases h
  | some p =>
    rw [profileNames, Option.bind_some, profileTools] at h
    split_ifs at h with hp
    · exact getTool_isSome.mp (hlean name h)
    · cases h

theorem registered_of_known {raws : List String}
    (h : firstUnknown (fun raw => (getTool raw).isSome) raws = none) (hname : name ∈ raws) :
    ∃ tool ∈ toolRegistry, tool.name = name := by
  have hknown := List.find?_eq_none.mp h name hname
  exact getTool_isSome.mp (by simpa [Option.isSome_iff_ne_none] using hknown)

namespace ToolFilterArgs

variable (args : ToolFilterArgs)

def chooses : Bool :=
  cleanProfile args.profile ≠ none || clean args.toolsets ≠ [] || clean args.tools ≠ []

def narrows : Bool :=
  (cleanProfile args.profile).isSome || clean args.toolsets ≠ [] || clean args.tools ≠ [] ||
    clean args.excludeTools ≠ [] || args.readOnly

def selects (tool : ToolInfo) : Bool :=
  (!args.chooses || tool.name ∈ profileNames (cleanProfile args.profile) ||
      (clean args.toolsets).any (fun raw => categoryFromStr toLowercase raw = some tool.category) ||
      tool.name ∈ clean args.tools) &&
    tool.name ∉ clean args.excludeTools && !(args.readOnly && tool.name ∈ readOnlyDenyList)

def allows (platform debuggerEnabled workspaceEnabled : Bool) (tool : ToolInfo) : Bool :=
  args.selects toLowercase tool && (!tool.requirements.debugger || debuggerEnabled && platform) &&
    (!tool.requirements.workspace || workspaceEnabled)

def unknown : Option ToolFilterError :=
  (((cleanProfile args.profile).filter fun name => (profileTools name).isNone).map .unknownProfile).or
    (((firstUnknown (fun raw => (categoryFromStr toLowercase raw).isSome) (clean args.toolsets)).map
      .unknownToolset).or
    (((firstUnknown (fun raw => (getTool raw).isSome) (clean args.tools)).map .unknownTool).or
    ((firstUnknown (fun raw => (getTool raw).isSome) (clean args.excludeTools)).map .unknownTool)))

def refusal (platform debuggerEnabled workspaceEnabled : Bool) : Option ToolFilterError :=
  (args.unknown toLowercase).or
    (if toolRegistry.any (args.allows toLowercase platform debuggerEnabled workspaceEnabled) then none
      else some .emptyFinalSet)

end ToolFilterArgs

variable {args : ToolFilterArgs} {platform debuggerEnabled workspaceEnabled : Bool}

def finalSet (args : ToolFilterArgs) : Finset String :=
  let base : Finset String := if args.chooses then ∅ else (toolRegistry.map ToolInfo.name).toFinset
  let included := (clean args.tools).foldl (fun set name => insert name set)
    ((toolsetNames toLowercase (clean args.toolsets)).foldl (fun set name => insert name set)
      ((profileNames (cleanProfile args.profile)).foldl (fun set name => insert name set) base))
  let kept := (clean args.excludeTools).foldl (fun set name => set.erase name) included
  if args.readOnly then readOnlyDenyList.foldl (fun set name => set.erase name) kept else kept

theorem fromProfileAndInputs_eq (args : ToolFilterArgs) :
    fromProfileAndInputs toLowercase args.profile args.toolsets args.tools args.excludeTools args.readOnly =
      match args.unknown toLowercase with
      | some e => .error e
      | none => if finalSet toLowercase args = ∅ then .error .emptyFinalSet
        else .ok ⟨finalSet toLowercase args, args.narrows, false, false⟩ := by
  have hchooses : (cleanProfile args.profile = none ∧ clean args.toolsets = [] ∧ clean args.tools = []) ↔
      args.chooses = false := by
    simp [ToolFilterArgs.chooses, and_assoc]
  rw [fromProfileAndInputs, ToolFilterArgs.unknown]
  simp only [addProfile_eq, addToolsets_eq, addTools_eq, removeTools_eq, hchooses]
  cases (cleanProfile args.profile).filter fun name => (profileTools name).isNone with
  | some name => rfl
  | none =>
    cases firstUnknown (fun raw => (categoryFromStr toLowercase raw).isSome) (clean args.toolsets) with
    | some raw => rfl
    | none =>
      cases firstUnknown (fun raw => (getTool raw).isSome) (clean args.tools) with
      | some raw => rfl
      | none =>
        cases firstUnknown (fun raw => (getTool raw).isSome) (clean args.excludeTools) with
        | some raw => rfl
        | none =>
          cases hchoice : args.chooses <;>
            simp [finalSet, hchoice, ToolFilterArgs.narrows, bind, Except.bind]

theorem mem_finalSet_iff : name ∈ finalSet toLowercase args ↔
    ((args.chooses = false ∧ ∃ tool ∈ toolRegistry, tool.name = name) ∨
        name ∈ profileNames (cleanProfile args.profile) ∨
        name ∈ toolsetNames toLowercase (clean args.toolsets) ∨ name ∈ clean args.tools) ∧
      name ∉ clean args.excludeTools ∧ ¬(args.readOnly = true ∧ name ∈ readOnlyDenyList) := by
  have hbase : name ∈ (if args.chooses then ∅ else (toolRegistry.map ToolInfo.name).toFinset) ↔
      args.chooses = false ∧ ∃ tool ∈ toolRegistry, tool.name = name := by
    cases args.chooses <;> simp
  have hinsert (set : Finset String) (names : List String) :
      name ∈ names.foldl (fun set name => insert name set) set ↔ name ∈ set ∨ name ∈ names := by
    have hmem : name ∈ names.foldl (fun set item => insert (id item) set) set ↔
        name ∈ set ∨ ∃ item ∈ names, id item = name := mem_foldl_insert id names
    simpa using hmem
  unfold finalSet
  cases args.readOnly <;> simp [mem_foldl_erase, hinsert, hbase, or_assoc, and_assoc]

theorem selects_iff {tool : ToolInfo} : args.selects toLowercase tool = true ↔
    (args.chooses = false ∨ tool.name ∈ profileNames (cleanProfile args.profile) ∨
        (∃ raw ∈ clean args.toolsets, categoryFromStr toLowercase raw = some tool.category) ∨
        tool.name ∈ clean args.tools) ∧
      tool.name ∉ clean args.excludeTools ∧ ¬(args.readOnly = true ∧ tool.name ∈ readOnlyDenyList) := by
  simp [ToolFilterArgs.selects, or_assoc, and_assoc, imp_iff_not_or]

theorem mem_finalSet (hknown : args.unknown toLowercase = none) : name ∈ finalSet toLowercase args ↔
    ∃ tool ∈ toolRegistry, tool.name = name ∧ args.selects toLowercase tool = true := by
  simp only [ToolFilterArgs.unknown, Option.or_eq_none_iff, Option.map_eq_none_iff] at hknown
  obtain ⟨-, -, htools, -⟩ := hknown
  rw [mem_finalSet_iff]
  constructor
  · rintro ⟨hincluded, hexcluded, hdenied⟩
    rcases hincluded with ⟨hchooses, tool, htool, rfl⟩ | hprofile | htoolset | hnamed
    · exact ⟨tool, htool, rfl, (selects_iff toLowercase).mpr ⟨.inl hchooses, hexcluded, hdenied⟩⟩
    · obtain ⟨tool, htool, rfl⟩ := registered_of_profile hprofile
      exact ⟨tool, htool, rfl, (selects_iff toLowercase).mpr ⟨.inr (.inl hprofile), hexcluded, hdenied⟩⟩
    · obtain ⟨tool, htool, rfl, hraw⟩ := (mem_toolsetNames toLowercase).mp htoolset
      exact ⟨tool, htool, rfl, (selects_iff toLowercase).mpr ⟨.inr (.inr (.inl hraw)), hexcluded, hdenied⟩⟩
    · obtain ⟨tool, htool, rfl⟩ := registered_of_known htools hnamed
      exact ⟨tool, htool, rfl,
        (selects_iff toLowercase).mpr ⟨.inr (.inr (.inr hnamed)), hexcluded, hdenied⟩⟩
  · rintro ⟨tool, htool, rfl, hselects⟩
    obtain ⟨hchosen, hkept⟩ := (selects_iff toLowercase).mp hselects
    refine ⟨?_, hkept⟩
    rcases hchosen with hchooses | hprofile | hraw | hnamed
    · exact .inl ⟨hchooses, tool, htool, rfl⟩
    · exact .inr (.inl hprofile)
    · exact .inr (.inr (.inl ((mem_toolsetNames toLowercase).mpr ⟨tool, htool, rfl, hraw⟩)))
    · exact .inr (.inr (.inr hnamed))

def builtFilter (args : ToolFilterArgs) (platform debuggerEnabled workspaceEnabled : Bool) : ToolFilter :=
  ⟨finalSet toLowercase args, args.narrows, debuggerEnabled && platform, workspaceEnabled⟩

theorem isEnabled_builtFilter (hknown : args.unknown toLowercase = none) :
    (builtFilter toLowercase args platform debuggerEnabled workspaceEnabled).isEnabled name = true ↔
      ∃ tool ∈ toolRegistry, tool.name = name ∧
        args.allows toLowercase platform debuggerEnabled workspaceEnabled tool = true := by
  simp only [ToolFilter.isEnabled, builtFilter, Bool.and_eq_true, decide_eq_true_eq, mem_finalSet toLowercase hknown]
  constructor
  · rintro ⟨⟨tool, htool, rfl, hselects⟩, hpermits⟩
    rw [getTool_of_mem htool, Option.any_some] at hpermits
    exact ⟨tool, htool, rfl, by simpa [ToolFilterArgs.allows, hselects, ToolFilter.permits] using hpermits⟩
  · rintro ⟨tool, htool, rfl, hallows⟩
    simp only [ToolFilterArgs.allows, Bool.and_eq_true] at hallows
    refine ⟨⟨tool, htool, rfl, hallows.1.1⟩, ?_⟩
    rw [getTool_of_mem htool, Option.any_some, ToolFilter.permits, Bool.and_eq_true]
    exact ⟨hallows.1.2, hallows.2⟩

theorem enabledCount_builtFilter (hknown : args.unknown toLowercase = none) :
    (builtFilter toLowercase args platform debuggerEnabled workspaceEnabled).enabledCount = 0 ↔
      toolRegistry.any (args.allows toLowercase platform debuggerEnabled workspaceEnabled) = false := by
  have hset (f : ToolFilter) : f.enabledCount = 0 ↔ ∀ name, f.isEnabled name ≠ true := by
    rw [ToolFilter.enabledCount, Finset.card_eq_zero, Finset.filter_eq_empty_iff]
    constructor
    · intro h name hname
      exact h (by simpa using (Bool.and_eq_true_iff.mp hname).1) hname
    · exact fun h name _ => h name
  rw [hset, List.any_eq_false]
  constructor
  · intro h tool htool hallows
    exact h tool.name ((isEnabled_builtFilter toLowercase hknown).mpr ⟨tool, htool, rfl, hallows⟩)
  · intro h name hname
    obtain ⟨tool, htool, -, hallows⟩ := (isEnabled_builtFilter toLowercase hknown).mp hname
    exact h tool htool hallows

theorem build_eq (args : ToolFilterArgs) (platform debuggerEnabled workspaceEnabled : Bool) :
    args.build toLowercase platform debuggerEnabled workspaceEnabled =
      match args.refusal toLowercase platform debuggerEnabled workspaceEnabled with
      | some e => .error e
      | none => .ok (builtFilter toLowercase args platform debuggerEnabled workspaceEnabled) := by
  rw [ToolFilterArgs.build, fromProfileAndInputs_eq, ToolFilterArgs.refusal]
  cases hknown : args.unknown toLowercase with
  | some e => rfl
  | none =>
    have hcount :
        (builtFilter toLowercase args platform debuggerEnabled workspaceEnabled).enabledCount = 0 ↔
          toolRegistry.any (args.allows toLowercase platform debuggerEnabled workspaceEnabled) = false :=
      enabledCount_builtFilter toLowercase hknown
    by_cases hempty : finalSet toLowercase args = ∅
    · have hzero : (builtFilter toLowercase args platform debuggerEnabled workspaceEnabled).enabledCount = 0 := by
        simp [ToolFilter.enabledCount, builtFilter, hempty]
      simp [hempty, hcount.mp hzero, bind, Except.bind]
    · have hbuilt : (⟨finalSet toLowercase args, args.narrows, false, false⟩ : ToolFilter).withCapabilities
          platform debuggerEnabled workspaceEnabled =
          if (builtFilter toLowercase args platform debuggerEnabled workspaceEnabled).enabledCount = 0 then
            .error .emptyFinalSet
          else .ok (builtFilter toLowercase args platform debuggerEnabled workspaceEnabled) := rfl
      cases hany : toolRegistry.any
          (args.allows toLowercase platform debuggerEnabled workspaceEnabled) with
      | false => simp [hempty, hbuilt, hcount.mpr hany, bind, Except.bind]
      | true =>
        have hne : (builtFilter toLowercase args platform debuggerEnabled workspaceEnabled).enabledCount ≠ 0 := by
          intro hzero
          rw [hcount.mp hzero] at hany
          cases hany
        simp [hempty, hbuilt, hne, bind, Except.bind]

theorem build_enables {args : ToolFilterArgs} {platform debuggerEnabled workspaceEnabled : Bool}
    {f : ToolFilter} (hbuild : args.build toLowercase platform debuggerEnabled workspaceEnabled = .ok f)
    (name : String) : f.isEnabled name = true ↔ ∃ tool ∈ toolRegistry,
      tool.name = name ∧ args.allows toLowercase platform debuggerEnabled workspaceEnabled tool = true := by
  rw [build_eq] at hbuild
  cases hrefusal : args.refusal toLowercase platform debuggerEnabled workspaceEnabled with
  | some e => simp [hrefusal] at hbuild
  | none =>
    rw [hrefusal] at hbuild
    obtain rfl := Except.ok.inj hbuild
    rw [ToolFilterArgs.refusal, Option.or_eq_none_iff] at hrefusal
    exact isEnabled_builtFilter toLowercase hrefusal.1

/-- The filter that the command line builds: it is refused for the first unknown name or because
nothing is left, and otherwise has on exactly what the flags and the capabilities allow. -/
theorem build_exact (args : ToolFilterArgs) (platform debuggerEnabled workspaceEnabled : Bool) :
    (∀ e, args.build toLowercase platform debuggerEnabled workspaceEnabled = .error e ↔
      args.refusal toLowercase platform debuggerEnabled workspaceEnabled = some e) ∧
    ∀ f, args.build toLowercase platform debuggerEnabled workspaceEnabled = .ok f →
      f.isActive = args.narrows ∧ ∀ name, f.isEnabled name = true ↔ ∃ tool ∈ toolRegistry,
        tool.name = name ∧ args.allows toLowercase platform debuggerEnabled workspaceEnabled tool = true := by
  constructor
  · rw [build_eq]
    cases args.refusal toLowercase platform debuggerEnabled workspaceEnabled <;> simp
  · intro f hf
    refine ⟨?_, build_enables toLowercase hf⟩
    rw [build_eq] at hf
    cases hrefusal : args.refusal toLowercase platform debuggerEnabled workspaceEnabled with
    | some e => simp [hrefusal] at hf
    | none =>
      rw [hrefusal] at hf
      obtain rfl := Except.ok.inj hf
      rfl

def leanArgs : ToolFilterArgs where
  profile := some " Lean "
  toolsets := ["debug"]
  tools := ["get_bytes, run_script", ""]
  excludeTools := ["segments"]
  readOnly := true

theorem leanArgs_refusal : leanArgs.refusal toAsciiLower true true false = none := by
  decide +kernel

theorem build_exact_lean : ∃ f, leanArgs.build toAsciiLower true true false = .ok f ∧
    f.isEnabled "get_bytes" = true ∧ f.isEnabled "debug_modules" = true ∧
    f.isEnabled "debug_open_module" ≠ true ∧ f.isEnabled "run_script" ≠ true ∧ f.isEnabled "segments" ≠ true := by
  have hexact := build_exact toAsciiLower leanArgs true true false
  cases hbuild : leanArgs.build toAsciiLower true true false with
  | error e =>
    have hrefused := (hexact.1 e).mp hbuild
    rw [leanArgs_refusal] at hrefused
    cases hrefused
  | ok f =>
    obtain ⟨-, henabled⟩ := hexact.2 f hbuild
    refine ⟨f, rfl, (henabled _).mpr ?_, (henabled _).mpr ?_, fun h => ?_, fun h => ?_, fun h => ?_⟩
    · decide +kernel
    · decide +kernel
    · exact absurd ((henabled _).mp h) (by decide +kernel)
    · exact absurd ((henabled _).mp h) (by decide +kernel)
    · exact absurd ((henabled _).mp h) (by decide +kernel)

end IdaMcp.Tools
