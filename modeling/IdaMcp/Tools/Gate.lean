import IdaMcp.Tools.Search
import IdaMcp.Tools.Selection

namespace IdaMcp.Tools

open Foundation

variable (toLowercase : String → String)

/-- A server with its filter. `routes` are the names that its router has handlers for, and `workspace`
is set where the server has a registry of databases. -/
structure Server where
  filter : ToolFilter
  workspace : Bool
  routes : List String

inductive CallGate
  | refused (message : String)
  | forwarded
deriving DecidableEq, Repr

inductive HelpAnswer
  | disabled (message : String)
  | documented (tool : ToolInfo)
  | notFound (suggestions : List String)

def workspaceMessage (name : String) : String :=
  "tool '" ++ name ++ "' requires explicit --workspace startup; call tool_catalog to see enabled tools"

def debuggerMessage (name : String) : String :=
  "tool '" ++ name ++ "' requires explicit --enable-debugger startup and a platform whose native " ++
    "debugger integration gate has passed; call tool_catalog to see enabled tools"

def filterMessage (name : String) : String :=
  "tool '" ++ name ++ "' is disabled by current filter " ++
    "(--toolsets/--tools/--exclude-tools/--read-only); call tool_catalog to see enabled tools"

def disabledToolMessage (name : String) (workspace debugger : Bool) : String :=
  if (getTool name).any fun tool => tool.requirements.workspace && !workspace then workspaceMessage name
  else if !debugger && (getTool name).any fun tool => tool.requirements.debugger then debuggerMessage name
  else filterMessage name

namespace Server

variable (server : Server)

def disabledMessage (name : String) : String :=
  disabledToolMessage name server.workspace server.filter.debuggerEnabled

def listAll : List String := (toolRegistry.map ToolInfo.name).filter (· ∈ server.routes)

def listTools : List String :=
  server.listAll.filter fun name => server.filter.isEnabled name &&
    (getTool name).all fun info => !info.requirements.workspace || server.workspace

def hasTool (name : String) : Bool :=
  !(!server.filter.isEnabled name ||
      (getTool name).any fun tool => tool.requirements.workspace && !server.workspace) &&
    name ∈ server.routes

def callTool (name : String) : CallGate :=
  if (getTool name).isSome && !server.filter.isEnabled name then .refused (server.disabledMessage name)
  else if (getTool name).any fun tool => tool.requirements.workspace && !server.workspace then
    .refused (server.disabledMessage name)
  else .forwarded

def toolHelp (name : String) : HelpAnswer :=
  if (getTool name).any fun tool => !server.filter.isEnabled name ||
      (tool.requirements.workspace && !server.workspace) then .disabled (server.disabledMessage name)
  else
    match getTool name with
    | some tool => .documented tool
    | none => .notFound ((searchTools toLowercase name 3).map fun m => m.tool.name)

def shows (tool : ToolInfo) : Bool :=
  server.filter.isEnabled tool.name && (!tool.requirements.workspace || server.workspace)

def catalogCategory (category : ToolCategory) (limit : ℕ) : List ToolInfo :=
  ((toolsByCategory category).filter server.shows).take limit

def catalogQuery (query : String) (limit : ℕ) : List Match :=
  ((searchTools toLowercase query toolRegistry.length).filter fun m => server.shows m.tool).take limit

def catalogCount (category : ToolCategory) : ℕ := (toolsByCategory category).countP server.shows

end Server

variable {toLowercase} {args : ToolFilterArgs} {platform debugger workspace : Bool} {f : ToolFilter}
  {routes : List String} {name query : String} {tool : ToolInfo} {limit : ℕ}

theorem isEnabled_of_build (hbuild : args.build toLowercase platform debugger workspace = .ok f)
    (htool : tool ∈ toolRegistry) :
    f.isEnabled tool.name = args.allows toLowercase platform debugger workspace tool := by
  have henabled := build_enables toLowercase hbuild tool.name
  rw [Bool.eq_iff_iff, henabled]
  constructor
  · rintro ⟨other, hother, hname, hallows⟩
    rwa [← List.inj_on_of_nodup_map toolNames_nodup hother htool hname]
  · exact fun hallows => ⟨tool, htool, rfl, hallows⟩

/-- Every way to a tool goes by the same verdict on it. -/
structure Agrees (toolLower : String → String) (server : Server) (allowed : ToolInfo → Bool) : Prop where
  listed : ∀ name, name ∈ server.listTools ↔
    name ∈ server.routes ∧ ∃ tool ∈ toolRegistry, tool.name = name ∧ allowed tool = true
  described : ∀ name, server.hasTool name = true ↔ name ∈ server.listTools
  called : ∀ tool ∈ toolRegistry, server.callTool tool.name = .forwarded ↔ allowed tool = true
  documented : ∀ tool ∈ toolRegistry, server.toolHelp toolLower tool.name = .documented tool ↔ allowed tool = true
  counted : ∀ category, server.catalogCount category =
    ((toolRegistry.filter allowed).filter fun tool => tool.category = category).length
  browsed : ∀ category limit, server.catalogCategory category limit =
    ((toolRegistry.filter allowed).filter fun tool => tool.category = category).take limit

variable {server : Server} {allowed : ToolInfo → Bool}

/-- What the surfaces ask of a registered tool, in one test. -/
def Server.Obeys (server : Server) (allowed : ToolInfo → Bool) : Prop :=
  ∀ tool ∈ toolRegistry, server.filter.isEnabled tool.name = allowed tool ∧
    (allowed tool = true → (!tool.requirements.workspace || server.workspace) = true)

theorem Server.Obeys.shows_eq (h : server.Obeys allowed) (htool : tool ∈ toolRegistry) :
    server.shows tool = allowed tool := by
  obtain ⟨henabled, hworkspace⟩ := h tool htool
  rw [Server.shows, henabled]
  cases hallowed : allowed tool with
  | false => rfl
  | true => exact hworkspace hallowed

theorem Server.Obeys.filter_eq (h : server.Obeys allowed) (category : ToolCategory) :
    (toolsByCategory category).filter server.shows =
      (toolRegistry.filter allowed).filter fun tool => tool.category = category := by
  rw [toolsByCategory, List.filter_filter, List.filter_filter]
  apply List.filter_congr
  intro tool htool
  rw [h.shows_eq htool, Bool.and_comm]

theorem Server.lacks_eq (server : Server) (tool : ToolInfo) :
    (tool.requirements.workspace && !server.workspace) =
      !(!tool.requirements.workspace || server.workspace) := by
  rw [Bool.not_or, Bool.not_not]

theorem isEnabled_registered (h : f.isEnabled name = true) : ∃ tool ∈ toolRegistry, tool.name = name := by
  apply getTool_isSome.mp
  rw [ToolFilter.isEnabled, Bool.and_eq_true] at h
  cases htool : getTool name with
  | none =>
    rw [htool] at h
    exact absurd h.2 Bool.false_ne_true
  | some tool => rfl

theorem Server.Obeys.listed (h : server.Obeys allowed) : name ∈ server.listTools ↔
    name ∈ server.routes ∧ ∃ tool ∈ toolRegistry, tool.name = name ∧ allowed tool = true := by
  simp only [Server.listTools, Server.listAll, List.mem_filter, List.mem_map, decide_eq_true_eq,
    Bool.and_eq_true]
  constructor
  · rintro ⟨⟨⟨tool, htool, rfl⟩, hroute⟩, henabled, -⟩
    exact ⟨hroute, tool, htool, rfl, (h tool htool).1 ▸ henabled⟩
  · rintro ⟨hroute, tool, htool, rfl, hallowed⟩
    obtain ⟨henabled, hworkspace⟩ := h tool htool
    refine ⟨⟨⟨tool, htool, rfl⟩, hroute⟩, henabled.trans hallowed, ?_⟩
    rw [getTool_of_mem htool, Option.all_some]
    exact hworkspace hallowed

theorem Server.hasTool_iff : server.hasTool name = true ↔ name ∈ server.listTools := by
  simp only [Server.hasTool, Server.listTools, Server.listAll, List.mem_filter, List.mem_map,
    decide_eq_true_eq, Bool.and_eq_true, Bool.not_eq_true', Bool.or_eq_false_iff, Bool.not_eq_false']
  constructor
  · rintro ⟨⟨henabled, hworkspace⟩, hroute⟩
    obtain ⟨tool, htool, rfl⟩ := isEnabled_registered henabled
    rw [getTool_of_mem htool] at hworkspace ⊢
    rw [Option.any_some, server.lacks_eq, Bool.not_eq_false'] at hworkspace
    exact ⟨⟨⟨tool, htool, rfl⟩, hroute⟩, henabled, hworkspace⟩
  · rintro ⟨⟨⟨tool, htool, rfl⟩, hroute⟩, henabled, hworkspace⟩
    rw [getTool_of_mem htool, Option.all_some] at hworkspace
    rw [getTool_of_mem htool, Option.any_some, server.lacks_eq, hworkspace]
    exact ⟨⟨henabled, rfl⟩, hroute⟩

theorem Server.Obeys.called (h : server.Obeys allowed) (htool : tool ∈ toolRegistry) :
    server.callTool tool.name =
      if allowed tool then .forwarded else .refused (server.disabledMessage tool.name) := by
  obtain ⟨henabled, hworkspace⟩ := h tool htool
  rw [Server.callTool, getTool_of_mem htool, henabled]
  cases hallowed : allowed tool with
  | false => rfl
  | true =>
    rw [Option.any_some, server.lacks_eq, hworkspace hallowed]
    rfl

theorem Server.Obeys.documented (h : server.Obeys allowed) (htool : tool ∈ toolRegistry) :
    server.toolHelp toLowercase tool.name =
      if allowed tool then .documented tool else .disabled (server.disabledMessage tool.name) := by
  obtain ⟨henabled, hworkspace⟩ := h tool htool
  rw [Server.toolHelp, getTool_of_mem htool, Option.any_some, henabled]
  cases hallowed : allowed tool with
  | false => rfl
  | true =>
    rw [server.lacks_eq, hworkspace hallowed]
    rfl

theorem Server.Obeys.agrees (h : server.Obeys allowed) : Agrees toolLower server allowed where
  listed _ := h.listed
  described _ := Server.hasTool_iff
  called tool htool := by
    rw [h.called htool]
    cases allowed tool <;> simp
  documented tool htool := by
    rw [h.documented htool]
    cases allowed tool <;> simp
  counted category := by
    rw [Server.catalogCount, List.countP_eq_length_filter, h.filter_eq]
  browsed category limit := by
    rw [Server.catalogCategory, h.filter_eq]

theorem obeys_of_build (hbuild : args.build toLowercase platform debugger workspace = .ok f) :
    (Server.mk f workspace routes).Obeys (args.allows toLowercase platform debugger workspace) := by
  intro tool htool
  refine ⟨isEnabled_of_build hbuild htool, ?_⟩
  intro hallows
  simp only [ToolFilterArgs.allows, Bool.and_eq_true] at hallows
  exact hallows.2

theorem unselected_of_gates {selected needsDebugger gate needsWorkspace given : Bool}
    (h : (selected && (!needsDebugger || gate) && (!needsWorkspace || given)) = false)
    (hworkspace : (needsWorkspace && !given) = false) (hgate : (!gate && needsDebugger) = false) :
    selected = false := by
  revert h hworkspace hgate
  revert selected needsDebugger gate needsWorkspace given
  decide

theorem debuggerEnabled_of_build (hbuild : args.build toLowercase platform debugger workspace = .ok f) :
    f.debuggerEnabled = (debugger && platform) := by
  rw [build_eq] at hbuild
  cases hrefusal : args.refusal toLowercase platform debugger workspace with
  | some e =>
    rw [hrefusal] at hbuild
    cases hbuild
  | none =>
    rw [hrefusal] at hbuild
    obtain rfl := Except.ok.inj hbuild
    rfl

/-- On a server whose filter the command line has built, one verdict decides what is listed, described,
called, documented, counted and browsed. A refusal blames the flags only where they exclude the tool. -/
theorem surfaces_agree (hbuild : args.build toLowercase platform debugger workspace = .ok f)
    (routes : List String) :
    Agrees toLowercase ⟨f, workspace, routes⟩ (args.allows toLowercase platform debugger workspace) ∧
    ∀ tool ∈ toolRegistry, ∀ message,
      (Server.mk f workspace routes).callTool tool.name = .refused message →
        message = workspaceMessage tool.name ∧ tool.requirements.workspace = true ∧ workspace = false ∨
        message = debuggerMessage tool.name ∧ tool.requirements.debugger = true ∧
          (debugger && platform) = false ∨
        message = filterMessage tool.name ∧ args.selects toLowercase tool = false := by
  have hobeys : (Server.mk f workspace routes).Obeys (args.allows toLowercase platform debugger workspace) :=
    obeys_of_build hbuild
  refine ⟨hobeys.agrees, ?_⟩
  intro tool htool message hrefused
  have hdebugger : f.debuggerEnabled = (debugger && platform) := debuggerEnabled_of_build hbuild
  rw [hobeys.called htool] at hrefused
  cases hallowed : args.allows toLowercase platform debugger workspace tool with
  | true =>
    rw [hallowed] at hrefused
    cases hrefused
  | false =>
    rw [hallowed, if_neg Bool.false_ne_true] at hrefused
    obtain rfl := CallGate.refused.inj hrefused
    rw [ToolFilterArgs.allows] at hallowed
    simp only [Server.disabledMessage, disabledToolMessage, getTool_of_mem htool, Option.any_some, hdebugger]
    cases hworkspace : tool.requirements.workspace && !workspace with
    | true =>
      rw [Bool.and_eq_true, Bool.not_eq_true'] at hworkspace
      exact .inl ⟨rfl, hworkspace⟩
    | false =>
      cases hgate : !(debugger && platform) && tool.requirements.debugger with
      | true =>
        rw [Bool.and_eq_true, Bool.not_eq_true'] at hgate
        exact .inr (.inl ⟨by simp, hgate.2, hgate.1⟩)
      | false =>
        exact .inr (.inr ⟨by simp, unselected_of_gates hallowed hworkspace hgate⟩)

theorem leanArgs_builds : ∃ f, leanArgs.build toAsciiLower true true false = .ok f := by
  rw [build_eq, leanArgs_refusal]
  exact ⟨_, rfl⟩

theorem surfaces_agree_lean : ∃ f, leanArgs.build toAsciiLower true true false = .ok f ∧
    "get_bytes" ∈ (Server.mk f false ["get_bytes", "run_script"]).listTools ∧
    "run_script" ∉ (Server.mk f false ["get_bytes", "run_script"]).listTools := by
  obtain ⟨f, hbuild⟩ := leanArgs_builds
  have hlisted := (surfaces_agree hbuild ["get_bytes", "run_script"]).1.listed
  refine ⟨f, hbuild, (hlisted _).mpr ⟨List.mem_cons_self, by decide +kernel⟩, fun h => ?_⟩
  exact absurd ((hlisted _).mp h).2 (by decide +kernel)

theorem Server.Obeys.catalogQuery_eq (h : server.Obeys allowed) (query : String) (limit : ℕ) :
    server.catalogQuery toLowercase query limit =
      ((scored toLowercase query (toolRegistry.filter allowed)).insertionSort ranks).take limit := by
  have hlength : ((scored toLowercase query toolRegistry).insertionSort ranks).length ≤ toolRegistry.length := by
    rw [List.length_insertionSort]
    exact List.length_filterMap_le _ _
  have hshows : toolRegistry.filter server.shows = toolRegistry.filter allowed :=
    List.filter_congr fun tool htool => h.shows_eq htool
  rw [Server.catalogQuery, searchTools, List.take_of_length_le hlength, filter_insertionSort,
    filter_scored, hshows]

theorem scored_tools_nodup (keep : ToolInfo → Bool) :
    ((scored toLowercase query (toolRegistry.filter keep)).map Match.tool).Nodup := by
  rw [scored_tools]
  exact ((toolNames_nodup.of_map _).filter _).filter _

/-- A search of the catalogue shows allowed tools that match, the best first, and leaves out a match
only where the answer is full of others that are no worse. -/
theorem catalogQuery_best (hbuild : args.build toLowercase platform debugger workspace = .ok f)
    (routes : List String) (query : String) (limit : ℕ) :
    let shown := (Server.mk f workspace routes).catalogQuery toLowercase query limit
    (∀ m ∈ shown, m.tool ∈ toolRegistry ∧ args.allows toLowercase platform debugger workspace m.tool = true ∧
      m.score = score toLowercase query m.tool ∧ 0 < m.score) ∧
    shown.Pairwise ranks ∧ (shown.map Match.tool).Nodup ∧
    ∀ tool ∈ toolRegistry, args.allows toLowercase platform debugger workspace tool = true →
      0 < score toLowercase query tool → tool ∉ shown.map Match.tool →
      shown.length = limit ∧ ∀ m ∈ shown, score toLowercase query tool ≤ m.score := by
  dsimp only
  rw [(obeys_of_build hbuild).catalogQuery_eq]
  generalize hsorted : (scored toLowercase query (toolRegistry.filter
    (args.allows toLowercase platform debugger workspace))).insertionSort ranks = sorted
  have hrank : sorted.Pairwise ranks := hsorted ▸ List.pairwise_insertionSort ranks _
  have hperm : sorted.Perm (scored toLowercase query (toolRegistry.filter
      (args.allows toLowercase platform debugger workspace))) :=
    hsorted ▸ List.perm_insertionSort ranks _
  have hnodup : (sorted.map Match.tool).Nodup :=
    (hperm.map Match.tool).nodup_iff.mpr (scored_tools_nodup _)
  refine ⟨?_, hrank.sublist (List.take_sublist _ _), hnodup.sublist ((List.take_sublist _ _).map _), ?_⟩
  · intro m hm
    obtain ⟨htool, hscore⟩ := mem_scored (hperm.subset (List.mem_of_mem_take hm))
    rw [List.mem_filter] at htool
    exact ⟨htool.1, htool.2, hscore⟩
  · intro tool htool hallows hscore homitted
    obtain ⟨m, hm, rfl⟩ := exists_match (List.mem_filter.mpr ⟨htool, hallows⟩) hscore
    have hdropped : m ∈ sorted.drop limit := by
      have hmem := hperm.mem_iff.mpr hm
      rw [← List.take_append_drop limit sorted, List.mem_append] at hmem
      exact hmem.resolve_left fun htake => homitted (List.mem_map_of_mem htake)
    constructor
    · have hlong : limit < sorted.length := by
        by_contra hshort
        rw [List.drop_eq_nil_of_le (Nat.le_of_not_lt hshort)] at hdropped
        cases hdropped
      rw [List.length_take, Nat.min_eq_left (Nat.le_of_lt hlong)]
    · intro m' hm'
      rw [← (mem_scored hm).2.1]
      exact rel_of_mem_drop ranks hrank hm' hdropped

theorem catalogQuery_best_decompile : ∃ f, leanArgs.build toAsciiLower true true false = .ok f ∧
    let shown := (Server.mk f false []).catalogQuery toAsciiLower "decompile" 3
    (∀ m ∈ shown, m.tool ∈ toolRegistry ∧ leanArgs.allows toAsciiLower true true false m.tool = true ∧
      m.score = score toAsciiLower "decompile" m.tool ∧ 0 < m.score) ∧
    shown.Pairwise ranks ∧ (shown.map Match.tool).Nodup ∧
    ∀ tool ∈ toolRegistry, leanArgs.allows toAsciiLower true true false tool = true →
      0 < score toAsciiLower "decompile" tool → tool ∉ shown.map Match.tool →
      shown.length = 3 ∧ ∀ m ∈ shown, score toAsciiLower "decompile" tool ≤ m.score := by
  obtain ⟨f, hbuild⟩ := leanArgs_builds
  exact ⟨f, hbuild, catalogQuery_best hbuild [] "decompile" 3⟩

end IdaMcp.Tools
