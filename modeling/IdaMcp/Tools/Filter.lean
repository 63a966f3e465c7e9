import Mathlib.Data.Finset.Insert
import Mathlib.Data.Finset.Image
import Mathlib.Data.Finset.Card
import IdaMcp.Foundation.Text
import IdaMcp.Tools.Registry

namespace IdaMcp.Tools

open Foundation.Text

variable (toLowercase : String → String)

def readOnlyDenyList : List String :=
  ["run_script", "save_idb", "patch", "patch_asm", "rename", "rename_lvar", "set_lvar_type",
    "set_comments", "set_pseudocode_comment", "lumina_apply", "declare_type", "apply_types",
    "infer_types", "declare_stack", "delete_stack", "dsc_add_dylib", "dsc_add_region", "analyze_funcs",
    "debug_launch", "debug_attach", "debug_stop"]

def leanProfile : List String :=
  ["open_idb", "open_dsc", "dsc_add_dylib", "dsc_add_region", "load_debug_info", "analysis_status",
    "analyze_funcs", "save_idb", "close_idb", "task_status", "list_functions", "resolve_function",
    "function_at", "disasm", "decompile", "xrefs_to", "xrefs_from", "callers", "callees", "strings",
    "find_bytes", "search", "segments", "imports", "exports", "rename", "set_comments", "run_script"]

def trimmed (s : String) : String := String.ofList (trim s.toList)

def toAsciiLower (s : String) : String := String.ofList (s.toList.map Char.toLower)

def profileTools (name : String) : Option (List String) :=
  if toAsciiLower (trimmed name) = "lean" then some leanProfile else none

/-- `ToolCategory::from_str`, with the lower case of Unicode as a parameter. -/
def categoryFromStr (input : String) : Option ToolCategory :=
  let normalized := String.ofList ((toLowercase (trimmed input)).toList.map
    fun c => if c = '-' ∨ c = ' ' then '_' else c)
  if normalized ∈ ["core"] then some .core
  else if normalized ∈ ["functions", "function"] then some .functions
  else if normalized ∈ ["disassembly", "disasm"] then some .disassembly
  else if normalized ∈ ["decompile", "decompiler"] then some .decompile
  else if normalized ∈ ["xrefs", "xref", "references"] then some .xrefs
  else if normalized ∈ ["control_flow", "controlflow", "cfg"] then some .controlFlow
  else if normalized ∈ ["memory", "data"] then some .memory
  else if normalized ∈ ["search"] then some .search
  else if normalized ∈ ["metadata", "meta", "info"] then some .metadata
  else if normalized ∈ ["types", "type", "structs"] then some .types
  else if normalized ∈ ["editing", "edit"] then some .editing
  else if normalized ∈ ["debug", "debugger"] then some .debug
  else if normalized ∈ ["ui"] then some .ui
  else if normalized ∈ ["scripting", "script", "eval"] then some .scripting
  else none

inductive ToolFilterError
  | unknownProfile (name : String)
  | unknownToolset (raw : String)
  | unknownTool (raw : String)
  | emptyFinalSet
deriving DecidableEq, Repr

structure ToolFilter where
  enabled : Finset String
  isActive : Bool
  debuggerEnabled : Bool
  workspaceEnabled : Bool

def clean (input : List String) : List String :=
  ((input.flatMap fun s => s.toList.splitOn ',').map fun entry => String.ofList (trim entry)).filter (· ≠ "")

def addToolsets : List String → Finset String → Except ToolFilterError (Finset String)
  | [], enabled => .ok enabled
  | raw :: rest, enabled =>
    match categoryFromStr toLowercase raw with
    | none => .error (.unknownToolset raw)
    | some category =>
      addToolsets rest ((toolsByCategory category).foldl (fun set tool => insert tool.name set) enabled)

def eachTool (change : String → Finset String → Finset String) :
    List String → Finset String → Except ToolFilterError (Finset String)
  | [], enabled => .ok enabled
  | raw :: rest, enabled =>
    match getTool raw with
    | none => .error (.unknownTool raw)
    | some tool => eachTool change rest (change tool.name enabled)

def addTools : List String → Finset String → Except ToolFilterError (Finset String) := eachTool insert

def removeTools : List String → Finset String → Except ToolFilterError (Finset String) :=
  eachTool fun name set => set.erase name

def addProfile (profile : Option String) (enabled : Finset String) :
    Except ToolFilterError (Finset String) :=
  match profile with
  | none => .ok enabled
  | some name =>
    match profileTools name with
    | none => .error (.unknownProfile name)
    | some members => .ok (members.foldl (fun set member => insert member set) enabled)

def cleanProfile (profile : Option String) : Option String := (profile.map trimmed).filter (· ≠ "")

def fromProfileAndInputs (profile : Option String) (toolsets tools excludeTools : List String)
    (readOnly : Bool) : Except ToolFilterError ToolFilter := do
  let toolsets := clean toolsets
  let tools := clean tools
  let excludes := clean excludeTools
  let profile := cleanProfile profile
  let anyInput := profile.isSome || toolsets ≠ [] || tools ≠ [] || excludes ≠ [] || readOnly
  let enabled : Finset String :=
    if profile = none ∧ toolsets = [] ∧ tools = [] then (toolRegistry.map ToolInfo.name).toFinset else ∅
  let enabled ← addProfile profile enabled
  let enabled ← addToolsets toLowercase toolsets enabled
  let enabled ← addTools tools enabled
  let enabled ← removeTools excludes enabled
  let enabled :=
    if readOnly then readOnlyDenyList.foldl (fun set name => set.erase name) enabled else enabled
  if enabled = ∅ then .error .emptyFinalSet
  else .ok ⟨enabled, anyInput, false, false⟩

namespace ToolFilter

variable (f : ToolFilter)

def permits (tool : ToolInfo) : Bool :=
  (!tool.requirements.debugger || f.debuggerEnabled) && (!tool.requirements.workspace || f.workspaceEnabled)

def isEnabled (name : String) : Bool := name ∈ f.enabled && (getTool name).any f.permits

def enabledCount : ℕ := (f.enabled.filter fun name => f.isEnabled name).card

/-- `platform`: the target is macOS on an Apple processor. -/
def withCapabilities (platform debuggerRequested workspaceEnabled : Bool) : Except ToolFilterError ToolFilter :=
  let f := { f with debuggerEnabled := debuggerRequested && platform, workspaceEnabled }
  if f.enabledCount = 0 then .error .emptyFinalSet else .ok f

end ToolFilter

structure ToolFilterArgs where
  profile : Option String
  toolsets : List String
  tools : List String
  excludeTools : List String
  readOnly : Bool

def ToolFilterArgs.build (args : ToolFilterArgs) (platform debuggerEnabled workspaceEnabled : Bool) :
    Except ToolFilterError ToolFilter := do
  let filter ← fromProfileAndInputs toLowercase args.profile args.toolsets args.tools args.excludeTools
    args.readOnly
  filter.withCapabilities platform debuggerEnabled workspaceEnabled

end IdaMcp.Tools
