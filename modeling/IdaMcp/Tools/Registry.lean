import Mathlib.Data.List.Nodup

/-! The registry of the tools. -/

namespace IdaMcp.Tools

inductive ToolScope
  | runtime
  | database
deriving DecidableEq, Repr

structure ToolRequirements where
  workspace : Bool
  debugger : Bool
  experimental : Bool
deriving DecidableEq, Repr

def ToolRequirements.baseline : ToolRequirements := ⟨false, false, false⟩

def ToolRequirements.debuggerOnly : ToolRequirements := ⟨false, true, false⟩

inductive ToolCategory
  | core
  | functions
  | disassembly
  | decompile
  | xrefs
  | controlFlow
  | memory
  | search
  | metadata
  | types
  | editing
  | debug
  | ui
  | scripting
deriving DecidableEq, Repr

namespace ToolCategory

def asStr : ToolCategory → String
  | core => "core"
  | functions => "functions"
  | disassembly => "disassembly"
  | decompile => "decompile"
  | xrefs => "xrefs"
  | controlFlow => "control_flow"
  | memory => "memory"
  | search => "search"
  | metadata => "metadata"
  | types => "types"
  | editing => "editing"
  | debug => "debug"
  | ui => "ui"
  | scripting => "scripting"

def all : List ToolCategory :=
  [core, functions, disassembly, decompile, xrefs, controlFlow, memory, search, metadata, types, editing,
    debug, ui, scripting]

theorem mem_all (c : ToolCategory) : c ∈ all := by
  cases c <;> decide

end ToolCategory

structure ToolInfo where
  name : String
  category : ToolCategory
  scope : ToolScope
  requirements : ToolRequirements
  shortDesc : String
  keywords : List String
deriving DecidableEq, Repr

def toolRegistry : List ToolInfo := [
  ⟨"open_idb", .core, .runtime, .baseline,
    "Open an IDA database or raw binary",
    ["open", "load", "database", "binary", "idb", "i64", "macho", "elf", "pe", "fat", "universal",
      "slice", "arch"]⟩,
  ⟨"open_dsc", .core, .runtime, .baseline,
    "Open a dyld_shared_cache and load one module; use dsc_add_dylib/dsc_add_region for more",
    ["open", "dsc", "dyld", "shared", "cache", "dylib", "module", "region", "apple", "macos", "ios"]⟩,
  ⟨"dsc_add_dylib", .core, .database, .baseline,
    "Load an additional dylib into an open DSC database",
    ["dsc", "dyld", "dylib", "module", "load", "add", "framework", "cache"]⟩,
  ⟨"dsc_add_region", .core, .database, .baseline,
    "Load a DSC memory region by address (data/GOT/stubs)",
    ["dsc", "dyld", "region", "memory", "address", "got", "stubs", "data", "load"]⟩,
  ⟨"load_debug_info", .core, .database, .baseline,
    "Load external debug info (e.g., dSYM/DWARF)",
    ["debug", "dwarf", "dsym", "symbols", "load"]⟩,
  ⟨"analysis_status", .core, .database, .baseline,
    "Report auto-analysis status",
    ["analysis", "autoanalysis", "status", "xrefs", "decompile"]⟩,
  ⟨"save_idb", .core, .database, .baseline,
    "Save the open database without closing it",
    ["save", "checkpoint", "persist", "write", "database"]⟩,
  ⟨"close_idb", .core, .database, .baseline,
    "Close the current database (release locks)",
    ["close", "unload", "database"]⟩,
  ⟨"tool_catalog", .core, .runtime, .baseline,
    "Discover available tools by query or category",
    ["discover", "find", "search", "tools", "help", "catalog"]⟩,
  ⟨"tool_help", .core, .runtime, .baseline,
    "Get full documentation for a tool",
    ["help", "docs", "documentation", "schema", "usage"]⟩,
  ⟨"recent_operations", .core, .runtime, .baseline,
    "Inspect recent foreground operation history",
    ["recent", "operations", "history", "progress", "timeout", "cancel", "observability"]⟩,
  ⟨"task_status", .core, .runtime, .baseline,
    "Check status of a background task (e.g. DSC loading)",
    ["task", "status", "poll", "background", "dsc", "progress"]⟩,
  ⟨"idb_meta", .core, .database, .baseline,
    "Get database metadata and summary",
    ["info", "metadata", "summary", "database", "binary"]⟩,
  ⟨"list_functions", .functions, .database, .baseline,
    "List functions with pagination and filtering",
    ["functions", "list", "enumerate", "find", "filter", "subroutines"]⟩,
  ⟨"resolve_function", .functions, .database, .baseline,
    "Find function address by name",
    ["resolve", "find", "lookup", "function", "name", "address"]⟩,
  ⟨"function_at", .functions, .database, .baseline,
    "Find the function containing one address",
    ["function", "address", "pc", "lr", "containing"]⟩,
  ⟨"lookup_funcs", .functions, .database, .baseline,
    "Batch lookup multiple functions by name",
    ["lookup", "batch", "multiple", "functions", "names"]⟩,
  ⟨"analyze_funcs", .functions, .database, .baseline,
    "Run auto-analysis (foreground or background task)",
    ["analyze", "functions", "analysis", "auto", "background", "task"]⟩,
  ⟨"disasm", .disassembly, .database, .baseline,
    "Disassemble instructions at one or more addresses",
    ["disassemble", "disasm", "assembly", "instructions", "code"]⟩,
  ⟨"render_range", .disassembly, .database, .baseline,
    "Render an IDA-style address range",
    ["render", "range", "ida", "view", "mixed", "data"]⟩,
  ⟨"disasm_by_name", .disassembly, .database, .baseline,
    "Disassemble a function by name",
    ["disassemble", "function", "name", "assembly"]⟩,
  ⟨"disasm_function_at", .disassembly, .database, .baseline,
    "Disassemble the function containing one address",
    ["disassemble", "function", "address", "pc", "lr"]⟩,
  ⟨"decompile", .decompile, .database, .baseline,
    "Decompile one or more functions to C pseudocode",
    ["decompile", "pseudocode", "c", "source", "hex-rays"]⟩,
  ⟨"pseudocode_at", .decompile, .database, .baseline,
    "Get pseudocode for one or more addresses/ranges",
    ["pseudocode", "decompile", "block", "range", "statement"]⟩,
  ⟨"list_lvars", .decompile, .database, .baseline,
    "List decompiler locals and arguments in one function",
    ["decompiler", "locals", "variables", "arguments", "lvars"]⟩,
  ⟨"list_pseudocode_comments", .decompile, .database, .baseline,
    "List pseudocode comment locations in one function",
    ["pseudocode", "decompiler", "comments", "locations"]⟩,
  ⟨"xrefs_to", .xrefs, .database, .baseline,
    "Find all references TO one or more addresses",
    ["xrefs", "references", "to", "callers", "usage"]⟩,
  ⟨"xrefs_from", .xrefs, .database, .baseline,
    "Find all references FROM one or more addresses",
    ["xrefs", "references", "from", "callees", "targets"]⟩,
  ⟨"xrefs_to_string", .xrefs, .database, .baseline,
    "Find xrefs to strings matching a query",
    ["xrefs", "strings", "cstring", "references", "usage"]⟩,
  ⟨"xref_matrix", .xrefs, .database, .baseline,
    "Build xref matrix between addresses",
    ["xrefs", "matrix", "relationships", "graph"]⟩,
  ⟨"basic_blocks", .controlFlow, .database, .baseline,
    "Get basic blocks of one or more functions",
    ["basic", "blocks", "cfg", "control", "flow", "graph"]⟩,
  ⟨"callers", .controlFlow, .database, .baseline,
    "Find all callers of one or more functions",
    ["callers", "called", "by", "references", "xrefs"]⟩,
  ⟨"callees", .controlFlow, .database, .baseline,
    "Find all functions called by one or more functions",
    ["callees", "calls", "targets", "functions"]⟩,
  ⟨"callgraph", .controlFlow, .database, .baseline,
    "Build call graph from one or more root functions",
    ["callgraph", "call", "graph", "depth", "tree"]⟩,
  ⟨"find_paths", .controlFlow, .database, .baseline,
    "Find control-flow paths between two addresses",
    ["paths", "route", "flow", "between", "reach"]⟩,
  ⟨"get_bytes", .memory, .database, .baseline,
    "Read raw bytes from one or more addresses",
    ["bytes", "read", "memory", "data", "raw", "hex"]⟩,
  ⟨"get_string", .memory, .database, .baseline,
    "Read strings at one or more addresses",
    ["string", "read", "text", "ascii", "data"]⟩,
  ⟨"read_int", .memory, .database, .baseline,
    "Read unsigned integers of a given byte width at one or more addresses",
    ["u8", "u16", "u32", "u64", "byte", "word", "dword", "qword", "read", "value"]⟩,
  ⟨"get_global_value", .memory, .database, .baseline,
    "Read global value by name or address",
    ["global", "value", "read", "symbol", "data"]⟩,
  ⟨"find_bytes", .search, .database, .baseline,
    "Search for byte pattern",
    ["find", "search", "bytes", "pattern", "hex"]⟩,
  ⟨"search", .search, .database, .baseline,
    "Search for text or immediate values",
    ["search", "find", "text", "string", "immediate"]⟩,
  ⟨"strings", .search, .database, .baseline,
    "List all strings in the database",
    ["strings", "list", "text", "data"]⟩,
  ⟨"find_string", .search, .database, .baseline,
    "Find strings matching a query",
    ["strings", "find", "search", "text"]⟩,
  ⟨"analyze_strings", .search, .database, .baseline,
    "Analyze strings with filtering",
    ["strings", "analyze", "filter", "pattern"]⟩,
  ⟨"find_insns", .search, .database, .baseline,
    "Find instruction sequences by mnemonic",
    ["find", "instructions", "sequence", "pattern"]⟩,
  ⟨"find_insn_operands", .search, .database, .baseline,
    "Find instructions by operand substring",
    ["find", "operands", "instructions", "pattern"]⟩,
  ⟨"segments", .metadata, .database, .baseline,
    "List all segments",
    ["segments", "sections", "memory", "layout"]⟩,
  ⟨"addr_info", .metadata, .database, .baseline,
    "Resolve one address to segment/function/symbol",
    ["address", "segment", "function", "symbol", "context"]⟩,
  ⟨"imports", .metadata, .database, .baseline,
    "List imported functions",
    ["imports", "external", "libraries", "api"]⟩,
  ⟨"exports", .metadata, .database, .baseline,
    "List exported functions",
    ["exports", "symbols", "public", "api"]⟩,
  ⟨"export_funcs", .metadata, .database, .baseline,
    "Export functions (JSON)",
    ["export", "functions", "json", "dump"]⟩,
  ⟨"entrypoints", .metadata, .database, .baseline,
    "List entry points",
    ["entry", "start", "main", "entrypoint"]⟩,
  ⟨"lumina_lookup", .metadata, .database, .baseline,
    "Look up Lumina metadata for a function",
    ["lumina", "signature", "metadata", "lookup", "match"]⟩,
  ⟨"lumina_apply", .editing, .database, .baseline,
    "Apply Lumina metadata to a function",
    ["lumina", "signature", "metadata", "apply", "rename", "type"]⟩,
  ⟨"list_globals", .metadata, .database, .baseline,
    "List global variables",
    ["globals", "variables", "data", "symbols"]⟩,
  ⟨"local_types", .types, .database, .baseline,
    "List local types",
    ["types", "local", "typedef"]⟩,
  ⟨"xrefs_to_field", .xrefs, .database, .baseline,
    "Xrefs to a struct field",
    ["xrefs", "struct", "field", "member"]⟩,
  ⟨"declare_type", .types, .database, .baseline,
    "Declare a type in the local type library",
    ["type", "declare", "typedef"]⟩,
  ⟨"apply_types", .types, .database, .baseline,
    "Apply a type to an address or stack variable",
    ["types", "apply", "annotations"]⟩,
  ⟨"set_lvar_type", .types, .database, .baseline,
    "Set the type of one exact decompiler local variable",
    ["decompiler", "locals", "variables", "type", "lvars"]⟩,
  ⟨"infer_types", .types, .database, .baseline,
    "Infer/guess type at one address",
    ["types", "infer", "analysis"]⟩,
  ⟨"stack_frame", .types, .database, .baseline,
    "Get stack frame info for one function",
    ["stack", "frame", "locals"]⟩,
  ⟨"declare_stack", .types, .database, .baseline,
    "Declare a stack variable",
    ["stack", "declare", "variable"]⟩,
  ⟨"delete_stack", .types, .database, .baseline,
    "Delete a stack variable",
    ["stack", "delete", "variable"]⟩,
  ⟨"structs", .types, .database, .baseline,
    "List structs with pagination",
    ["structs", "types", "list"]⟩,
  ⟨"struct_info", .types, .database, .baseline,
    "Get struct info by name or ordinal",
    ["struct", "info", "types"]⟩,
  ⟨"read_struct", .types, .database, .baseline,
    "Read struct instances at one or more addresses",
    ["struct", "read", "values"]⟩,
  ⟨"search_structs", .types, .database, .baseline,
    "Search structs by name",
    ["struct", "search", "types"]⟩,
  ⟨"set_pseudocode_comment", .editing, .database, .baseline,
    "Set a persistent pseudocode comment",
    ["pseudocode", "decompiler", "comments", "annotate"]⟩,
  ⟨"set_comments", .editing, .database, .baseline,
    "Set a disassembly comment at an address",
    ["comments", "set", "annotate"]⟩,
  ⟨"patch_asm", .editing, .database, .baseline,
    "Patch instructions with assembly text",
    ["patch", "asm", "edit", "modify"]⟩,
  ⟨"patch", .editing, .database, .baseline,
    "Patch bytes at an address",
    ["patch", "bytes", "edit", "modify"]⟩,
  ⟨"list_patches", .editing, .database, .baseline,
    "List patched bytes without mutating the database",
    ["patches", "diff", "original", "modified", "bytes"]⟩,
  ⟨"rename", .editing, .database, .baseline,
    "Rename symbols",
    ["rename", "symbol", "edit"]⟩,
  ⟨"rename_lvar", .editing, .database, .baseline,
    "Rename one exact decompiler local variable",
    ["decompiler", "locals", "variables", "rename", "lvars"]⟩,
  ⟨"debug_status", .debug, .runtime, .debuggerOnly,
    "Report debugger backend and authorization readiness",
    ["debugger", "status", "availability", "authorization", "backend"]⟩,
  ⟨"debug_launch", .debug, .database, .debuggerOnly,
    "Launch and suspend a local debug target",
    ["debugger", "launch", "process", "suspend", "runtime"]⟩,
  ⟨"debug_attach", .debug, .database, .debuggerOnly,
    "Attach and suspend a local process",
    ["debugger", "attach", "pid", "process", "suspend"]⟩,
  ⟨"debug_modules", .debug, .database, .debuggerOnly,
    "List runtime modules from the suspended debuggee",
    ["debugger", "modules", "images", "libraries", "runtime", "base"]⟩,
  ⟨"debug_stop", .debug, .database, .debuggerOnly,
    "Detach or terminate the active debug target",
    ["debugger", "stop", "detach", "terminate", "process"]⟩,
  ⟨"list_databases", .core, .runtime, ⟨true, false, false⟩,
    "List open workspace database handles",
    ["workspace", "databases", "list", "handles", "database_id", "discover"]⟩,
  ⟨"debug_open_module", .debug, .database, ⟨true, true, false⟩,
    "Open a runtime module in a separate workspace database",
    ["debugger", "module", "open", "workspace", "slide", "database"]⟩,
  ⟨"run_script", .scripting, .database, .baseline,
    "Execute Python code via IDAPython",
    ["script", "python", "execute", "eval", "idapython", "run", "code", "file"]⟩]

def getTool (name : String) : Option ToolInfo := toolRegistry.find? (·.name = name)

def toolsByCategory (category : ToolCategory) : List ToolInfo := toolRegistry.filter (·.category = category)

theorem toolNames_nodup : (toolRegistry.map ToolInfo.name).Nodup := by
  decide +kernel

theorem getTool_eq_some {name : String} {tool : ToolInfo} :
    getTool name = some tool ↔ tool ∈ toolRegistry ∧ tool.name = name := by
  constructor
  · intro h
    exact ⟨List.mem_of_find?_eq_some h, by simpa using List.find?_some h⟩
  · rintro ⟨htool, rfl⟩
    cases hfind : getTool tool.name with
    | none => exact absurd (List.find?_eq_none.mp hfind tool htool) (by simp)
    | some found =>
      have hname : found.name = tool.name := by simpa using List.find?_some hfind
      have hfound := List.mem_of_find?_eq_some hfind
      rw [List.inj_on_of_nodup_map toolNames_nodup hfound htool hname]

theorem getTool_isSome {name : String} : (getTool name).isSome ↔ ∃ tool ∈ toolRegistry, tool.name = name := by
  simp only [Option.isSome_iff_exists, getTool_eq_some]

theorem getTool_of_mem {tool : ToolInfo} (h : tool ∈ toolRegistry) : getTool tool.name = some tool :=
  getTool_eq_some.mpr ⟨h, rfl⟩

end IdaMcp.Tools
