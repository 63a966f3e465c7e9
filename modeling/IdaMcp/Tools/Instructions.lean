import IdaMcp.Foundation.Text
import IdaMcp.Foundation.Words
import IdaMcp.Tools.Filter

namespace IdaMcp.Tools

open Foundation Text Words

namespace ToolCategory

def description : ToolCategory → String
  | core => "Database open/close and discovery tools"
  | functions => "List, search, and resolve functions"
  | disassembly => "Disassemble code at addresses"
  | decompile => "Decompile functions to pseudocode (requires Hex-Rays)"
  | xrefs => "Cross-reference analysis (xrefs to/from)"
  | controlFlow => "Basic blocks, call graphs, control flow"
  | memory => "Read bytes, strings, and data"
  | search => "Search for bytes, strings, patterns"
  | metadata => "Database info, segments, imports, exports"
  | types => "Types, structs, and stack variable info"
  | editing => "Patching, renaming, and comment editing"
  | debug => "Opt-in headless debugger lifecycle and runtime modules"
  | ui => "UI/cursor helpers (headless unsupported)"
  | scripting => "Execute Python scripts via IDAPython"

def line (category : ToolCategory) : String := category.asStr ++ ": " ++ category.description

end ToolCategory

namespace Instructions

def isWordChar (c : Char) : Bool := c.isAlphanum || c = '_'

def toolWords (text : Chars) : List Chars := words (fun c => !isWordChar c) text

variable (f : ToolFilter)

def mentionsDisabledTool (text : String) : Bool :=
  (toolWords text.toList).any fun word => (getTool (String.ofList word)).isSome && !f.isEnabled (String.ofList word)

def onlyEnabled (lines : List String) : List String := lines.filter fun line => !mentionsDisabledTool f line

def header : String := "IDA Pro headless analysis server for reverse engineering binaries."

def pushSection (sections : List String) (title : String) (lines : List String) : List String :=
  if lines = [] then sections
  else sections ++ [title ++ "\n" ++ "\n".intercalate (lines.map fun line => "- " ++ line)]

def workflowLines (closeHint : String) : List String :=
  let closeLine := ["close_idb: " ++ closeHint, "close_idb: release the database when done."].find? fun line =>
    !mentionsDisabledTool f line
  onlyEnabled f ([
    "open_idb: open a .i64/.idb or a raw binary (Mach-O/ELF/PE); pass arch for a " ++
      "universal Mach-O. Large databases may take 30+ seconds.",
    "open_dsc: open a module from a dyld_shared_cache instead of the whole cache.",
    "load_debug_info: load dSYM/DWARF into an open database.",
    "analysis_status: check auto-analysis when cross-references or decompilation look incomplete."] ++
    closeLine.toList)

def categoryLines : List String :=
  (ToolCategory.all.filter fun category => (toolsByCategory category).any fun tool => f.isEnabled tool.name).map
    ToolCategory.line

def tipLines : List String :=
  let dscGrowth := ["dsc_add_dylib", "dsc_add_region"].filter fun name => f.isEnabled name
  let followUp := if f.isEnabled "analyze_funcs" then
      "; if auto_is_ok=false, run analyze_funcs before relying on cross-references or decompilation"
    else ""
  onlyEnabled f ((if dscGrowth = [] then [] else
      ["After " ++ " or ".intercalate dscGrowth ++ ", call analysis_status" ++ followUp ++ "."]) ++ [
    "After a timeout or cancellation, call recent_operations to inspect the last recorded foreground phase.",
    "save_idb checkpoints renames, comments, types, and patches without closing.",
    "tool_catalog(query='what you want to do') finds a tool by task; tool_help(name) " ++
      "returns its full documentation and an example."])

def sections (closeHint : String) : List String :=
  pushSection (pushSection (pushSection [header] "Workflow:" (workflowLines f closeHint)) "Tool categories:"
    (categoryLines f)) "Tips:" (tipLines f)

def build (closeHint : String) : String := "\n\n".intercalate (sections f closeHint)

/-! The words of the instructions. -/

def Has (word : Chars) (text : Chars) : Prop := word ∈ toolWords text

theorem contains_toolWords (word text : Chars) : (toolWords text).contains word = true ↔ Has word text := by
  simp [Has]

instance (word text : Chars) : Decidable (Has word text) := decidable_of_iff _ (contains_toolWords word text)

variable {f}

theorem has_lines {word : Chars} (hword : word ≠ []) {sep : String} (hne : sep ≠ "")
    (hsep : sep.toList.all (!isWordChar ·) = true) (texts : List String) :
    Has word (sep.intercalate texts).toList ↔ ∃ text ∈ texts, Has word text.toList := by
  rw [String.toList_intercalate, Has, toolWords, mem_words_intercalate hword (by simpa using hne) hsep]
  simp [Has, toolWords]

theorem has_item {word : Chars} (hword : word ≠ []) (line : String) :
    Has word ("- " ++ line).toList ↔ Has word line.toList := by
  rw [String.toList_append]
  exact mem_words_skip hword (by decide) line.toList

theorem has_pushSection {word : Chars} (hword : word ≠ []) {title : String} (htitle : ¬ Has word title.toList)
    (sections lines : List String) : (∃ text ∈ pushSection sections title lines, Has word text.toList) ↔
      (∃ text ∈ sections, Has word text.toList) ∨ ∃ line ∈ lines, Has word line.toList := by
  unfold pushSection
  split_ifs with hempty
  · simp [hempty]
  · have hsection : Has word (title ++ "\n" ++ "\n".intercalate (lines.map fun line => "- " ++ line)).toList ↔
        ∃ line ∈ lines, Has word line.toList := by
      have hbody : Has word ("\n".intercalate (lines.map fun line => "- " ++ line)).toList ↔
          ∃ line ∈ lines, Has word line.toList := by
        rw [has_lines hword (by decide) (by decide)]
        simp only [List.mem_map, exists_exists_and_eq_and, has_item hword]
      rw [String.toList_append, String.toList_append, ← hbody]
      exact (mem_words_append hword (by decide) (by decide) _ _).trans (or_iff_right htitle)
    rw [← hsection]
    simp [or_and_right, exists_or]

theorem not_has_onlyEnabled {tool : ToolInfo} (htool : tool ∈ toolRegistry) (hoff : f.isEnabled tool.name = false)
    (lines : List String) : ¬ ∃ line ∈ onlyEnabled f lines, Has tool.name.toList line.toList := by
  rintro ⟨line, hline, hhas⟩
  have hmention : mentionsDisabledTool f line = true := by
    apply List.any_eq_true.mpr
    exact ⟨_, hhas, by simp [getTool_of_mem htool, hoff]⟩
  have hkept := (List.mem_filter.mp hline).2
  rw [hmention] at hkept
  cases hkept

theorem getTool_heading {text : Chars} {headed : String} (hchars : headed.toList = text)
    (h : ∀ word ∈ toolWords text, (getTool (String.ofList word)).isSome = false) {tool : ToolInfo}
    (htool : tool ∈ toolRegistry) : ¬ Has tool.name.toList headed.toList := by
  intro hhas
  rw [hchars] at hhas
  have hnone := h _ hhas
  rw [String.ofList_toList, getTool_of_mem htool] at hnone
  cases hnone

theorem not_has_heading {tool : ToolInfo} (htool : tool ∈ toolRegistry) : ¬ Has tool.name.toList header.toList ∧
    ¬ Has tool.name.toList "Workflow:".toList ∧ ¬ Has tool.name.toList "Tool categories:".toList ∧
    ¬ Has tool.name.toList "Tips:".toList :=
  ⟨getTool_heading String.toList_ofList (by decide +kernel) htool,
    getTool_heading String.toList_ofList (by decide +kernel) htool,
    getTool_heading String.toList_ofList (by decide +kernel) htool,
    getTool_heading String.toList_ofList (by decide +kernel) htool⟩

theorem name_ne_nil {tool : ToolInfo} (htool : tool ∈ toolRegistry) : tool.name.toList ≠ [] := by
  intro hnil
  have hempty : tool.name = "" := by
    rw [← String.toList_inj, hnil]
    rfl
  have hnone : getTool "" = none := by
    decide +kernel
  rw [← hempty, getTool_of_mem htool] at hnone
  cases hnone

/-- Where the instructions name a tool that is hidden, a line of a category that is shown has its name:
no heading, no line of the workflow and no tip has it. -/
theorem instructions_hide (f : ToolFilter) (closeHint : String) {tool : ToolInfo} (htool : tool ∈ toolRegistry)
    (hoff : f.isEnabled tool.name = false) :
    (Has tool.name.toList (build f closeHint).toList ↔
      ∃ category, (∃ other ∈ toolsByCategory category, f.isEnabled other.name = true) ∧
        Has tool.name.toList category.line.toList) ∧
    ∀ line ∈ [header, "Workflow:", "Tool categories:", "Tips:"] ++ workflowLines f closeHint ++ tipLines f,
      ¬ Has tool.name.toList line.toList := by
  have hword := name_ne_nil htool
  obtain ⟨hheader, hworkflow, hcategories, htips⟩ := not_has_heading htool
  have hcategory : (∃ line ∈ categoryLines f, Has tool.name.toList line.toList) ↔
      ∃ category, (∃ other ∈ toolsByCategory category, f.isEnabled other.name = true) ∧
        Has tool.name.toList category.line.toList := by
    simp [categoryLines, ToolCategory.mem_all]
  have hlines : ¬ ∃ line ∈ workflowLines f closeHint, Has tool.name.toList line.toList :=
    not_has_onlyEnabled htool hoff _
  have htip : ¬ ∃ line ∈ tipLines f, Has tool.name.toList line.toList := not_has_onlyEnabled htool hoff _
  constructor
  · rw [← hcategory, build, has_lines hword (by decide) (by decide), sections, has_pushSection hword htips,
      has_pushSection hword hcategories, has_pushSection hword hworkflow, or_iff_left htip, or_iff_right]
    rintro (⟨text, htext, hhas⟩ | hline)
    · obtain rfl := List.mem_singleton.mp htext
      exact hheader hhas
    · exact hlines hline
  · intro line hline hhas
    simp only [List.mem_append, List.mem_cons, List.not_mem_nil, or_false] at hline
    rcases hline with ((rfl | rfl | rfl | rfl) | hline) | hline
    · exact hheader hhas
    · exact hworkflow hhas
    · exact hcategories hhas
    · exact htips hhas
    · exact hlines ⟨line, hline, hhas⟩
    · exact htip ⟨line, hline, hhas⟩

def onlyBytes : ToolFilter := ⟨{"get_bytes"}, true, false, false⟩

theorem instructions_hide_strings : ∃ tool ∈ toolRegistry, tool.name = "strings" ∧
    onlyBytes.isEnabled tool.name = false ∧ Has tool.name.toList (build onlyBytes "").toList := by
  have hregistered : (getTool "strings").isSome := by
    decide +kernel
  obtain ⟨tool, htool, hname⟩ := getTool_isSome.mp hregistered
  have hoff : onlyBytes.isEnabled tool.name = false := by
    rw [hname]
    decide +kernel
  have hshown : (toolsByCategory .memory).any (fun other => onlyBytes.isEnabled other.name) = true := by
    decide +kernel
  refine ⟨tool, htool, hname, hoff, (instructions_hide onlyBytes "" htool hoff).1.mpr ⟨.memory, ?_, ?_⟩⟩
  · simpa using hshown
  · rw [hname]
    decide +kernel

end Instructions

end IdaMcp.Tools
