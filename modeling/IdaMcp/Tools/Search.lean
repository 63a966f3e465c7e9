import IdaMcp.Foundation.StableSort
import IdaMcp.Remote
import IdaMcp.Tools.Filter

namespace IdaMcp.Tools

open Foundation Foundation.Text Remote

variable (toLowercase : String → String)

structure Match where
  tool : ToolInfo
  keywords : List String
  score : ℕ

def matchKeyword (queryWords : List String) (found : List String × ℕ) (keyword : String) : List String × ℕ :=
  queryWords.foldl (fun found word =>
    if contains (toLowercase keyword) word || contains word (toLowercase keyword) then
      (if keyword ∈ found.1 then found.1 else found.1 ++ [keyword], found.2 + 3)
    else found) found

def matchTool (queryWords : List String) (tool : ToolInfo) : List String × ℕ :=
  let found : List String × ℕ := queryWords.foldl (fun found word =>
    if contains (toLowercase tool.name) word then (found.1 ++ ["name match"], found.2 + 10) else found) ([], 0)
  let found := queryWords.foldl (fun found word =>
    if contains (toLowercase tool.shortDesc) word then (found.1, found.2 + 5) else found) found
  let found := tool.keywords.foldl (matchKeyword toLowercase queryWords) found
  queryWords.foldl (fun found word =>
    if contains (toLowercase tool.category.asStr) word then (found.1 ++ [tool.category.asStr], found.2 + 2)
    else found) found

def queryWords (query : String) : List String :=
  (splitWhitespace (toLowercase query).toList).map String.ofList

def score (query : String) (tool : ToolInfo) : ℕ := (matchTool toLowercase (queryWords toLowercase query) tool).2

def scored (query : String) (tools : List ToolInfo) : List Match :=
  tools.filterMap fun tool =>
    let found := matchTool toLowercase (queryWords toLowercase query) tool
    if 0 < found.2 then some ⟨tool, found.1, found.2⟩ else none

def ranks (m m' : Match) : Prop := m'.score ≤ m.score

instance : DecidableRel ranks := fun m m' => inferInstanceAs (Decidable (m'.score ≤ m.score))

instance : IsTrans Match ranks := ⟨fun _ _ _ h h' => Nat.le_trans h' h⟩

instance : Std.Total ranks := ⟨fun m m' => Nat.le_total m'.score m.score⟩

def searchTools (query : String) (limit : ℕ) : List Match :=
  ((scored toLowercase query toolRegistry).insertionSort ranks).take limit

variable {toLowercase} {query : String} {m : Match}

theorem filter_scored (keep : ToolInfo → Bool) (tools : List ToolInfo) :
    (scored toLowercase query tools).filter (fun m => keep m.tool) =
      scored toLowercase query (tools.filter keep) := by
  induction tools with
  | nil => rfl
  | cons tool tools ih =>
    unfold scored at ih ⊢
    by_cases hscore : 0 < (matchTool toLowercase (queryWords toLowercase query) tool).2
    · cases hkeep : keep tool <;> simp [hscore, hkeep, ih]
    · cases hkeep : keep tool <;> simp [hscore, hkeep, ih]

theorem mem_scored {tools : List ToolInfo} (h : m ∈ scored toLowercase query tools) :
    m.tool ∈ tools ∧ m.score = score toLowercase query m.tool ∧ 0 < m.score := by
  obtain ⟨tool, htool, hm⟩ := List.mem_filterMap.mp h
  simp only at hm
  split_ifs at hm with hscore
  obtain rfl := Option.some.inj hm
  exact ⟨htool, rfl, hscore⟩

theorem exists_match {tools : List ToolInfo} {tool : ToolInfo} (htool : tool ∈ tools)
    (hscore : 0 < score toLowercase query tool) :
    ∃ m ∈ scored toLowercase query tools, m.tool = tool := by
  refine ⟨⟨tool, _, _⟩, List.mem_filterMap.mpr ⟨tool, htool, if_pos hscore⟩, rfl⟩

theorem scored_tools (tools : List ToolInfo) :
    (scored toLowercase query tools).map Match.tool =
      tools.filter fun tool => 0 < score toLowercase query tool := by
  induction tools with
  | nil => rfl
  | cons tool tools ih =>
    unfold scored at ih ⊢
    by_cases hscore : 0 < (matchTool toLowercase (queryWords toLowercase query) tool).2
    · simp [score, hscore, ih]
    · simp [score, hscore, ih]

end IdaMcp.Tools
