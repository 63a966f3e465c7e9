import IdaMcp.Foundation.UnixPath
import IdaMcp.Params.Fields

namespace IdaMcp.Debugger

open Foundation.UnixPath Params

def modulePath (module : Value) : Option String := (module.get "path").bind Value.asStr

def fileNameOf (path : String) : Option String := (fileName path.toList).map String.ofList

def basename (query : String) : String := (fileNameOf query).getD query

def hasPath (query : String) (module : Value) : Bool := modulePath module == some query

def hasBasename (name : String) (module : Value) : Bool :=
  (modulePath module).bind fileNameOf == some name

def runtimeModules (modules : Value) : Option (List Value) :=
  (modules.get "modules").bind Value.asArray

def selectMatching (query : String) : List Value → Except ToolError Value
  | [module] => .ok module
  | [] => .error (.invalidParams ("runtime module not found: " ++ query))
  | matching =>
    .error (.invalidParams ("runtime module basename is ambiguous (" ++
      toString matching.length ++ " matches); use the exact path from debug_modules"))

def selectRuntimeModule (modules : Value) (query : String) : Except ToolError Value :=
  if query = "" then
    .error (.invalidParams "module must be an exact runtime path or unambiguous basename")
  else
    match runtimeModules modules with
    | none =>
      .error (.remoteProtocol "debug_modules response did not contain a modules array")
    | some candidates =>
      match candidates.filter (hasPath query) with
      | [module] => .ok module
      | _ => selectMatching query (candidates.filter (hasBasename (basename query)))

def Only {α : Type*} (p : α → Prop) (xs : List α) (x : α) : Prop :=
  ∃ before after, xs = before ++ x :: after ∧ p x ∧ ∀ y ∈ before ++ after, ¬p y

/-- What a query means: a path in full, or a name that no path hides and one module has. -/
def Selected (candidates : List Value) (query : String) (module : Value) : Prop :=
  Only (modulePath · = some query) candidates module ∨
    '/' ∉ query.toList ∧ (∀ c ∈ candidates, modulePath c ≠ some query) ∧
      Only (fun c => (modulePath c).bind fileNameOf = some query) candidates module

theorem filter_eq_singleton {α : Type*} {p : α → Bool} {xs : List α} {x : α} :
    xs.filter p = [x] ↔ Only (p · = true) xs x := by
  constructor
  · intro h
    obtain ⟨before, after, hxs, hbefore, hx, hafter⟩ := List.filter_eq_cons_iff.mp h
    refine ⟨before, after, hxs, hx, ?_⟩
    intro y hy
    rcases List.mem_append.mp hy with hy | hy
    · exact hbefore y hy
    · exact List.filter_eq_nil_iff.mp hafter y hy
  · rintro ⟨before, after, rfl, hx, hrest⟩
    have hbefore := List.filter_eq_nil_iff.mpr fun y hy => hrest y (List.mem_append_left _ hy)
    have hafter := List.filter_eq_nil_iff.mpr fun y hy => hrest y (List.mem_append_right _ hy)
    simp [hbefore, hafter, hx]

theorem fileNameOf_eq_some {path name : String} (h : fileNameOf path = some name) :
    IsName name.toList := by
  obtain ⟨chars, hchars, rfl⟩ := Option.map_eq_some_iff.mp h
  rw [String.toList_ofList]
  exact fileName_eq_some hchars

theorem fileNameOf_of_isName {name : String} (h : IsName name.toList) :
    fileNameOf name = some name := by
  rw [fileNameOf, h.fileName_eq, Option.map_some, String.ofList_toList]

theorem basename_eq_self {query : String} (h : '/' ∉ query.toList) : basename query = query := by
  by_cases hname : IsName query.toList
  · rw [basename, fileNameOf_of_isName hname, Option.getD_some]
  · rw [basename, fileNameOf, fileName_eq_none h hname, Option.map_none, Option.getD_none]

theorem fileNameOf_query {path query : String} (h : fileNameOf path = some (basename query)) :
    fileNameOf query = some (basename query) := by
  cases hquery : fileNameOf query with
  | some name => rw [basename, hquery, Option.getD_some]
  | none =>
    have hbasename : basename query = query := by rw [basename, hquery, Option.getD_none]
    rw [hbasename] at h
    rw [fileNameOf_of_isName (fileNameOf_eq_some h)] at hquery
    cases hquery

/-- No empty query hits a module without a path, and no path that is not loaded has a basename that
one module has. -/
def Settled (candidates : List Value) (query : String) : Prop :=
  (query = "" → ∀ m, ¬Only (modulePath · = some query) candidates m) ∧
    ('/' ∈ query.toList → (∀ c ∈ candidates, modulePath c ≠ some query) →
      ∀ m, ¬Only (fun c => (modulePath c).bind fileNameOf = some (basename query)) candidates m)

variable {modules module : Value} {candidates : List Value} {query : String}

theorem paths_of_only_basename (h : candidates.filter (hasBasename (basename query)) = [module]) :
    candidates.filter (hasPath query) = [] ∨ candidates.filter (hasPath query) = [module] := by
  have hmodule : hasBasename (basename query) module = true := by
    have hmem : module ∈ candidates.filter (hasBasename (basename query)) := by simp [h]
    exact (List.mem_filter.mp hmem).2
  obtain ⟨path, -, hpath⟩ := Option.bind_eq_some_iff.mp (by simpa [hasBasename] using hmodule)
  have himplied (c : Value) (hc : hasPath query c = true) :
      hasBasename (basename query) c = true := by
    have hquery : modulePath c = some query := by simpa [hasPath] using hc
    simp [hasBasename, hquery, fileNameOf_query hpath]
  have hfilter : candidates.filter (hasPath query) = [module].filter (hasPath query) := by
    rw [← h, List.filter_filter]
    apply List.filter_congr
    intro c _
    cases hc : hasPath query c with
    | false => rfl
    | true => simp [himplied c hc]
  rw [hfilter]
  by_cases hc : hasPath query module = true <;> simp [hc]

theorem selectMatching_eq_ok {matching : List Value} :
    selectMatching query matching = .ok module ↔ matching = [module] := by
  match matching with
  | [] => simp [selectMatching]
  | [_] => simp [selectMatching]
  | _ :: _ :: _ => simp [selectMatching]

theorem selectRuntimeModule_eq_ok (hmodules : runtimeModules modules = some candidates)
    (hquery : query ≠ "") :
    selectRuntimeModule modules query = .ok module ↔
      candidates.filter (hasPath query) = [module] ∨
        candidates.filter (hasPath query) = [] ∧
          candidates.filter (hasBasename (basename query)) = [module] := by
  rw [selectRuntimeModule, if_neg hquery, hmodules]
  dsimp only
  split
  · next chosen hexact => simp [hexact]
  · next hexact =>
    rw [selectMatching_eq_ok, or_iff_right (hexact module)]
    constructor
    · intro hmatching
      exact ⟨(paths_of_only_basename hmatching).resolve_right (hexact module), hmatching⟩
    · exact And.right

theorem selectRuntimeModule_empty : selectRuntimeModule modules "" ≠ .ok module := by
  simp [selectRuntimeModule]

theorem selectMatching_perm {matching matching' : List Value} (h : matching.Perm matching') :
    selectMatching query matching = selectMatching query matching' := by
  have hlength := h.length_eq
  match matching, matching' with
  | [], [] => rfl
  | [_], [_] => rw [List.singleton_perm_singleton.mp h]
  | _ :: _ :: _, _ :: _ :: _ => rw [selectMatching, selectMatching, hlength] <;> simp

theorem selectRuntimeModule_perm {modules' : Value} {candidates' : List Value}
    (hmodules : runtimeModules modules = some candidates)
    (hmodules' : runtimeModules modules' = some candidates') (h : candidates.Perm candidates') :
    selectRuntimeModule modules query = selectRuntimeModule modules' query := by
  have hmatching : selectMatching query _ = selectMatching query _ :=
    selectMatching_perm (h.filter (hasBasename (basename query)))
  have hexact := h.filter (hasPath query)
  rw [selectRuntimeModule, selectRuntimeModule, hmodules, hmodules']
  dsimp only
  rw [hmatching]
  split_ifs with hquery
  · rfl
  · generalize candidates.filter (hasPath query) = exact at hexact ⊢
    generalize candidates'.filter (hasPath query) = exact' at hexact ⊢
    have hlength := hexact.length_eq
    match exact, exact' with
    | [], [] => rfl
    | [_], [_] => rw [List.singleton_perm_singleton.mp hexact]
    | _ :: _ :: _, _ :: _ :: _ => rfl

theorem only_path : candidates.filter (hasPath query) = [module] ↔
    Only (modulePath · = some query) candidates module := by
  rw [filter_eq_singleton]
  simp [hasPath]

theorem only_basename {name : String} : candidates.filter (hasBasename name) = [module] ↔
    Only (fun c => (modulePath c).bind fileNameOf = some name) candidates module := by
  rw [filter_eq_singleton]
  simp [hasBasename]

theorem no_path : candidates.filter (hasPath query) = [] ↔
    ∀ c ∈ candidates, modulePath c ≠ some query := by
  simp [hasPath]

theorem Only.mem {α : Type*} {p : α → Prop} {xs : List α} {x : α} (h : Only p xs x) :
    x ∈ xs ∧ p x := by
  obtain ⟨before, after, rfl, hx, -⟩ := h
  exact ⟨by simp, hx⟩

theorem not_only_empty (module : Value) :
    ¬Only (fun c => (modulePath c).bind fileNameOf = some "") candidates module := by
  intro h
  obtain ⟨path, -, hname⟩ := Option.bind_eq_some_iff.mp h.mem.2
  exact absurd (fileNameOf_eq_some hname).notSkipped (by decide)

theorem selected_of_ok (hmodules : runtimeModules modules = some candidates) (hquery : query ≠ "") :
    selectRuntimeModule modules query = .ok module ↔
      Only (modulePath · = some query) candidates module ∨
        (∀ c ∈ candidates, modulePath c ≠ some query) ∧
          Only (fun c => (modulePath c).bind fileNameOf = some (basename query)) candidates module := by
  rw [selectRuntimeModule_eq_ok hmodules hquery, only_path, no_path, only_basename]

/-- A query gives the module that it means, in any order of the modules, exactly if it is settled. -/
theorem selected_iff_settled (hmodules : runtimeModules modules = some candidates) (query : String) :
    ((∀ m, selectRuntimeModule modules query = .ok m ↔ Selected candidates query m) ∧
      ∀ modules' candidates', runtimeModules modules' = some candidates' →
        candidates.Perm candidates' →
          selectRuntimeModule modules query = selectRuntimeModule modules' query) ↔
      Settled candidates query := by
  rw [and_iff_left fun _ _ hmodules' h => selectRuntimeModule_perm hmodules hmodules' h]
  by_cases hquery : query = ""
  · subst hquery
    have hselected (m : Value) : Selected candidates "" m ↔
        Only (modulePath · = some "") candidates m :=
      or_iff_left fun h => not_only_empty m h.2.2
    simp [hselected, selectRuntimeModule_empty, Settled]
  · simp only [selected_of_ok hmodules hquery, Settled, hquery, false_implies, true_and]
    by_cases hsep : '/' ∈ query.toList
    · simp only [Selected, hsep, not_true_eq_false, false_and, or_false, true_implies]
      constructor
      · intro h hnone m honly
        have hpath := (h m).mp (.inr ⟨hnone, honly⟩)
        exact hnone m hpath.mem.1 hpath.mem.2
      · intro h m
        exact or_iff_left fun hm => h hm.1 m hm.2
    · simp [Selected, hsep, basename_eq_self hsep]

def runtimeModule (path : String) : Value := .object [("path", .string path)]

theorem loaded_module_selected :
    let candidates := [runtimeModule "/a/libfoo.dylib", runtimeModule "/b/libbar.dylib"]
    let modules := Value.object [("modules", .array candidates)]
    (∀ m, selectRuntimeModule modules "libfoo.dylib" = .ok m ↔
        Selected candidates "libfoo.dylib" m) ∧
      ∀ modules' candidates', runtimeModules modules' = some candidates' →
        candidates.Perm candidates' →
          selectRuntimeModule modules "libfoo.dylib" =
            selectRuntimeModule modules' "libfoo.dylib" :=
  (selected_iff_settled rfl "libfoo.dylib").mpr
    ⟨fun h => absurd h (by decide), fun h => absurd h (by decide)⟩

/-- A path that is not loaded gives the module of that name in another directory. -/
theorem unloaded_path_selected :
    selectRuntimeModule (.object [("modules", .array [runtimeModule "/b/libfoo.dylib"])])
        "/a/libfoo.dylib" = .ok (runtimeModule "/b/libfoo.dylib") ∧
      ¬Selected [runtimeModule "/b/libfoo.dylib"] "/a/libfoo.dylib"
        (runtimeModule "/b/libfoo.dylib") := by
  constructor
  · rfl
  · rintro (hpath | ⟨hsep, -, -⟩)
    · have hloaded := hpath.mem.2
      simp [modulePath, runtimeModule, Value.get, Value.asObject, Value.asStr] at hloaded
    · exact hsep (by decide)

end IdaMcp.Debugger
