import IdaMcp.Error
import IdaMcp.Foundation.SimplePaths
import IdaMcp.Foundation.Text

namespace IdaMcp.ControlFlow

open Foundation SimplePaths Text

structure BasicBlock where
  startAddress : ℕ
  endAddress : ℕ
  succs : List ℕ

def BasicBlock.containsAddress (block : BasicBlock) (address : ℕ) : Bool :=
  block.startAddress ≤ address && address < block.endAddress

structure FunctionCfg where
  blocks : List BasicBlock
  starts : (blocks.map BasicBlock.startAddress).Nodup
  succs_nodup : ∀ block ∈ blocks, block.succs.Nodup

structure Func where
  containsAddress : ℕ → Bool
  cfg : Except String FunctionCfg

structure FlowDb where
  functionAt : ℕ → Option Func

namespace FunctionCfg

variable (cfg : FunctionCfg)

/-- `index_by_start`; the start addresses differ, so that no entry overwrites another. -/
def indexByStart (address : ℕ) : Option ℕ := cfg.blocks.findIdx? (·.startAddress = address)

def succs (cur : ℕ) : List ℕ := cfg.blocks[cur]?.elim [] BasicBlock.succs

def render (path : List ℕ) : List String :=
  path.map fun idx => hexText (cfg.blocks[idx]?.elim 0 BasicBlock.startAddress)

end FunctionCfg

structure Dfs where
  path : List ℕ
  results : List (List String)

variable (cfg : FunctionCfg) (goal maxDepth maxPaths : ℕ)

def visitSuccs (visit : ℕ → Dfs → Option Dfs) : List ℕ → Dfs → Option Dfs
  | [], s => some s
  | succ :: rest, s =>
    match cfg.indexByStart succ with
    | none => visitSuccs visit rest s
    | some next =>
      if next ∈ s.path then visitSuccs visit rest s
      else do
        let s ← visit next s
        if maxPaths ≤ s.results.length then some s else visitSuccs visit rest s

/-- The search from `cur`; `none` when the recursion is deeper than `fuel`. -/
def dfs : ℕ → ℕ → Dfs → Option Dfs
  | 0, _, _ => none
  | fuel + 1, cur, s =>
    if maxPaths ≤ s.results.length then some s
    else if maxDepth < s.path.length then some s
    else
      let path := s.path ++ [cur]
      if cur = goal then some ⟨path.dropLast, s.results ++ [cfg.render path]⟩
      else do
        let s ← visitSuccs cfg maxPaths (dfs fuel) (cfg.succs cur) { s with path := path }
        some { s with path := s.path.dropLast }

structure FindPaths where
  paths : List (List String)
  count : ℕ

def handleFindPaths (fuel : ℕ) (idb : Option FlowDb) (start goal maxPaths maxDepth : ℕ) :
    Option (Except ToolError FindPaths) :=
  match idb with
  | none => some (.error .noDatabaseOpen)
  | some db =>
    match db.functionAt start with
    | none => some (.error (.functionNotFound (UInt64.ofNat start)))
    | some func =>
      if ¬ func.containsAddress goal then
        some (.error (.notSupported
          "find_paths only supports addresses within the same function"))
      else
        match func.cfg with
        | .error e => some (.error (.idaError e))
        | .ok cfg =>
          match cfg.blocks.findIdx? (·.containsAddress start) with
          | none => some (.error (.addressOutOfRange (UInt64.ofNat start)))
          | some startIdx =>
            match cfg.blocks.findIdx? (·.containsAddress goal) with
            | none => some (.error (.addressOutOfRange (UInt64.ofNat goal)))
            | some goalIdx =>
              (dfs cfg goalIdx (max maxDepth 1) (max maxPaths 1) fuel startIdx ⟨[], []⟩).map
                fun s => .ok ⟨s.results, s.results.length⟩

namespace FunctionCfg

def successors (cfg : FunctionCfg) (cur : ℕ) : List ℕ := (cfg.succs cur).filterMap cfg.indexByStart

theorem start_of_index {cfg : FunctionCfg} {address idx : ℕ}
    (h : cfg.indexByStart address = some idx) :
    cfg.blocks[idx]?.map BasicBlock.startAddress = some address := by
  obtain ⟨hlt, hstart, -⟩ := List.findIdx?_eq_some_iff_getElem.mp h
  rw [List.getElem?_eq_getElem hlt, Option.map_some, of_decide_eq_true hstart]

theorem successors_nodup (cfg : FunctionCfg) (cur : ℕ) : (cfg.successors cur).Nodup := by
  have hsuccs : (cfg.succs cur).Nodup := by
    unfold succs
    cases hblock : cfg.blocks[cur]? with
    | none => exact List.nodup_nil
    | some block => exact cfg.succs_nodup block (List.mem_of_getElem? hblock)
  apply hsuccs.filterMap
  intro a b idx ha hb
  have hstart := (start_of_index ha).symm.trans (start_of_index hb)
  exact Option.some_inj.mp hstart

end FunctionCfg

variable {cfg goal maxDepth maxPaths}

theorem take_full {α : Type*} {xs ys : List α} {n : ℕ} (h : n ≤ (xs.take n).length) :
    (xs ++ ys).take n = xs.take n := by
  apply List.take_append_of_le_length
  rw [List.length_take] at h
  omega

theorem visitSuccs_eq (visit : ℕ → Dfs → Option Dfs) (path : List ℕ)
    (found : ℕ → List (List String))
    (hvisit : ∀ next prev, next ∉ path → visit next ⟨path, prev.take maxPaths⟩ =
      some ⟨path, (prev ++ found next).take maxPaths⟩)
    (succs : List ℕ) (prev : List (List String)) :
    visitSuccs cfg maxPaths visit succs ⟨path, prev.take maxPaths⟩ =
      some ⟨path, (prev ++ (succs.filterMap cfg.indexByStart).flatMap fun next =>
        if next ∈ path then [] else found next).take maxPaths⟩ := by
  induction succs generalizing prev with
  | nil => simp [visitSuccs]
  | cons succ succs ih =>
    rw [visitSuccs]
    cases hindex : cfg.indexByStart succ with
    | none =>
      simp only [List.filterMap_cons_none hindex]
      exact ih prev
    | some next =>
      simp only [List.filterMap_cons_some hindex, List.flatMap_cons]
      by_cases hseen : next ∈ path
      · rw [if_pos hseen, if_pos hseen, ih, List.nil_append]
      · rw [if_neg hseen, if_neg hseen, hvisit next prev hseen]
        simp only [Option.bind_eq_bind, Option.bind_some]
        rw [← List.append_assoc]
        split_ifs with hfull
        · rw [take_full hfull]
        · exact ih _

theorem dfs_deep (fuel cur : ℕ) (s : Dfs) (hdeep : maxDepth < s.path.length) :
    dfs cfg goal maxDepth maxPaths (fuel + 1) cur s = some s := by
  rw [dfs, if_pos hdeep]
  split_ifs <;> rfl

theorem dfs_goal (n fuel : ℕ) (path : List ℕ) (prev : List (List String))
    (hdepth : path.length ≤ maxDepth) :
    dfs cfg goal maxDepth maxPaths (fuel + 1) goal ⟨path, prev.take maxPaths⟩ =
      some ⟨path, (prev ++ (enumerate cfg.successors goal n path goal).map fun rest =>
        cfg.render (path ++ rest)).take maxPaths⟩ := by
  rw [dfs, enumerate_goal]
  simp only [List.map_cons, List.map_nil]
  by_cases hfull : maxPaths ≤ (prev.take maxPaths).length
  · rw [if_pos hfull, take_full hfull]
  · have hroom : prev.length < maxPaths := by
      rw [List.length_take] at hfull
      omega
    rw [if_neg hfull, if_neg (Nat.not_lt_of_le hdepth), if_pos trivial, List.dropLast_concat,
      List.take_of_length_le hroom.le, List.take_of_length_le]
    rw [List.length_append, List.length_singleton]
    exact hroom

theorem dfs_step (fuel : ℕ) (path : List ℕ) (cur : ℕ) (prev : List (List String))
    (hdepth : path.length ≤ maxDepth) (hgoal : cur ≠ goal) (found : ℕ → List (List String))
    (hvisit : ∀ next prev, next ∉ path ++ [cur] →
      dfs cfg goal maxDepth maxPaths fuel next ⟨path ++ [cur], prev.take maxPaths⟩ =
        some ⟨path ++ [cur], (prev ++ found next).take maxPaths⟩) :
    dfs cfg goal maxDepth maxPaths (fuel + 1) cur ⟨path, prev.take maxPaths⟩ =
      some ⟨path, (prev ++ (cfg.successors cur).flatMap fun next =>
        if next ∈ path ++ [cur] then [] else found next).take maxPaths⟩ := by
  rw [dfs]
  by_cases hfull : maxPaths ≤ (prev.take maxPaths).length
  · rw [if_pos hfull, take_full hfull]
  · simp only [if_neg hfull, if_neg (Nat.not_lt_of_le hdepth), if_neg hgoal,
      visitSuccs_eq _ (path ++ [cur]) found hvisit, Option.bind_eq_bind, Option.bind_some,
      List.dropLast_concat]
    rfl

theorem dfs_eq (n fuel : ℕ) (path : List ℕ) (cur : ℕ) (prev : List (List String))
    (hdepth : path.length + n = maxDepth) (hfuel : n + 2 ≤ fuel) :
    dfs cfg goal maxDepth maxPaths fuel cur ⟨path, prev.take maxPaths⟩ =
      some ⟨path, (prev ++ (enumerate cfg.successors goal n path cur).map fun rest =>
        cfg.render (path ++ rest)).take maxPaths⟩ := by
  induction n generalizing fuel path cur prev with
  | zero =>
    obtain ⟨fuel, rfl⟩ : ∃ f, fuel = f + 2 := ⟨fuel - 2, by omega⟩
    by_cases hgoal : cur = goal
    · subst hgoal
      exact dfs_goal 0 (fuel + 1) path prev (by omega)
    · have hvisit (next : ℕ) (prev : List (List String)) (_ : next ∉ path ++ [cur]) :
          dfs cfg goal maxDepth maxPaths (fuel + 1) next ⟨path ++ [cur], prev.take maxPaths⟩ =
            some ⟨path ++ [cur], (prev ++ []).take maxPaths⟩ := by
        rw [List.append_nil]
        apply dfs_deep
        rw [List.length_append, List.length_singleton]
        omega
      rw [dfs_step (fuel + 1) path cur prev (by omega) hgoal (fun _ => []) hvisit,
        enumerate_zero path hgoal]
      simp
  | succ n ih =>
    obtain ⟨fuel, rfl⟩ : ∃ f, fuel = f + 1 := ⟨fuel - 1, by omega⟩
    by_cases hgoal : cur = goal
    · subst hgoal
      exact dfs_goal (n + 1) fuel path prev (by omega)
    · have hlength : (path ++ [cur]).length + n = maxDepth := by
        rw [List.length_append, List.length_singleton]
        omega
      rw [dfs_step fuel path cur prev (by omega) hgoal _
        (fun next prev _ => ih fuel (path ++ [cur]) next prev hlength (by omega)),
        enumerate_succ n path hgoal, List.map_map, List.map_flatMap]
      have hsame (next : ℕ) : (if next ∈ path ++ [cur] then [] else
          (enumerate cfg.successors goal n (path ++ [cur]) next).map fun rest =>
            cfg.render (path ++ [cur] ++ rest)) =
          (if next ∈ path ++ [cur] then [] else
            enumerate cfg.successors goal n (path ++ [cur]) next).map
              ((fun rest => cfg.render (path ++ rest)) ∘ (cur :: ·)) := by
        split_ifs
        · rfl
        · simp [Function.comp_def]
      simp only [hsame]

/-! Rendered paths. -/

theorem lt_of_mem_simplePath {start n : ℕ} {path : List ℕ}
    (hstart : start < cfg.blocks.length)
    (h : IsSimplePath cfg.successors goal start n path) : ∀ idx ∈ path, idx < cfg.blocks.length := by
  obtain ⟨rest, rfl⟩ := List.head?_eq_some_iff.mp h.head
  have hchain := h.chain
  clear h
  induction rest generalizing start with
  | nil => simpa using hstart
  | cons next rest ih =>
    obtain ⟨hnext, hrest⟩ := List.isChain_cons_cons.mp hchain
    obtain ⟨address, -, hindex⟩ := List.mem_filterMap.mp hnext
    have hlt : next < cfg.blocks.length := (List.findIdx?_eq_some_iff_getElem.mp hindex).1
    intro idx hidx
    rcases List.mem_cons.mp hidx with rfl | hidx
    · exact hstart
    · exact ih hlt hrest idx hidx

theorem render_injective {p q : List ℕ} (hp : ∀ idx ∈ p, idx < cfg.blocks.length)
    (hq : ∀ idx ∈ q, idx < cfg.blocks.length) (h : cfg.render p = cfg.render q) : p = q := by
  have hblock {a b : ℕ} (ha : a < cfg.blocks.length) (hb : b < cfg.blocks.length)
      (hsame : hexText (cfg.blocks[a]?.elim 0 BasicBlock.startAddress) =
        hexText (cfg.blocks[b]?.elim 0 BasicBlock.startAddress)) : a = b := by
    rw [List.getElem?_eq_getElem ha, List.getElem?_eq_getElem hb] at hsame
    have hstart := List.inj_on_of_nodup_map cfg.starts (List.getElem_mem ha) (List.getElem_mem hb)
      (hexText_injective hsame)
    exact (List.Nodup.of_map _ cfg.starts).getElem_inj_iff.mp hstart
  induction p generalizing q with
  | nil => exact (List.map_eq_nil_iff.mp h.symm).symm
  | cons a p ih =>
    cases q with
    | nil => exact nomatch h
    | cons b q =>
      obtain ⟨hfirst, hrest⟩ := List.cons.inj h
      rw [hblock (hp a List.mem_cons_self) (hq b List.mem_cons_self) hfirst,
        ih (fun i hi => hp i (List.mem_cons_of_mem _ hi))
          (fun i hi => hq i (List.mem_cons_of_mem _ hi)) hrest]

/-- The recursion ends, and the answer is a beginning of the list of all simple paths in the order
of the search. -/
theorem find_paths_exact (db : FlowDb) (start goal maxPaths maxDepth fuel : ℕ) (func : Func)
    (cfg : FunctionCfg) (startIdx goalIdx : ℕ) (hfunc : db.functionAt start = some func)
    (hcontains : func.containsAddress goal = true) (hcfg : func.cfg = .ok cfg)
    (hstart : cfg.blocks.findIdx? (·.containsAddress start) = some startIdx)
    (hgoal : cfg.blocks.findIdx? (·.containsAddress goal) = some goalIdx)
    (hfuel : max maxDepth 1 + 2 ≤ fuel) :
    ∃ all : List (List ℕ),
      (∀ path, path ∈ all ↔
        IsSimplePath cfg.successors goalIdx startIdx (max maxDepth 1) path) ∧
      all.Pairwise (Before cfg.successors) ∧ all.Nodup ∧ (all.map cfg.render).Nodup ∧
      handleFindPaths fuel (some db) start goal maxPaths maxDepth =
        some (.ok ⟨(all.take (max maxPaths 1)).map cfg.render,
          ((all.take (max maxPaths 1)).map cfg.render).length⟩) := by
  have hmem := @mem_enumerate _ cfg.successors goalIdx _ (max maxDepth 1) [] startIdx
    List.not_mem_nil
  have hbefore := @enumerate_before _ cfg.successors goalIdx _ (max maxDepth 1) [] startIdx
    List.not_mem_nil
  have hpath (path : List ℕ) : path ∈ enumerate cfg.successors goalIdx (max maxDepth 1) [] startIdx ↔
      IsSimplePath cfg.successors goalIdx startIdx (max maxDepth 1) path := by
    rw [hmem]
    exact and_iff_left fun x _ => List.not_mem_nil
  have hnodup := hbefore.imp fun h => h.ne cfg.successors_nodup
  have hlt : startIdx < cfg.blocks.length := (List.findIdx?_eq_some_iff_getElem.mp hstart).1
  refine ⟨enumerate cfg.successors goalIdx (max maxDepth 1) [] startIdx, hpath, hbefore, hnodup,
    ?_, ?_⟩
  · apply List.Nodup.map_on _ hnodup
    intro p hp q hq hsame
    exact render_injective (lt_of_mem_simplePath hlt ((hpath p).mp hp))
      (lt_of_mem_simplePath hlt ((hpath q).mp hq)) hsame
  · have hdfs := @dfs_eq cfg goalIdx (max maxDepth 1) (max maxPaths 1) (max maxDepth 1) fuel []
      startIdx [] (Nat.zero_add _) hfuel
    rw [List.take_nil, List.nil_append, ← List.map_take] at hdfs
    simp only [handleFindPaths, hfunc, hcontains, hcfg, hstart, hgoal, hdfs]
    rfl

def diamondCfg : FunctionCfg where
  blocks := [⟨0x10, 0x20, [0x20, 0x30]⟩, ⟨0x20, 0x30, [0x40]⟩, ⟨0x30, 0x40, [0x10, 0x40]⟩,
    ⟨0x40, 0x50, []⟩]
  starts := by decide
  succs_nodup := by decide

def diamond : FlowDb where
  functionAt _ := some ⟨fun address => 0x10 ≤ address && address < 0x50, .ok diamondCfg⟩

theorem find_paths_exact_diamond :
    (∃ all : List (List ℕ),
      (∀ path, path ∈ all ↔ IsSimplePath diamondCfg.successors 3 0 5 path) ∧
      handleFindPaths 7 (some diamond) 0x10 0x40 1 5 =
        some (.ok ⟨(all.take 1).map diamondCfg.render,
          ((all.take 1).map diamondCfg.render).length⟩)) ∧
    handleFindPaths 7 (some diamond) 0x10 0x40 1 5 =
      some (.ok ⟨[["0x10", "0x20", "0x40"]], 1⟩) := by
  obtain ⟨all, hall, -, -, -, hresult⟩ := find_paths_exact diamond 0x10 0x40 1 5 7 _ diamondCfg 0 3
    rfl (by decide) rfl (by decide) (by decide) (by decide)
  exact ⟨⟨all, hall, hresult⟩, rfl⟩

end IdaMcp.ControlFlow
