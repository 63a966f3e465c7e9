import IdaMcp.ControlFlow.Calls
import IdaMcp.Foundation.BreadthFirst
import IdaMcp.Foundation.SortedMap
import Mathlib.Data.Prod.Lex

namespace IdaMcp.Callgraph

open Foundation BreadthFirst Text

inductive CallGraphDirection
  | callees
  | callers
  | both
deriving DecidableEq

def CallGraphDirection.asStr : CallGraphDirection → String
  | callees => "callees"
  | callers => "callers"
  | both => "both"

/-- A call, the function that it leads the search to, and what is known of that function. -/
structure Relation where
  fromAddr : Address
  toAddr : Address
  discoveredAddr : Address
  discovered : FunctionInfo

def Relation.edge (r : Relation) : Address ×ₗ Address := toLex (r.fromAddr, r.toAddr)

def callgraphFrontier (result : Except ToolError (List FunctionInfo)) :
    Except ToolError (List FunctionInfo) :=
  match result with
  | .error (.functionNotFound _) => .ok []
  | result => result

section

variable (idb : Option CallDb) (direction : CallGraphDirection)

def calleeRelations (cur : Address) : Except ToolError (List Relation) :=
  if direction = .callees ∨ direction = .both then do
    let callees ← callgraphFrontier (handleCallees idb cur)
    return callees.filterMap fun callee =>
      (parseAddressStr callee.address).toOption.map fun target => ⟨cur, target, target, callee⟩
  else .ok []

def callerRelations (cur : Address) : Except ToolError (List Relation) :=
  if direction = .callers ∨ direction = .both then do
    let callers ← callgraphFrontier (handleCallers idb cur)
    return callers.filterMap fun caller =>
      (parseAddressStr caller.address).toOption.map fun source => ⟨source, cur, source, caller⟩
  else .ok []

def relations (cur : Address) : Except ToolError (List Relation) := do
  let callees ← calleeRelations idb direction cur
  let callers ← callerRelations idb direction cur
  return (callees ++ callers).mergeSort fun r s => r.edge ≤ s.edge

structure Search where
  nodes : SortedMap Address FunctionInfo
  edges : SortedSet (Address ×ₗ Address)
  queue : List (Address × ℕ)
  truncated : Bool

variable (maxDepth maxNodes : ℕ)

def Search.addRelation (depth : ℕ) (s : Search) (r : Relation) : Search :=
  if r.discoveredAddr ∈ s.nodes then { s with edges := s.edges.insert r.edge }
  else if maxNodes ≤ s.nodes.length then { s with truncated := true }
  else
    { s with
      nodes := s.nodes.insert r.discoveredAddr r.discovered
      queue := s.queue ++ [(r.discoveredAddr, depth + 1)]
      edges := s.edges.insert r.edge }

def search : ℕ → Search → Option (Except ToolError Search)
  | 0, _ => none
  | fuel + 1, s =>
    match s.queue with
    | [] => some (.ok s)
    | (cur, depth) :: queue =>
      if maxDepth ≤ depth then search fuel { s with queue := queue }
      else
        match relations idb direction cur with
        | .error e => some (.error e)
        | .ok rs => search fuel (rs.foldl (Search.addRelation maxNodes depth) { s with queue := queue })

structure CallGraph where
  direction : String
  nodes : List FunctionInfo
  edges : List (String × String)
  truncated : Bool

def Search.report (s : Search) : CallGraph where
  direction := direction.asStr
  nodes := s.nodes.values
  edges := s.edges.elems.map fun e => (hexText (ofLex e).1, hexText (ofLex e).2)
  truncated := s.truncated

def Search.start (root : Func) : Search where
  nodes := SortedMap.empty.insert root.startAddress root.info
  edges := SortedSet.empty
  queue := [(root.startAddress, 0)]
  truncated := false

def handleCallgraph (fuel : ℕ) (address : Address) : Option (Except ToolError CallGraph) :=
  match idb with
  | none => some (.error .noDatabaseOpen)
  | some db =>
    match db.functionAt address with
    | none => some (.error (.functionNotFound (UInt64.ofNat address)))
    | some root =>
      (search idb direction (max maxDepth 1) (max maxNodes 1) fuel (Search.start root)).map
        fun result => result.map (Search.report direction)

/-! The call relation. -/

variable (db : CallDb)

def IsCallee (a b : Address) : Prop :=
  ∃ infos, handleCallees (some db) a = .ok infos ∧ ∃ info ∈ infos, info.address = hexText b

def IsCaller (a b : Address) : Prop :=
  ∃ infos, handleCallers (some db) a = .ok infos ∧ ∃ info ∈ infos, info.address = hexText b

/-- `Related a u v b`: the call of `v` by `u` is a relation of `a` that leads to `b`. -/
inductive Related (a : Address) : Address → Address → Address → Prop
  | callee {b : Address} (hdirection : direction ≠ .callers) (h : IsCallee db a b) : Related a a b b
  | caller {b : Address} (hdirection : direction ≠ .callees) (h : IsCaller db a b) : Related a b a b

def Adjacent (a b : Address) : Prop := ∃ u v, Related direction db a u v b

variable {direction db}

theorem mem_parsed {infos : List FunctionInfo} (hinfos : ∀ info ∈ infos, ∃ b : Address, info.address = hexText b)
    (make : Address → FunctionInfo → Relation) (r : Relation) :
    (r ∈ infos.filterMap fun info => (parseAddressStr info.address).toOption.map fun b => make b info) ↔
      ∃ info ∈ infos, ∃ b : Address, info.address = hexText b ∧ r = make b info := by
  rw [List.mem_filterMap]
  apply exists_congr
  intro info
  apply and_congr_right
  intro hinfo
  obtain ⟨b, hb⟩ := hinfos info hinfo
  rw [hb, parseAddressStr_hexText]
  constructor
  · intro hr
    exact ⟨b, rfl, (Option.some_inj.mp hr).symm⟩
  · rintro ⟨b', hb', rfl⟩
    obtain rfl : b = b' := Fin.ext (hexText_injective hb')
    rfl

theorem handleCallees_cases (db : CallDb) (a : Address) :
    (∃ e, handleCallees (some db) a = .error (.functionNotFound e)) ∨
      ∃ infos, handleCallees (some db) a = .ok infos := by
  cases hfunc : db.functionAt a with
  | none =>
    left
    exact ⟨_, by simp only [handleCallees, hfunc]; rfl⟩
  | some func =>
    right
    exact ⟨_, by simp only [handleCallees, hfunc]; rfl⟩

theorem handleCallers_cases (db : CallDb) (a : Address) :
    (∃ e, handleCallers (some db) a = .error (.functionNotFound e)) ∨
      ∃ infos, handleCallers (some db) a = .ok infos := by
  cases hfunc : db.functionAt a with
  | none =>
    left
    exact ⟨_, by simp only [handleCallers, hfunc]; rfl⟩
  | some func =>
    right
    exact ⟨_, by simp only [handleCallers, hfunc]; rfl⟩

theorem calleeRelations_spec (direction : CallGraphDirection) (db : CallDb) (a : Address) :
    ∃ rs, calleeRelations (some db) direction a = .ok rs ∧
      ∀ r, r ∈ rs ↔ direction ≠ .callers ∧ ∃ infos, handleCallees (some db) a = .ok infos ∧
        ∃ info ∈ infos, ∃ b : Address, info.address = hexText b ∧ r = ⟨a, b, b, info⟩ := by
  unfold calleeRelations
  by_cases hdirection : direction = .callers
  · subst hdirection
    exact ⟨[], by simp, by simp⟩
  · have hsome : direction = .callees ∨ direction = .both := by
      cases direction <;> simp_all
    rw [if_pos hsome]
    rcases handleCallees_cases db a with ⟨e, he⟩ | ⟨infos, hinfos⟩
    · refine ⟨[], by rw [he]; rfl, ?_⟩
      intro r
      simp [he]
    · refine ⟨_, by rw [hinfos]; rfl, ?_⟩
      intro r
      rw [mem_parsed (rendered_handleCallees hinfos) fun b info => ⟨a, b, b, info⟩]
      simp [hdirection, hinfos]

theorem callerRelations_spec (direction : CallGraphDirection) (db : CallDb) (a : Address) :
    ∃ rs, callerRelations (some db) direction a = .ok rs ∧
      ∀ r, r ∈ rs ↔ direction ≠ .callees ∧ ∃ infos, handleCallers (some db) a = .ok infos ∧
        ∃ info ∈ infos, ∃ b : Address, info.address = hexText b ∧ r = ⟨b, a, b, info⟩ := by
  unfold callerRelations
  by_cases hdirection : direction = .callees
  · subst hdirection
    exact ⟨[], by simp, by simp⟩
  · have hsome : direction = .callers ∨ direction = .both := by
      cases direction <;> simp_all
    rw [if_pos hsome]
    rcases handleCallers_cases db a with ⟨e, he⟩ | ⟨infos, hinfos⟩
    · refine ⟨[], by rw [he]; rfl, ?_⟩
      intro r
      simp [he]
    · refine ⟨_, by rw [hinfos]; rfl, ?_⟩
      intro r
      rw [mem_parsed (rendered_handleCallers hinfos) fun b info => ⟨b, a, b, info⟩]
      simp [hdirection, hinfos]

structure Complete (direction : CallGraphDirection) (db : CallDb) (a : Address) (rs : List Relation) :
    Prop where
  related : ∀ r ∈ rs, Related direction db a r.fromAddr r.toAddr r.discoveredAddr
  rendered : ∀ r ∈ rs, r.discovered.address = hexText r.discoveredAddr
  found : ∀ u v b, Related direction db a u v b →
    ∃ r ∈ rs, r.edge = toLex (u, v) ∧ r.discoveredAddr = b

theorem relations_spec (direction : CallGraphDirection) (db : CallDb) (a : Address) :
    ∃ rs, relations (some db) direction a = .ok rs ∧ Complete direction db a rs := by
  obtain ⟨callees, hcallees, hcallee⟩ := calleeRelations_spec direction db a
  obtain ⟨callers, hcallers, hcaller⟩ := callerRelations_spec direction db a
  refine ⟨_, by rw [relations, hcallees, hcallers]; rfl, ?_, ?_, ?_⟩
  · intro r hr
    rcases List.mem_append.mp (List.mem_mergeSort.mp hr) with hr | hr
    · obtain ⟨hdirection, infos, hinfos, info, hinfo, b, hb, rfl⟩ := (hcallee r).mp hr
      exact .callee hdirection ⟨infos, hinfos, info, hinfo, hb⟩
    · obtain ⟨hdirection, infos, hinfos, info, hinfo, b, hb, rfl⟩ := (hcaller r).mp hr
      exact .caller hdirection ⟨infos, hinfos, info, hinfo, hb⟩
  · intro r hr
    rcases List.mem_append.mp (List.mem_mergeSort.mp hr) with hr | hr
    · obtain ⟨_, _, _, _, _, b, hb, rfl⟩ := (hcallee r).mp hr
      exact hb
    · obtain ⟨_, _, _, _, _, b, hb, rfl⟩ := (hcaller r).mp hr
      exact hb
  · intro u v b h
    cases h with
    | callee hdirection h =>
      obtain ⟨infos, hinfos, info, hinfo, hb⟩ := h
      have hr := (hcallee _).mpr ⟨hdirection, infos, hinfos, info, hinfo, _, hb, rfl⟩
      exact ⟨_, List.mem_mergeSort.mpr (List.mem_append_left _ hr), rfl, rfl⟩
    | caller hdirection h =>
      obtain ⟨infos, hinfos, info, hinfo, hb⟩ := h
      have hr := (hcaller _).mpr ⟨hdirection, infos, hinfos, info, hinfo, _, hb, rfl⟩
      exact ⟨_, List.mem_mergeSort.mpr (List.mem_append_right _ hr), rfl, rfl⟩

theorem Related.ends {a u v b : Address} (h : Related direction db a u v b) :
    (u = a ∧ v = b) ∨ (u = b ∧ v = a) := by
  cases h with
  | callee => exact Or.inl ⟨rfl, rfl⟩
  | caller => exact Or.inr ⟨rfl, rfl⟩

end

/-! What holds in every round. -/

variable (direction : CallGraphDirection) (db : CallDb) (maxDepth maxNodes : ℕ) (root : Address)

abbrev Near : ℕ → Address → Prop := Within (Adjacent direction db) root

structure Sound (s : Search) : Prop where
  root_mem : root ∈ s.nodes
  nodes_le : s.nodes.length ≤ maxNodes
  queue_near : ∀ p ∈ s.queue, Near direction db root p.2 p.1
  queue_mem : ∀ p ∈ s.queue, p.1 ∈ s.nodes
  nodes_near : ∀ a ∈ s.nodes, Near direction db root maxDepth a
  edge_ends : ∀ u v, toLex (u, v) ∈ s.edges → u ∈ s.nodes ∧ v ∈ s.nodes
  edge_related : ∀ u v, toLex (u, v) ∈ s.edges →
    ∃ a ∈ s.nodes, Near direction db root (maxDepth - 1) a ∧ ∃ b, Related direction db a u v b
  rendered : ∀ e ∈ s.nodes.entries, e.2.address = hexText e.1

def Recorded (s : Search) (a : Address) : Prop :=
  ∀ u v b, Related direction db a u v b → toLex (u, v) ∈ s.edges ∧ b ∈ s.nodes

/-- As long as nothing was left out, the queue is the rest of a depth and the beginning of the next. -/
def Swept (s : Search) : Prop :=
  s.truncated = false → ∃ k now later,
    s.queue = now.map (·, k) ++ later.map (·, k + 1) ∧
    Sweep (Adjacent direction db) root maxDepth k (· ∈ s.nodes) (Recorded direction db s) now later

variable {direction db maxDepth maxNodes root}

theorem Sound.start (func : Func) (hnodes : 1 ≤ maxNodes) :
    Sound direction db maxDepth maxNodes func.startAddress (Search.start func) := by
  have hmem (a : Address) : a ∈ (Search.start func).nodes ↔ a = func.startAddress := List.mem_singleton
  refine ⟨(hmem _).mpr rfl, hnodes, ?_, ?_, ?_, ?_, ?_, ?_⟩
  · intro p hp
    rw [List.mem_singleton.mp hp]
    exact within_root 0
  · intro p hp
    rw [List.mem_singleton.mp hp]
    exact (hmem _).mpr rfl
  · intro a ha
    rw [(hmem a).mp ha]
    exact within_root maxDepth
  · exact fun _ _ h => absurd h List.not_mem_nil
  · exact fun _ _ h => absurd h List.not_mem_nil
  · intro e he
    rw [List.mem_singleton.mp he]
    rfl

theorem Sound.pop {s : Search} (h : Sound direction db maxDepth maxNodes root s)
    {p : Address × ℕ} {queue : List (Address × ℕ)} (hqueue : s.queue = p :: queue) :
    Sound direction db maxDepth maxNodes root { s with queue := queue } where
  root_mem := h.root_mem
  nodes_le := h.nodes_le
  queue_near := fun q hq => h.queue_near q (hqueue ▸ List.mem_cons_of_mem _ hq)
  queue_mem := fun q hq => h.queue_mem q (hqueue ▸ List.mem_cons_of_mem _ hq)
  nodes_near := h.nodes_near
  edge_ends := h.edge_ends
  edge_related := h.edge_related
  rendered := h.rendered

theorem Sound.insert_edge {s : Search} (h : Sound direction db maxDepth maxNodes root s)
    {a u v b : Address} (ha : a ∈ s.nodes) (hb : b ∈ s.nodes)
    (hnear : Near direction db root (maxDepth - 1) a) (hr : Related direction db a u v b) :
    Sound direction db maxDepth maxNodes root { s with edges := s.edges.insert (toLex (u, v)) } := by
  refine ⟨h.root_mem, h.nodes_le, h.queue_near, h.queue_mem, h.nodes_near, ?_, ?_, h.rendered⟩
  · intro u' v' he
    rcases SortedSet.mem_insert.mp he with heq | he
    · obtain ⟨rfl, rfl⟩ := Prod.mk.inj (toLex_inj.mp heq)
      rcases hr.ends with ⟨rfl, rfl⟩ | ⟨rfl, rfl⟩
      · exact ⟨ha, hb⟩
      · exact ⟨hb, ha⟩
    · exact h.edge_ends u' v' he
  · intro u' v' he
    rcases SortedSet.mem_insert.mp he with heq | he
    · obtain ⟨rfl, rfl⟩ := Prod.mk.inj (toLex_inj.mp heq)
      exact ⟨a, ha, hnear, b, hr⟩
    · exact h.edge_related u' v' he

theorem Sound.insert_node {s : Search} (h : Sound direction db maxDepth maxNodes root s)
    {b : Address} {info : FunctionInfo} {depth : ℕ} (hfresh : b ∉ s.nodes)
    (hroom : s.nodes.length < maxNodes) (hdepth : depth < maxDepth)
    (hnear : Near direction db root (depth + 1) b) (hinfo : info.address = hexText b) :
    Sound direction db maxDepth maxNodes root
      { s with nodes := s.nodes.insert b info, queue := s.queue ++ [(b, depth + 1)] } := by
  have hkeep (a : Address) (ha : a ∈ s.nodes) : a ∈ s.nodes.insert b info :=
    SortedMap.mem_insert.mpr (Or.inr ha)
  have hnew : b ∈ s.nodes.insert b info := SortedMap.mem_insert.mpr (Or.inl rfl)
  refine ⟨hkeep _ h.root_mem, ?_, ?_, ?_, ?_, ?_, ?_, ?_⟩
  · rw [SortedMap.length_insert info hfresh]
    exact hroom
  · intro p hp
    rcases List.mem_append.mp hp with hp | hp
    · exact h.queue_near p hp
    · rw [List.mem_singleton.mp hp]
      exact hnear
  · intro p hp
    rcases List.mem_append.mp hp with hp | hp
    · exact hkeep _ (h.queue_mem p hp)
    · rw [List.mem_singleton.mp hp]
      exact hnew
  · intro a ha
    rcases SortedMap.mem_insert.mp ha with rfl | ha
    · exact hnear.mono hdepth
    · exact h.nodes_near a ha
  · intro u v he
    exact ⟨hkeep u (h.edge_ends u v he).1, hkeep v (h.edge_ends u v he).2⟩
  · intro u v he
    obtain ⟨a, ha, hrelated⟩ := h.edge_related u v he
    exact ⟨a, hkeep a ha, hrelated⟩
  · intro e he
    rcases SortedMap.mem_entries_insert he with rfl | he
    · exact hinfo
    · exact h.rendered e he

theorem addRelation_keeps_nodes (s : Search) (depth : ℕ) (r : Relation) {a : Address} (ha : a ∈ s.nodes) :
    a ∈ (s.addRelation maxNodes depth r).nodes := by
  unfold Search.addRelation
  split_ifs
  · exact ha
  · exact ha
  · exact SortedMap.mem_insert.mpr (Or.inr ha)

theorem Sound.addRelation {s : Search} (h : Sound direction db maxDepth maxNodes root s)
    {a : Address} {depth : ℕ} {r : Relation} (ha : a ∈ s.nodes) (hdepth : depth < maxDepth)
    (hnear : Near direction db root depth a)
    (hr : Related direction db a r.fromAddr r.toAddr r.discoveredAddr)
    (hinfo : r.discovered.address = hexText r.discoveredAddr) :
    Sound direction db maxDepth maxNodes root (s.addRelation maxNodes depth r) := by
  have hexpanded : Near direction db root (maxDepth - 1) a := hnear.mono (by omega)
  unfold Search.addRelation
  split_ifs with hseen hfull
  · exact h.insert_edge ha hseen hexpanded hr
  · exact ⟨h.root_mem, h.nodes_le, h.queue_near, h.queue_mem, h.nodes_near, h.edge_ends,
      h.edge_related, h.rendered⟩
  · have hnext : Near direction db root (depth + 1) r.discoveredAddr := hnear.step ⟨_, _, hr⟩
    have hnode := h.insert_node hseen (not_le.mp hfull) hdepth hnext hinfo
    exact hnode.insert_edge (SortedMap.mem_insert.mpr (Or.inr ha))
      (SortedMap.mem_insert.mpr (Or.inl rfl)) hexpanded hr

theorem Sound.foldl {s : Search} (h : Sound direction db maxDepth maxNodes root s)
    {a : Address} {depth : ℕ} {rs : List Relation} (ha : a ∈ s.nodes) (hdepth : depth < maxDepth)
    (hnear : Near direction db root depth a)
    (hrelated : ∀ r ∈ rs, Related direction db a r.fromAddr r.toAddr r.discoveredAddr)
    (hinfo : ∀ r ∈ rs, r.discovered.address = hexText r.discoveredAddr) :
    Sound direction db maxDepth maxNodes root (rs.foldl (Search.addRelation maxNodes depth) s) := by
  induction rs generalizing s with
  | nil => exact h
  | cons r rs ih =>
    apply ih
    · exact h.addRelation ha hdepth hnear (hrelated r List.mem_cons_self) (hinfo r List.mem_cons_self)
    · exact addRelation_keeps_nodes s depth r ha
    · exact fun r' hr' => hrelated r' (List.mem_cons_of_mem _ hr')
    · exact fun r' hr' => hinfo r' (List.mem_cons_of_mem _ hr')

structure Expansion (s : Search) (depth : ℕ) (rs : List Relation) (new : List Address) (s' : Search) :
    Prop where
  whole : s.truncated = false
  queue : s'.queue = s.queue ++ new.map (·, depth + 1)
  new_found : ∀ b ∈ new, ∃ r ∈ rs, r.discoveredAddr = b
  nodes : ∀ b, b ∈ s'.nodes ↔ b ∈ s.nodes ∨ b ∈ new
  edges : ∀ e, e ∈ s'.edges ↔ e ∈ s.edges ∨ ∃ r ∈ rs, r.edge = e
  recorded : ∀ r ∈ rs, r.discoveredAddr ∈ s'.nodes

theorem addRelation_expansion (s : Search) (depth : ℕ) (r : Relation)
    (h : (s.addRelation maxNodes depth r).truncated = false) :
    ∃ new, Expansion s depth [r] new (s.addRelation maxNodes depth r) := by
  have hedge (e : Address ×ₗ Address) :
      e ∈ s.edges.insert r.edge ↔ e ∈ s.edges ∨ ∃ r' ∈ [r], r'.edge = e := by
    rw [SortedSet.mem_insert, or_comm]
    simp [eq_comm]
  unfold Search.addRelation at h ⊢
  split_ifs at h ⊢ with hseen hfull
  · refine ⟨[], h, by simp, by simp, by simp, hedge, ?_⟩
    intro r' hr'
    rw [List.mem_singleton.mp hr']
    exact hseen
  · refine ⟨[r.discoveredAddr], h, rfl, by simp, ?_, hedge, ?_⟩
    · intro b
      rw [List.mem_singleton, or_comm]
      exact SortedMap.mem_insert
    · intro r' hr'
      rw [List.mem_singleton.mp hr']
      exact SortedMap.mem_insert.mpr (Or.inl rfl)

theorem foldl_expansion (s : Search) (depth : ℕ) (rs : List Relation)
    (h : (rs.foldl (Search.addRelation maxNodes depth) s).truncated = false) :
    ∃ new, Expansion s depth rs new (rs.foldl (Search.addRelation maxNodes depth) s) := by
  induction rs generalizing s with
  | nil =>
    exact ⟨[], h, by simp, by simp, by simp, by simp, by simp⟩
  | cons r rs ih =>
    obtain ⟨new, hrest⟩ := ih (s.addRelation maxNodes depth r) h
    obtain ⟨new', hfirst⟩ := addRelation_expansion s depth r hrest.whole
    refine ⟨new' ++ new, hfirst.whole, ?_, ?_, ?_, ?_, ?_⟩
    · rw [List.foldl_cons, hrest.queue, hfirst.queue, List.map_append, List.append_assoc]
    · intro b hb
      rcases List.mem_append.mp hb with hb | hb
      · obtain ⟨r', hr', hb⟩ := hfirst.new_found b hb
        exact ⟨r, List.mem_cons_self, List.mem_singleton.mp hr' ▸ hb⟩
      · obtain ⟨r', hr', hb⟩ := hrest.new_found b hb
        exact ⟨r', List.mem_cons_of_mem _ hr', hb⟩
    · intro b
      rw [List.foldl_cons, hrest.nodes, hfirst.nodes, List.mem_append, or_assoc]
    · intro e
      rw [List.foldl_cons, hrest.edges, hfirst.edges, or_assoc]
      simp
    · intro r' hr'
      rcases List.mem_cons.mp hr' with rfl | hr'
      · exact (hrest.nodes _).mpr (Or.inl (hfirst.recorded r' List.mem_cons_self))
      · exact hrest.recorded r' hr'

theorem foldl_length (s : Search) (depth : ℕ) (rs : List Relation) :
    (rs.foldl (Search.addRelation maxNodes depth) s).queue.length + s.nodes.length =
      s.queue.length + (rs.foldl (Search.addRelation maxNodes depth) s).nodes.length := by
  induction rs generalizing s with
  | nil => rfl
  | cons r rs ih =>
    have hstep : (s.addRelation maxNodes depth r).queue.length + s.nodes.length =
        s.queue.length + (s.addRelation maxNodes depth r).nodes.length := by
      unfold Search.addRelation
      split_ifs with hseen hfull
      · rfl
      · rfl
      · rw [SortedMap.length_insert _ hseen, List.length_append, List.length_singleton]
        omega
    have hrest := ih (s.addRelation maxNodes depth r)
    rw [List.foldl_cons]
    omega

theorem Recorded.mono {s s' : Search} {a : Address} (h : Recorded direction db s a)
    (hedges : ∀ e, e ∈ s.edges → e ∈ s'.edges) (hnodes : ∀ b, b ∈ s.nodes → b ∈ s'.nodes) :
    Recorded direction db s' a := by
  intro u v b hr
  obtain ⟨he, hb⟩ := h u v b hr
  exact ⟨hedges _ he, hnodes b hb⟩

theorem recorded_closed {s : Search} :
    ∀ a, Recorded direction db s a → ∀ b, Adjacent direction db a b → b ∈ s.nodes := by
  rintro a ha b ⟨u, v, hr⟩
  exact (ha u v b hr).2

theorem Swept.start (func : Func) : Swept direction db maxDepth func.startAddress (Search.start func) := by
  intro _
  refine ⟨0, [func.startAddress], [], rfl, ?_⟩
  have hnodes : (fun a => a ∈ (Search.start func).nodes) = (· = func.startAddress) :=
    funext fun a => propext List.mem_singleton
  rw [hnodes]
  exact Sweep.start _

theorem Swept.current {s : Search} (h : Swept direction db maxDepth root s)
    (hwhole : s.truncated = false) {a : Address} {depth : ℕ} {queue : List (Address × ℕ)}
    (hqueue : s.queue = (a, depth) :: queue) : ∃ now later,
    queue = now.map (·, depth) ++ later.map (·, depth + 1) ∧
    Sweep (Adjacent direction db) root maxDepth depth (· ∈ s.nodes) (Recorded direction db s)
      (a :: now) later := by
  obtain ⟨k, now, later, hsplit, hsweep⟩ := h hwhole
  rw [hqueue] at hsplit
  cases now with
  | cons b now =>
    obtain ⟨hhead, htail⟩ := List.cons.inj hsplit
    obtain ⟨rfl, rfl⟩ := Prod.mk.inj hhead
    exact ⟨now, later, htail, hsweep⟩
  | nil =>
    cases later with
    | nil => exact absurd hsplit (List.cons_ne_nil _ _)
    | cons b later =>
      obtain ⟨hhead, htail⟩ := List.cons.inj hsplit
      obtain ⟨rfl, rfl⟩ := Prod.mk.inj hhead
      refine ⟨later, [], ?_, hsweep.turn recorded_closed (List.cons_ne_nil _ _)⟩
      rw [List.map_nil, List.append_nil]
      exact htail

theorem Swept.skip {s : Search} (h : Swept direction db maxDepth root s)
    {a : Address} {depth : ℕ} {queue : List (Address × ℕ)}
    (hqueue : s.queue = (a, depth) :: queue) (hdepth : maxDepth ≤ depth) :
    Swept direction db maxDepth root { s with queue := queue } := by
  intro hwhole
  obtain ⟨now, later, hsplit, hsweep⟩ := h.current hwhole hqueue
  exact ⟨depth, now, later, hsplit, hsweep.skip hdepth⟩

theorem Swept.expand {s : Search} (h : Swept direction db maxDepth root s)
    {a : Address} {depth : ℕ} {queue : List (Address × ℕ)} {rs : List Relation}
    (hqueue : s.queue = (a, depth) :: queue) (hdepth : depth < maxDepth)
    (hrs : Complete direction db a rs) : Swept direction db maxDepth root
      (rs.foldl (Search.addRelation maxNodes depth) { s with queue := queue }) := by
  intro hwhole
  obtain ⟨new, hnew⟩ := foldl_expansion _ depth rs hwhole
  obtain ⟨now, later, hsplit, hsweep⟩ := h.current hnew.whole hqueue
  refine ⟨depth, now, later ++ new, ?_, hsweep.expand hdepth ?_ hnew.nodes ?_ ?_⟩
  · rw [hnew.queue, hsplit, List.map_append, List.append_assoc]
  · intro b hb
    obtain ⟨r, hr, rfl⟩ := hnew.new_found b hb
    exact ⟨_, _, hrs.related r hr⟩
  · intro b hb
    exact hb.mono (fun e he => (hnew.edges e).mpr (Or.inl he)) fun c hc => (hnew.nodes c).mpr (Or.inl hc)
  · intro u v b hr
    obtain ⟨r, hmem, hedge, hfound⟩ := hrs.found u v b hr
    exact ⟨(hnew.edges _).mpr (Or.inr ⟨r, hmem, hedge⟩), hfound ▸ hnew.recorded r hmem⟩

theorem search_spec (fuel : ℕ) (s : Search) (hsound : Sound direction db maxDepth maxNodes root s)
    (hswept : Swept direction db maxDepth root s)
    (hfuel : s.queue.length + (maxNodes - s.nodes.length) < fuel) :
    ∃ s', search (some db) direction maxDepth maxNodes fuel s = some (.ok s') ∧ s'.queue = [] ∧
      Sound direction db maxDepth maxNodes root s' ∧ Swept direction db maxDepth root s' := by
  induction fuel generalizing s with
  | zero => exact absurd hfuel (Nat.not_lt_zero _)
  | succ fuel ih =>
    rw [search]
    cases hqueue : s.queue with
    | nil => exact ⟨s, rfl, hqueue, hsound, hswept⟩
    | cons p queue =>
      obtain ⟨a, depth⟩ := p
      rw [hqueue, List.length_cons] at hfuel
      dsimp only
      by_cases hdepth : maxDepth ≤ depth
      · rw [if_pos hdepth]
        apply ih _ (hsound.pop hqueue) (hswept.skip hqueue hdepth)
        dsimp only
        omega
      · rw [if_neg hdepth]
        obtain ⟨rs, hrs, hcomplete⟩ := relations_spec direction db a
        rw [hrs]
        have hmem : (a, depth) ∈ s.queue := hqueue ▸ List.mem_cons_self
        have hsound' := (hsound.pop hqueue).foldl (hsound.queue_mem _ hmem) (not_le.mp hdepth)
          (hsound.queue_near _ hmem) hcomplete.related hcomplete.rendered
        apply ih _ hsound' (hswept.expand hqueue (not_le.mp hdepth) hcomplete)
        have hlength := @foldl_length maxNodes { s with queue := queue } depth rs
        have hle := hsound'.nodes_le
        dsimp only at hlength
        omega

theorem search_mono {m n : ℕ} {s : Search} {result : Except ToolError Search}
    (h : search (some db) direction maxDepth maxNodes m s = some result) (hmn : m ≤ n) :
    search (some db) direction maxDepth maxNodes n s = some result := by
  induction m generalizing n s with
  | zero => exact nomatch h
  | succ m ih =>
    obtain ⟨n, rfl⟩ := Nat.exists_eq_succ_of_ne_zero (Nat.ne_of_gt (Nat.lt_of_lt_of_le (Nat.succ_pos m) hmn))
    have hle : m ≤ n := Nat.le_of_succ_le_succ hmn
    rw [search] at h ⊢
    cases hqueue : s.queue with
    | nil =>
      simp only [hqueue] at h ⊢
      exact h
    | cons p queue =>
      simp only [hqueue] at h ⊢
      by_cases hdepth : maxDepth ≤ p.2
      · rw [if_pos hdepth] at h ⊢
        exact ih h hle
      · rw [if_neg hdepth] at h ⊢
        cases hrs : relations (some db) direction p.1 with
        | error e =>
          simp only [hrs] at h ⊢
          exact h
        | ok rs =>
          simp only [hrs] at h ⊢
          exact ih h hle

namespace CallGraph

def HasNode (graph : CallGraph) (a : Address) : Prop :=
  hexText a ∈ graph.nodes.map FunctionInfo.address

def HasEdge (graph : CallGraph) (u v : Address) : Prop := (hexText u, hexText v) ∈ graph.edges

end CallGraph

variable {s : Search}

theorem hexText_address_inj {a b : Address} (h : hexText a = hexText b) : a = b :=
  Fin.ext (hexText_injective h)

theorem Sound.addresses (h : Sound direction db maxDepth maxNodes root s) :
    (s.report direction).nodes.map FunctionInfo.address =
      (s.nodes.entries.map Prod.fst).map fun a : Address => hexText a := by
  change (s.nodes.entries.map Prod.snd).map FunctionInfo.address = _
  rw [List.map_map, List.map_map]
  exact List.map_congr_left h.rendered

theorem Sound.hasNode (h : Sound direction db maxDepth maxNodes root s) (a : Address) :
    (s.report direction).HasNode a ↔ a ∈ s.nodes := by
  rw [CallGraph.HasNode, h.addresses, List.mem_map]
  constructor
  · rintro ⟨b, hb, heq⟩
    exact hexText_address_inj heq ▸ hb
  · exact fun ha => ⟨a, ha, rfl⟩

theorem hasEdge_report (u v : Address) :
    (s.report direction).HasEdge u v ↔ toLex (u, v) ∈ s.edges := by
  rw [CallGraph.HasEdge, Search.report, List.mem_map]
  constructor
  · rintro ⟨e, he, heq⟩
    obtain ⟨hu, hv⟩ := Prod.mk.inj heq
    rw [← hexText_address_inj hu, ← hexText_address_inj hv]
    exact he
  · exact fun he => ⟨toLex (u, v), he, rfl⟩

theorem Sound.of_empty (hsound : Sound direction db maxDepth maxNodes root s)
    (hswept : Swept direction db maxDepth root s) (hqueue : s.queue = [])
    (hwhole : s.truncated = false) (hdepth : 1 ≤ maxDepth) :
    (∀ a, a ∈ s.nodes ↔ Near direction db root maxDepth a) ∧
      ∀ u v, toLex (u, v) ∈ s.edges ↔
        ∃ a, Near direction db root (maxDepth - 1) a ∧ ∃ b, Related direction db a u v b := by
  obtain ⟨k, now, later, hsplit, hsweep⟩ := hswept hwhole
  rw [hqueue] at hsplit
  obtain ⟨hnow, hlater⟩ := List.append_eq_nil_iff.mp hsplit.symm
  obtain rfl := List.map_eq_nil_iff.mp hnow
  obtain rfl := List.map_eq_nil_iff.mp hlater
  obtain ⟨hseen, hdone⟩ := hsweep.finish recorded_closed
  refine ⟨hseen, fun u v => ⟨?_, ?_⟩⟩
  · intro he
    obtain ⟨a, -, hnear, b, hr⟩ := hsound.edge_related u v he
    exact ⟨a, hnear, b, hr⟩
  · rintro ⟨a, hnear, b, hr⟩
    exact (hdone (maxDepth - 1) a (by omega) hnear u v b hr).1

/-- The search ends with a sound part of the call graph, and with all of it up to the depth
unless it says that something is left out. -/
theorem callgraph_exact (db : CallDb) (direction : CallGraphDirection) (address : Address)
    (maxDepth maxNodes : ℕ) (root : Func) (hroot : db.functionAt address = some root)
    (hdepth : 1 ≤ maxDepth) (hnodes : 1 ≤ maxNodes) : ∃ graph : CallGraph,
    (∀ fuel > maxNodes,
      handleCallgraph (some db) direction maxDepth maxNodes fuel address = some (.ok graph)) ∧
    graph.HasNode root.startAddress ∧
    graph.nodes.length ≤ maxNodes ∧
    (graph.nodes.map FunctionInfo.address).Nodup ∧
    (∀ info ∈ graph.nodes, ∃ a : Address, info.address = hexText a ∧
      Within (Adjacent direction db) root.startAddress maxDepth a) ∧
    (∀ e ∈ graph.edges, ∃ u v : Address, e = (hexText u, hexText v) ∧
      graph.HasNode u ∧ graph.HasNode v ∧
      ∃ a, graph.HasNode a ∧ Within (Adjacent direction db) root.startAddress (maxDepth - 1) a ∧
        ∃ b, Related direction db a u v b) ∧
    (graph.truncated = false →
      (∀ a, graph.HasNode a ↔ Within (Adjacent direction db) root.startAddress maxDepth a) ∧
      ∀ u v, graph.HasEdge u v ↔
        ∃ a, Within (Adjacent direction db) root.startAddress (maxDepth - 1) a ∧
          ∃ b, Related direction db a u v b) := by
  have hstart : (Search.start root).queue.length + (maxNodes - (Search.start root).nodes.length) <
      maxNodes + 1 := by
    change 1 + (maxNodes - 1) < maxNodes + 1
    omega
  obtain ⟨s, hrun, hqueue, hsound, hswept⟩ :=
    @search_spec direction db maxDepth maxNodes root.startAddress (maxNodes + 1) _
      (Sound.start root hnodes) (Swept.start root) hstart
  refine ⟨s.report direction, ?_, (hsound.hasNode _).mpr hsound.root_mem, ?_, ?_, ?_, ?_, ?_⟩
  · intro fuel hfuel
    simp only [handleCallgraph, hroot, max_eq_left hdepth, max_eq_left hnodes,
      search_mono hrun hfuel]
    rfl
  · exact (List.length_map _).trans_le hsound.nodes_le
  · rw [hsound.addresses]
    have hkeys : (s.nodes.entries.map Prod.fst).Nodup := s.nodes.sorted.imp ne_of_lt
    exact hkeys.map fun _ _ => hexText_address_inj
  · intro info hinfo
    obtain ⟨e, he, rfl⟩ := List.mem_map.mp hinfo
    exact ⟨e.1, hsound.rendered e he, hsound.nodes_near _ (List.mem_map_of_mem he)⟩
  · intro e he
    obtain ⟨p, hp, rfl⟩ := List.mem_map.mp he
    obtain ⟨hu, hv⟩ := hsound.edge_ends (ofLex p).1 (ofLex p).2 hp
    obtain ⟨a, ha, hnear, hr⟩ := hsound.edge_related (ofLex p).1 (ofLex p).2 hp
    exact ⟨_, _, rfl, (hsound.hasNode _).mpr hu, (hsound.hasNode _).mpr hv, a,
      (hsound.hasNode a).mpr ha, hnear, hr⟩
  · intro hwhole
    obtain ⟨hexactNodes, hexactEdges⟩ := hsound.of_empty hswept hqueue hwhole hdepth
    exact ⟨fun a => (hsound.hasNode a).trans (hexactNodes a),
      fun u v => (hasEdge_report u v).trans (hexactEdges u v)⟩

def recursiveDb : CallDb where
  functionAt address := if address = 16 then some ⟨16, 17, some "main", 1⟩ else none
  addressToString _ := none
  xrefsFrom address := if address = 16 then [⟨.nearCall, 16, 16⟩, ⟨.nearCall, 16, 32⟩] else []
  xrefsTo address := if address = 16 then [⟨.nearCall, 16, 16⟩] else []
  insnAt _ := none
  nextHead _ := none

theorem callgraph_exact_recursive : ∃ graph : CallGraph,
    handleCallgraph (some recursiveDb) .both 1 2 3 16 = some (.ok graph) ∧
    graph.HasNode 16 ∧ graph.nodes.length ≤ 2 := by
  obtain ⟨graph, hrun, hroot, hlength, -⟩ :=
    callgraph_exact recursiveDb .both 16 1 2 ⟨16, 17, some "main", 1⟩ rfl (by decide) (by decide)
  exact ⟨graph, hrun 3 (by decide), hroot, hlength⟩

end IdaMcp.Callgraph
