import IdaMcp.Tasks.Effect

namespace IdaMcp.Tasks

open Foundation Assoc TaskRegistry

variable {instant : ℕ → ℕ} {r r' : TaskRegistry} {a : Action} {id : String} {e : TaskEntry}
  {m : List (String × TaskEntry)}

theorem ageLe_trans (p q t : ℕ × String) (hpq : ageLe p q = true) (hqt : ageLe q t = true) :
    ageLe p t = true := by
  simp only [ageLe, Bool.or_eq_true, decide_eq_true_eq, Bool.and_eq_true, beq_iff_eq] at *
  rcases hpq with hpq | ⟨hpq, hpq'⟩ <;> rcases hqt with hqt | ⟨hqt, hqt'⟩
  · exact .inl (Nat.lt_trans hpq hqt)
  · exact .inl (hqt ▸ hpq)
  · exact .inl (hpq ▸ hqt)
  · exact .inr ⟨hpq.trans hqt, le_trans hpq' hqt'⟩

theorem ageLe_total (p q : ℕ × String) : (ageLe p q || ageLe q p) = true := by
  simp only [ageLe, Bool.or_eq_true, decide_eq_true_eq, Bool.and_eq_true, beq_iff_eq]
  rcases Nat.lt_trichotomy p.1 q.1 with h | h | h
  · exact .inl (.inl h)
  · rcases le_total p.2 q.2 with h' | h'
    · exact .inl (.inr ⟨h, h'⟩)
    · exact .inr (.inr ⟨h.symm, h'⟩)
  · exact .inr (.inl h)

theorem fst_le_of_ageLe {p q : ℕ × String} (h : ageLe p q = true) : p.1 ≤ q.1 := by
  simp only [ageLe, Bool.or_eq_true, decide_eq_true_eq, Bool.and_eq_true, beq_iff_eq] at h
  omega

theorem mem_terminalByAge {p : ℕ × String} : p ∈ terminalByAge m ↔
    ∃ e, (p.2, e) ∈ m ∧ e.isRunning = false ∧ e.state.updatedAt = p.1 := by
  rw [terminalByAge, List.mem_mergeSort, List.mem_map]
  constructor
  · rintro ⟨⟨id, e⟩, hmem, rfl⟩
    obtain ⟨hmem, hterminal⟩ := List.mem_filter.mp hmem
    exact ⟨e, hmem, by simpa using hterminal, rfl⟩
  · rintro ⟨e, hmem, hterminal, hage⟩
    exact ⟨(p.2, e), List.mem_filter.mpr ⟨hmem, by simpa using hterminal⟩, Prod.ext hage rfl⟩

theorem reclaim_cases (hm : m.length ≤ maxTaskRegistryEntries) :
    (reclaimCapacityForAdmission m = m ∧
      (m.length = maxTaskRegistryEntries → ∀ id e, (id, e) ∈ m → e.isRunning = true)) ∨
    m.length = maxTaskRegistryEntries ∧ ∃ id e, (id, e) ∈ m ∧ e.isRunning = false ∧
      (∀ id' e', (id', e') ∈ m → e'.isRunning = false → e.state.updatedAt ≤ e'.state.updatedAt) ∧
      reclaimCapacityForAdmission m = remove m id := by
  unfold reclaimCapacityForAdmission
  by_cases hroom : m.length < maxTaskRegistryEntries
  · rw [if_pos hroom]
    exact .inl ⟨rfl, fun h => (Nat.ne_of_lt hroom h).elim⟩
  have hfull : m.length = maxTaskRegistryEntries := by omega
  have hsorted : (terminalByAge m).Pairwise fun p q => ageLe p q = true :=
    List.pairwise_mergeSort ageLe_trans ageLe_total _
  rw [if_neg hroom, hfull, Nat.sub_self]
  cases hterminal : terminalByAge m with
  | nil =>
    refine .inl ⟨rfl, fun _ id e he => ?_⟩
    by_contra hrunning
    rw [Bool.not_eq_true] at hrunning
    have hmem : (e.state.updatedAt, id) ∈ terminalByAge m :=
      mem_terminalByAge.mpr ⟨e, he, hrunning, rfl⟩
    rw [hterminal] at hmem
    cases hmem
  | cons p rest =>
    rw [hterminal] at hsorted
    have hp : p ∈ terminalByAge m := by rw [hterminal]; exact List.mem_cons_self
    obtain ⟨e, he, hstopped, hage⟩ := mem_terminalByAge.mp hp
    refine .inr ⟨rfl, p.2, e, he, hstopped, fun id' e' he' hstopped' => ?_, rfl⟩
    have hq : (e'.state.updatedAt, id') ∈ terminalByAge m :=
      mem_terminalByAge.mpr ⟨e', he', hstopped', rfl⟩
    rw [hterminal] at hq
    rw [hage]
    rcases List.mem_cons.mp hq with heq | hrest
    · rw [← heq]
    · exact fst_le_of_ageLe ((List.pairwise_cons.mp hsorted).1 _ hrest)

def admitted (owner : TaskOwner) (id key message : String) (now : ℕ) : TaskEntry :=
  .new owner { id, status := .running, message, result := none, createdAt := now, updatedAt := now,
               key := some key }

inductive Creates (owner : TaskOwner) (taskPrefix key message uuid : String)
    (kept : List (String × TaskEntry)) (now : ℕ) :
    Except TaskCreateError String → List (String × TaskEntry) → Prop
  | duplicate {id : String} {e : TaskEntry} (mem : (id, e) ∈ kept) (running : e.isRunning = true)
      (sameKey : e.state.key = some key) :
      Creates owner taskPrefix key message uuid kept now
        (.error (if owner ≠ .runtime ∧ e.owner = owner then .alreadyRunning e.state.id
          else .existingTaskIdIsPrivate)) kept
  | full (unique : ∀ id e, (id, e) ∈ kept → e.isRunning = true → e.state.key ≠ some key)
      (running : ∀ id e, (id, e) ∈ kept → e.isRunning = true)
      (length : kept.length = maxTaskRegistryEntries) :
      Creates owner taskPrefix key message uuid kept now
        (.error (.capacityExceeded maxTaskRegistryEntries)) kept
  | room (unique : ∀ id e, (id, e) ∈ kept → e.isRunning = true → e.state.key ≠ some key)
      (length : kept.length < maxTaskRegistryEntries) :
      Creates owner taskPrefix key message uuid kept now (.ok (nextTaskId taskPrefix uuid))
        ((nextTaskId taskPrefix uuid, admitted owner (nextTaskId taskPrefix uuid) key message now) :: kept)
  | reclaimed {id : String} {e : TaskEntry}
      (unique : ∀ id e, (id, e) ∈ kept → e.isRunning = true → e.state.key ≠ some key)
      (length : kept.length = maxTaskRegistryEntries) (mem : (id, e) ∈ kept)
      (terminal : e.isRunning = false)
      (oldest : ∀ id' e', (id', e') ∈ kept → e'.isRunning = false →
        e.state.updatedAt ≤ e'.state.updatedAt) :
      Creates owner taskPrefix key message uuid kept now (.ok (nextTaskId taskPrefix uuid))
        ((nextTaskId taskPrefix uuid, admitted owner (nextTaskId taskPrefix uuid) key message now) ::
          remove kept id)

theorem createKeyed_creates (instant : ℕ → ℕ) (hr : Keyed r.entries)
    (hbound : r.entries.length ≤ maxTaskRegistryEntries)
    (owner : TaskOwner) (taskPrefix key message uuid : String) :
    Creates owner taskPrefix key message uuid (r.pruneTerminalTasks instant).entries
      (instant (r.reads + 1)) (r.createKeyed instant owner taskPrefix key message uuid).1
      (r.createKeyed instant owner taskPrefix key message uuid).2.entries := by
  have hkept : (r.pruneTerminalTasks instant).entries.length ≤ maxTaskRegistryEntries :=
    Nat.le_trans (List.length_filter_le _ _) hbound
  have hkeyed : Keyed (r.pruneTerminalTasks instant).entries := hr.filter _
  unfold createKeyed
  dsimp only
  split
  · next id existing hfind =>
    have hmem := List.mem_of_find?_eq_some hfind
    have hfound := List.find?_some hfind
    simp only [Bool.and_eq_true, beq_iff_eq] at hfound
    have hcreates : Creates owner taskPrefix key message uuid (r.pruneTerminalTasks instant).entries
        (instant (r.reads + 1)) _ _ := .duplicate hmem hfound.1 hfound.2
    cases owner with
    | runtime => simpa using hcreates
    | session name =>
      by_cases howner : existing.owner = .session name
      · simpa [howner] using hcreates
      · simpa [howner] using hcreates
  · next hfind =>
    have hunique : ∀ id e, (id, e) ∈ (r.pruneTerminalTasks instant).entries → e.isRunning = true →
        e.state.key ≠ some key := by
      intro id e he hrunning hkey
      have hnone := List.find?_eq_none.mp hfind _ he
      simp [hrunning, hkey] at hnone
    rcases reclaim_cases hkept with ⟨hsame, hall⟩ | ⟨hfull, id, e, he, hstopped, holdest, hremoved⟩
    · rw [hsame]
      split
      · next hle =>
        have hlength := Nat.le_antisymm hkept hle
        exact .full hunique (hall hlength) hlength
      · next hlt => exact .room hunique (by omega)
    · have hlength := length_remove hkeyed he
      rw [hremoved, if_neg (by omega)]
      exact .reclaimed hunique hfull he hstopped holdest

theorem createKeyed_drawn (r : TaskRegistry) (instant : ℕ → ℕ) (owner : TaskOwner) (taskPrefix key message uuid : String) :
    (r.createKeyed instant owner taskPrefix key message uuid).2.drawn =
      match (r.createKeyed instant owner taskPrefix key message uuid).1 with
      | .ok _ => uuid :: r.drawn
      | .error _ => r.drawn := by
  unfold createKeyed
  dsimp only
  split
  · cases owner with
    | runtime => rfl
    | session name =>
      dsimp only
      split_ifs <;> rfl
  · split_ifs <;> rfl

theorem createKeyed_reads (owner : TaskOwner) (taskPrefix key message uuid : String) :
    r.reads < (r.createKeyed instant owner taskPrefix key message uuid).2.reads := by
  unfold createKeyed
  dsimp only
  split
  · cases owner with
    | runtime => exact Nat.lt_succ_self _
    | session name =>
      dsimp only
      split_ifs <;> exact Nat.lt_succ_self _
  · split_ifs
    · exact Nat.lt_succ_self _
    · exact Nat.lt_succ_of_lt (Nat.lt_succ_self _)

end IdaMcp.Tasks
