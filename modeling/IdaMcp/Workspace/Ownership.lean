import IdaMcp.Pool.Clients
import IdaMcp.Workspace.Step

namespace IdaMcp.Workspace

open Foundation Pool

variable {cfg : Config} {s : State} {pool' : Pool.State} {a : Pool.Action} {u : OperationId}
  {d : DatabaseId} {p p' : Position} {b : Bool} {t : TaskId} {w : WorkerId} {l : LeaseId}
  {g : DatabaseGeneration} {spare spare' : Option (WorkerId × LeaseId)} {orphan orphan' : Option TaskId}

namespace Position

/-- An operation that holds the mutex of its database's handle between steps. -/
def locks : Position → Bool
  | settleStale | acquire | await _ .retireStale | await _ (.lease _) => true
  | _ => false

def clears : Position → Bool
  | acquire | await _ .retireStale | await _ (.lease _) => true
  | _ => false

def names : Position → Option PooledDatabaseLease
  | await _ (.openCall h g _) | await _ (.call h g _) | clearHandle h g _ => some ⟨h, g⟩
  | _ => none

def pending : Position → Option DatabaseGeneration
  | await _ (.lease g) => some g
  | _ => none

end Position

def Stage.Runs (pool : Pool.State) (d : DatabaseId) (detached : Bool) : Stage → Pool.Task → Prop
  | .lease _, task => task.position.Acquires d ∧ task.detached = false
  | .call h _ _, task => task.position.Serves (pool.Lost h) h
  | .retireStale, task => task.position.leases = none
  | .openCall _ _ _, task => task.position.leases = none ∧ task.position.unwatched = false
  | .finish _, task =>
    task.position.leases = none ∧ (task.position.unwatched = true → detached = true)

namespace State

def Installed (s : State) (d : DatabaseId) (w : WorkerId) (l : LeaseId) : Prop :=
  ∃ lease, (s.database d).handle = some lease ∧ lease.handle.workerId = w ∧ lease.handle.leaseId = l

def InFlight (s : State) (w : WorkerId) (l : LeaseId) : Prop :=
  s.pool.Covered w l ∨ ∃ u d h g b, s.operation u = some ⟨d, .clearHandle h g true, b⟩ ∧
    h.workerId = w ∧ h.leaseId = l

def Names (s : State) (d : DatabaseId) (lease : PooledDatabaseLease) : Prop :=
  (s.database d).handle = some lease ∨
    ∃ u p b, s.operation u = some ⟨d, p, b⟩ ∧ p.names = some lease

structure Admits (s : State) (u : OperationId) (d : DatabaseId) (p : Position) (b : Bool) : Prop where
  awaits : ∀ t stage, p = .await t stage → t < s.pool.nextTask ∧
    ∀ task, s.pool.task t = some task → stage.Runs s.pool d b task
  locked : p.locks = true → (s.database d).lock = some u
  vacant : p.clears = true → (s.database d).handle = none
  pending : ∀ g, p.pending = some g → g = (s.database d).nextDatabaseGeneration ∧
    ∀ lease, s.Names d lease → lease.generation ≠ g
  lost : ∀ h g, p = .clearHandle h g false → s.pool.Lost h
  reaps : p = .reapDecision → b = true

end State

/-- Who owns the leases of the pool; `spare` is a lease that its operation has yet to install, and
`orphan` a pool task that its operation has yet to await. -/
structure Sheltered (cfg : Config) (s : State) (spare : Option (WorkerId × LeaseId))
    (orphan : Option TaskId) : Prop where
  pool : Regular cfg.pool s.pool
  fresh : ∀ u, s.nextOperation ≤ u → s.operation u = none
  admits : ∀ u d p b, s.operation u = some ⟨d, p, b⟩ → s.Admits u d p b
  issued : ∀ d lease, s.Names d lease →
    s.pool.Issued lease.handle ∧ lease.generation ≤ (s.database d).nextDatabaseGeneration
  one : ∀ d lease lease', s.Names d lease → s.Names d lease' → lease.generation = lease'.generation →
    lease = lease'
  session : ∀ d lease, (s.database d).handle = some lease → lease.handle.sessionId = d
  unique : ∀ d d' w w' l, s.Installed d w l → s.Installed d' w' l → d = d'
  leasing : ∀ t session, s.pool.role Pool.Position.leases t = some session → orphan = some t ∨
    ∃ u g b, s.operation u = some ⟨session, .await t (.lease g), b⟩
  sheltered : ∀ w l, (s.pool.stateOf w).belongsToLease l = true →
    spare = some (w, l) ∨ (∃ d, s.Installed d w l) ∨ s.InFlight w l
  closing : ∀ w l, s.pool.stateOf w = .closing l → s.pool.Covered w l ∧ s.pool.Published w

theorem runs_leases {stage : Stage} {task : Pool.Task} {session : SessionId}
    (hruns : stage.Runs s.pool d b task) (hleases : task.position.leases = some session) :
    (∃ g, stage = .lease g) ∧ session = d := by
  obtain ⟨position, detached⟩ := task
  have never (hnone : position.leases = none) : False := by
    rw [hnone] at hleases
    cases hleases
  cases stage with
  | lease g =>
    refine ⟨⟨g, rfl⟩, ?_⟩
    have hacquires := hruns.1
    cases position with
    | takeLeaseId | leaseLoop | leaseScan | spawnSlot | finishSpawn =>
      exact Option.some.inj (hleases.symm.trans hacquires)
    | _ => cases hleases
  | call h g tool =>
    cases position with
    | takeLeaseId | leaseLoop | leaseScan | spawnSlot | finishSpawn => exact hruns.elim
    | _ => cases hleases
  | retireStale => exact (never hruns).elim
  | openCall | finish => exact (never hruns.1).elim

theorem runs_step (hpool : Regular cfg.pool s.pool) {stage : Stage} {task task' : Pool.Task}
    (hissued : ∀ h g tool, stage = .call h g tool → s.pool.Issued h)
    (hruns : stage.Runs s.pool d b task) (ht : s.pool.task t = some task)
    (hstep : Pool.step cfg.pool s.pool a = some pool') (ht' : pool'.task t = some task') :
    stage.Runs pool' d b task' := by
  obtain ⟨position, detached⟩ := task
  obtain ⟨position', detached'⟩ := task'
  have idle (hnone : position.leases = none) : position'.leases = none := by
    rw [Option.eq_none_iff_forall_ne_some]
    intro session hsession
    rcases leases_of_step hpool.accounted hstep (Pool.State.role_eq _ ht' |>.trans hsession) with
      hold | ⟨hnew, -⟩
    · rw [Pool.State.role_eq _ ht, hnone] at hold
      cases hold
    · exact Nat.not_lt.mpr hnew (hpool.fresh.lt ht)
  have watched (hnew : position'.unwatched = true) : position.unwatched = true := by
    rcases taskStep_transition hpool.fresh (transition_of_step hstep) t position' detached' ht' with
      hsame | ⟨p, -, hadvance⟩ | ⟨hnext, -⟩
    · rw [ht] at hsame
      cases hsame
      exact hnew
    · rw [unwatched_advance hadvance] at hnew
      cases hnew
    · exact (Nat.not_lt.mpr hnext (hpool.fresh.lt ht)).elim
  cases stage with
  | lease g =>
    obtain ⟨hacquires, hdetached⟩ := hruns
    obtain ⟨hacquires', rfl⟩ := acquires_step hpool.fresh hacquires ht hstep ht'
    exact ⟨hacquires', hdetached⟩
  | call h g tool =>
    have hissued' := hissued h g tool rfl
    exact serves_step hpool.fresh hpool.tokens hpool.aligned hissued'
      (hpool.lost_step hstep hissued') hruns ht hstep ht'
  | retireStale => exact idle hruns
  | openCall =>
    refine ⟨idle hruns.1, ?_⟩
    rw [← Bool.not_eq_true]
    intro hnew
    exact Bool.false_ne_true (hruns.2.symm.trans (watched hnew))
  | finish => exact ⟨idle hruns.1, fun hnew => hruns.2 (watched hnew)⟩

def Grants (pool : Pool.State) (a : Pool.Action) (pool' : Pool.State) (h : PooledWorkerHandle) : Prop :=
  ∃ t choice session b, a = .run t choice ∧ pool.role Pool.Position.leases t = some session ∧
    pool'.task t = some ⟨.done (.leased h), b⟩

/-- No step drops a retirement that nothing watches before it has taken its slot. -/
def Watched (pool : Pool.State) (a : Pool.Action) : Prop :=
  ∀ t w lease replenish outcome b l, a = .drop t →
    pool.task t = some ⟨.takeDead w lease replenish (.stop outcome), b⟩ →
    (∀ l', lease = some l' → l' = l) → (pool.stateOf w).belongsToLease l = false

theorem stateOf_of_drop {task : Pool.Task} (ht : s.pool.task t = some task)
    (hstep : Pool.step cfg.pool s.pool (.drop t) = some pool') (w : WorkerId) :
    pool'.stateOf w = s.pool.stateOf w := by
  obtain ⟨position, detached⟩ := task
  cases detached with
  | true => simp [Pool.step, ht] at hstep
  | false =>
    simp only [Pool.step, ht, Option.some.injEq] at hstep
    subst hstep
    exact stateOf_dropTask s.pool t position w

theorem covered_pool (hpool : Regular cfg.pool s.pool) (hwatched : Watched s.pool a)
    (hstep : Pool.step cfg.pool s.pool a = some pool') (hcovered : s.pool.Covered w l)
    (hbelongs : (pool'.stateOf w).belongsToLease l = true) :
    pool'.Covered w l ∨ ∃ h, Grants s.pool a pool' h ∧ h.workerId = w ∧ h.leaseId = l ∧
      ¬ s.pool.Published w := by
  obtain ⟨t, p, b, ht, hends⟩ := hcovered
  cases covers_step hpool.accounted hpool.referred hpool.aligned hends ht hstep hbelongs with
  | covered hcovered => exact .inl hcovered
  | @granted choice session _ ha hp ht' =>
    subst hp
    refine .inr ⟨_, ⟨t, choice, session, _, ha, Pool.State.role_eq _ ht, ht'⟩, rfl, rfl, ?_⟩
    intro hpublished
    exact hpublished.2 t (Pool.State.role_eq _ ht)
  | dropped ha hp =>
    subst hp
    have hgone := hwatched t _ _ _ _ b l ha ht hends.2
    rw [ha] at hstep
    rw [stateOf_of_drop ht hstep, hgone] at hbelongs
    cases hbelongs

theorem State.Admits.pool_step (hpool : Regular cfg.pool s.pool)
    (hissued : ∀ lease, p.names = some lease → s.pool.Issued lease.handle) (h : s.Admits u d p b)
    (hstep : Pool.step cfg.pool s.pool a = some pool') : { s with pool := pool' }.Admits u d p b := by
  have hnext := (counters_le (transition_of_step hstep)).2
  refine { h with awaits := ?_, lost := ?_ }
  · rintro t stage rfl
    obtain ⟨hlt, hruns⟩ := h.awaits t stage rfl
    refine ⟨Nat.lt_of_lt_of_le hlt hnext, ?_⟩
    intro task' ht'
    have hissued' (handle : PooledWorkerHandle) (g : DatabaseGeneration) (tool : String)
        (hstage : stage = .call handle g tool) : s.pool.Issued handle := by
      subst hstage
      exact hissued ⟨handle, g⟩ rfl
    have runs {task : Pool.Task} (ht : s.pool.task t = some task) : stage.Runs pool' d b task' :=
      runs_step hpool hissued' (hruns task ht) ht hstep ht'
    have htasks := taskStep_transition hpool.fresh (transition_of_step hstep)
    rcases htasks t task'.position task'.detached ht' with ht | ⟨p, ht, -⟩ | ⟨hnew, -⟩
    · exact runs ht
    · exact runs ht
    · exact (Nat.not_lt.mpr hnew hlt).elim
  · rintro handle g rfl
    exact hpool.lost_step hstep (hissued ⟨handle, g⟩ rfl) (h.lost handle g rfl)

theorem Sheltered.pool_step (h : Sheltered cfg s spare none)
    (hstep : Pool.step cfg.pool s.pool a = some pool') (hwatched : Watched s.pool a)
    (hkept : ∀ w l, spare = some (w, l) → spare' = some (w, l))
    (horphan : ∀ session, a = .start (.lease session) → orphan = some s.pool.nextTask)
    (hspare : ∀ h, Grants s.pool a pool' h → spare' = some (h.workerId, h.leaseId)) :
    Sheltered cfg { s with pool := pool' } spare' orphan := by
  have hpool := h.pool
  have hpool' := hpool.step hstep
  have htransition := transition_of_step hstep
  have hnext := counters_le htransition
  have htasks := taskStep_transition hpool.fresh htransition
  refine { h with pool := hpool', admits := ?_, issued := ?_, leasing := ?_, sheltered := ?_,
                  closing := ?_ }
  · intro u d p b hu
    refine (h.admits u d p b hu).pool_step hpool ?_ hstep
    intro lease hnames
    exact (h.issued d lease (.inr ⟨u, p, b, hu, hnames⟩)).1
  · intro d lease hnames
    obtain ⟨hissued, hle⟩ := h.issued d lease hnames
    exact ⟨issued_step hstep hissued, hle⟩
  · intro t session ht
    rcases leases_of_step hpool.accounted hstep ht with hold | ⟨hnew, ha⟩
    · rcases h.leasing t session hold with hnone | howner
      · cases hnone
      · exact .inr howner
    · left
      rw [horphan session ha]
      obtain ⟨task, htask, -⟩ := Pool.State.role_eq_some ht
      have hlt := hpool'.fresh.lt htask
      rw [ha] at hstep
      simp only [Pool.step] at hstep
      split_ifs at hstep
      cases hstep
      exact congrArg some (Nat.le_antisymm hnew (Nat.le_of_lt_succ hlt))
  · intro w l hbelongs
    rcases belongs_cases (hpool.slots hstep w) hbelongs with hold | hcovered |
      ⟨t, p, session, b, ha, ht, hleases, ht'⟩
    · rcases h.sheltered w l hold with hspares | hinstalled | hcovered | hguard
      · exact .inl (hkept w l hspares)
      · exact .inr (.inl hinstalled)
      · rcases covered_pool hpool hwatched hstep hcovered hbelongs with
          hcovered | ⟨handle, hgrants, rfl, rfl, -⟩
        · exact .inr (.inr (.inl hcovered))
        · exact .inl (hspare handle hgrants)
      · exact .inr (.inr (.inr hguard))
    · exact .inr (.inr (.inl hcovered))
    · exact .inl (hspare _ ⟨t, _, session, b, ha, (Pool.State.role_eq _ ht).trans hleases, ht'⟩)
  · intro w l hclosing
    have hbelongs : (pool'.stateOf w).belongsToLease l = true := by
      change pool'.stateOf w = _ at hclosing
      rw [hclosing]
      exact decide_eq_true rfl
    rcases closing_cases (hpool.slots hstep w) hclosing with hold | ⟨hcovered, t, hd, b, ht, rfl⟩
    · obtain ⟨hcovered, hpublished⟩ := h.closing w l hold
      refine ⟨?_, hpublished.step htasks hnext.1⟩
      rcases covered_pool hpool hwatched hstep hcovered hbelongs with hcovered | ⟨-, -, -, -, hnot⟩
      · exact hcovered
      · exact (hnot hpublished).elim
    · have hpublished : s.pool.Published hd.workerId := hpool.referred.tasks t _ b ht
      exact ⟨hcovered, hpublished.step htasks hnext.1⟩

end IdaMcp.Workspace
