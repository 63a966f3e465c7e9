import IdaMcp.Pool.Openings
import IdaMcp.Workspace.Shelter

namespace IdaMcp.Workspace

open Foundation Remote Pool

variable {cfg : Config} {s s' : State} {u : OperationId} {d : DatabaseId} {p p' : Position} {b : Bool}
  {t : TaskId} {stage : Stage} {pool' : Pool.State} {a : Pool.Action} {operation : Pool.Operation}
  {choice : Choice} {g : DatabaseGeneration} {db : Option LeaseId} {database : WorkspaceDatabase}

namespace Position

/-- The positions of opens while no worker is lost; only the open of a fresh lease closes it. -/
def opens : Position → Bool
  | leaseForOpen | acquire | closeIfGeneration _ true _ => true
  | await _ (.lease _) | await _ (.openCall _ _ _) | await _ (.finish (.failed _)) => true
  | done _ => true
  | _ => false

/-- The generation of the lease that an open has been dispatched to, unless it has failed. -/
def relies : Position → Option DatabaseGeneration
  | await _ (.openCall _ g _) | done (.opened g _) => some g
  | _ => none

end Position

namespace State

def undisturbed (s : State) : Bool :=
  ((List.range s.pool.nextTask).all fun t =>
    (s.pool.task t).all fun task => !task.position.loses) &&
  (List.range s.pool.nextId).all fun w => !(s.pool.slot w).transportClosed

def reliedOn (s : State) (d : DatabaseId) (g : DatabaseGeneration) : Bool :=
  (List.range s.nextOperation).any fun u =>
    (s.operation u).any fun operation => operation.database = d && operation.position.relies = some g

def Stands (s : State) (d : DatabaseId) (g : DatabaseGeneration) (db : Option LeaseId) : Prop :=
  ∃ lease, (s.database d).handle = some lease ∧ lease.generation = g ∧
    (s.pool.slot lease.handle.workerId).database = db ∧ db ≠ none

end State

/-- A step of concurrent opens, with no close, worker loss, cancellation or shutdown. -/
def Undisturbed (s : State) (a : Action) : Bool :=
  s.undisturbed &&
    match a with
    | .start _ .openIdb => true
    | .start _ _ | .drop _ | .pool (.start _) => false
    | .pool (.childAnswer _ _ (.result result) _) => !isSdkCrash result
    | .run _ _ | .pool _ => true

/-- An open that has failed takes its fresh lease, on which another open relies. -/
def Undercuts (s : State) : Action → Bool
  | .run u _ =>
    match s.operation u with
    | some ⟨d, .closeIfGeneration g true _, _⟩ =>
      (s.database d).handle.any (·.generation = g) && s.reliedOn d g
    | _ => false
  | _ => false

def State.Granted (s : State) : Prop :=
  ∀ d lease, (s.database d).handle = some lease →
    s.pool.Issued lease.handle ∧ lease.handle.sessionId = d

theorem Sheltered.granted {spare : Option (WorkerId × LeaseId)} {orphan : Option TaskId}
    (h : Sheltered cfg s spare orphan) : s.Granted :=
  fun d lease hlease => ⟨(h.issued d lease (.inl hlease)).1, h.session d lease hlease⟩

structure Upheld (s : State) : Prop where
  steady : Steady s.pool
  positions : ∀ u operation, s.operation u = some operation → operation.position.opens = true
  installed : ∀ d lease, (s.database d).handle = some lease →
    s.pool.stateOf lease.handle.workerId = .leased d lease.handle.leaseId ∧
      ¬s.pool.Releasing lease.handle.leaseId
  calls : ∀ u d t handle g fresh b, s.operation u = some ⟨d, .await t (.openCall handle g fresh), b⟩ →
    (s.database d).handle = some ⟨handle, g⟩ ∧ t < s.pool.nextTask ∧
      ∀ task, s.pool.task t = some task →
        task.position.Opens ((s.pool.slot handle.workerId).database ≠ none) handle
  opened : ∀ u d g db b, s.operation u = some ⟨d, .done (.opened g db), b⟩ → s.Stands d g db

theorem Upheld.relies (h : Upheld s) (hu : s.operation u = some ⟨d, p, b⟩) (hp : p.relies = some g) :
    ∃ lease, (s.database d).handle = some lease ∧ lease.generation = g := by
  cases p with
  | await t stage =>
    cases stage with
    | openCall handle g' fresh =>
      cases hp
      exact ⟨_, (h.calls u d t handle g fresh b hu).1, rfl⟩
    | _ => cases hp
  | done result =>
    cases result with
    | opened g' db =>
      cases hp
      obtain ⟨lease, hlease, hg, -⟩ := h.opened u d g db b hu
      exact ⟨lease, hlease, hg⟩
    | _ => cases hp
  | _ => cases hp

theorem Upheld.pool_step (h : Upheld s) (hreg : Regular cfg.pool s.pool)
    (hgranted : s.Granted) (hquiet : Quiet s.pool a)
    (hrelease : ∀ handle, a = .start (.release handle) →
      ∀ d lease, (s.database d).handle = some lease → lease.handle.leaseId ≠ handle.leaseId)
    (hstep : Pool.step cfg.pool s.pool a = some pool') : Upheld { s with pool := pool' } := by
  have hpublished {d : DatabaseId} {lease : PooledDatabaseLease}
      (hlease : (s.database d).handle = some lease) : s.pool.Published lease.handle.workerId :=
    published_of_issued hreg.referred (hgranted d lease hlease).1
  have hkept {d : DatabaseId} {lease : PooledDatabaseLease}
      (hlease : (s.database d).handle = some lease)
      (hopen : (s.pool.slot lease.handle.workerId).database ≠ none) :
      (pool'.slot lease.handle.workerId).database = (s.pool.slot lease.handle.workerId).database :=
    database_step hreg h.steady hquiet (hpublished hlease) (h.installed d lease hlease).1 hopen hstep
  constructor
  · exact h.steady.step hreg hquiet hstep
  · exact h.positions
  · intro d lease hlease
    obtain ⟨hleased, hnot⟩ := h.installed d lease hlease
    refine ⟨leased_step hreg hquiet (hpublished hlease) hleased hnot hstep, ?_⟩
    intro hreleasing
    rcases releasing_step hreg.fresh hstep hreleasing with hold | ⟨handle, ha, -, hsame⟩
    · exact hnot hold
    · exact hrelease handle ha d lease hlease hsame.symm
  · intro u d t handle g fresh b hu
    obtain ⟨hhandle, hlt, hopens⟩ := h.calls u d t handle g fresh b hu
    refine ⟨hhandle, Nat.lt_of_lt_of_le hlt (counters_le (transition_of_step hstep)).2, ?_⟩
    rintro ⟨p', b'⟩ ht'
    have hold : ∃ p b, s.pool.task t = some ⟨p, b⟩ := by
      rcases taskStep_transition hreg.fresh (transition_of_step hstep) t p' b' ht' with
        ht | ⟨p, ht, -⟩ | ⟨hnew, -⟩
      · exact ⟨_, _, ht⟩
      · exact ⟨_, _, ht⟩
      · exact (Nat.not_lt.mpr hnew hlt).elim
    obtain ⟨p, b, ht⟩ := hold
    refine opens_step hreg h.steady hquiet ?_ ?_ (hopens _ ht) ht hstep ht'
    · have hsession : handle.sessionId = d := (hgranted d _ hhandle).2
      rw [hsession]
      exact (h.installed d _ hhandle).1
    · intro hopen
      have hsame := hkept hhandle hopen
      dsimp only at hsame
      rwa [hsame]
  · intro u d g db b hu
    obtain ⟨lease, hlease, hg, hdb, hne⟩ := h.opened u d g db b hu
    refine ⟨lease, hlease, hg, ?_, hne⟩
    rw [← hdb] at hne
    exact (hkept hlease hne).trans hdb

structure State.Upholds (s : State) (d : DatabaseId) (p : Position) : Prop where
  opens : p.opens = true
  calls : ∀ t handle g fresh, p = .await t (.openCall handle g fresh) →
    (s.database d).handle = some ⟨handle, g⟩ ∧ t < s.pool.nextTask ∧
      ∀ task, s.pool.task t = some task →
        task.position.Opens ((s.pool.slot handle.workerId).database ≠ none) handle
  opened : ∀ g db, p = .done (.opened g db) → s.Stands d g db

theorem Upheld.setOperation (h : Upheld s) (hp : s.Upholds d p) :
    Upheld (s.setOperation u (some ⟨d, p, b⟩)) := by
  have hcases {u' : OperationId} {operation : Operation}
      (hu' : (s.setOperation u (some ⟨d, p, b⟩)).operation u' = some operation) :
      operation = ⟨d, p, b⟩ ∨ s.operation u' = some operation := by
    rw [State.operation_setOperation] at hu'
    split_ifs at hu'
    · exact .inl (Option.some_inj.mp hu').symm
    · exact .inr hu'
  refine { h with positions := ?_, calls := ?_, opened := ?_ }
  · intro u' operation hu'
    rcases hcases hu' with rfl | hold
    · exact hp.opens
    · exact h.positions u' operation hold
  · intro u' d' t handle g fresh b' hu'
    rcases hcases hu' with hnew | hold
    · cases hnew
      exact hp.calls t handle g fresh rfl
    · exact h.calls u' d' t handle g fresh b' hold
  · intro u' d' g db b' hu'
    rcases hcases hu' with hnew | hold
    · cases hnew
      exact hp.opened g db rfl
    · exact h.opened u' d' g db b' hold

theorem Upheld.goto (h : Upheld s) (hu : s.operation u = some ⟨d, p, b⟩) (hp : s.Upholds d p') :
    Upheld (s.goto u p') := by
  have hgoto : s.goto u p' = s.setOperation u (some ⟨d, p', b⟩) := by
    simp only [State.goto, hu, Option.map_some]
  rw [hgoto]
  exact h.setOperation hp

theorem Upheld.setDatabase (h : Upheld s)
    (hkeep : database.handle = (s.database d).handle ∨ ∀ u operation,
      s.operation u = some operation → operation.database = d → operation.position.relies = none)
    (hinstalled : ∀ lease, database.handle = some lease →
      s.pool.stateOf lease.handle.workerId = .leased d lease.handle.leaseId ∧
        ¬s.pool.Releasing lease.handle.leaseId) : Upheld (s.setDatabase d database) := by
  have hhandle {u : OperationId} {d' : DatabaseId} {p : Position} {b : Bool}
      (hu : s.operation u = some ⟨d', p, b⟩) (hp : p.relies ≠ none) :
      ((s.setDatabase d database).database d').handle = (s.database d').handle := by
    rw [State.database_setDatabase]
    split_ifs with hd
    · subst hd
      rcases hkeep with hsame | hnone
      · exact hsame
      · exact (hp (hnone u _ hu rfl)).elim
    · rfl
  refine { h with installed := ?_, calls := ?_, opened := ?_ }
  · intro d' lease hlease
    rw [State.database_setDatabase] at hlease
    split_ifs at hlease with hd
    · subst hd
      exact hinstalled lease hlease
    · exact h.installed d' lease hlease
  · intro u d' t handle g fresh b hu
    rw [hhandle hu (Option.some_ne_none _)]
    exact h.calls u d' t handle g fresh b hu
  · intro u d' g db b hu
    unfold State.Stands
    rw [hhandle hu (Option.some_ne_none _)]
    exact h.opened u d' g db b hu

theorem Upheld.setDatabase_of_eq (h : Upheld s) (hhandle : database.handle = (s.database d).handle) :
    Upheld (s.setDatabase d database) := by
  apply h.setDatabase (.inl hhandle)
  intro lease hlease
  rw [hhandle] at hlease
  exact h.installed d lease hlease

theorem quiet_start {pool : Pool.State} (hcall : ∀ handle tool tracksOpen,
      operation = .call handle tool tracksOpen → tool = "open_idb" ∧ tracksOpen = true) :
    Quiet pool (.start operation) where
  calm t task ha := nomatch ha
  drops t task ha := nomatch ha
  opens := by
    rintro handle tool tracksOpen ⟨⟩
    exact hcall handle tool tracksOpen rfl
  awaited w request answer effect ha := nomatch ha
  keeps w request answer effect ha := nomatch ha
  answers w request answer effect ha := nomatch ha

theorem Upheld.await (h : Upheld s) (hreg : Regular cfg.pool s.pool) (hgranted : s.Granted)
    (hcall : ∀ handle tool tracksOpen, operation = .call handle tool tracksOpen →
      tool = "open_idb" ∧ tracksOpen = true)
    (hrelease : ∀ handle, operation = .release handle →
      ∀ d lease, (s.database d).handle = some lease → lease.handle.leaseId ≠ handle.leaseId)
    (hu : s.operation u = some ⟨d, p, b⟩)
    (hstage : ∀ pool', pool'.task s.pool.nextTask = some ⟨operation.position, operation.detached⟩ →
      s.pool.nextTask < pool'.nextTask →
      { s with pool := pool' }.Upholds d (.await s.pool.nextTask stage))
    (hstep : await cfg s u operation stage = some s') : Upheld s' := by
  obtain ⟨pool', hstart, rfl⟩ := await_eq_some hstep
  have hpool : Upheld { s with pool := pool' } := by
    apply h.pool_step hreg hgranted (quiet_start hcall) _ hstart
    rintro handle ⟨⟩
    exact hrelease handle rfl
  exact hpool.goto hu (hstage pool' (started_task hstart) (started_lt hstart))

theorem upholds_of_not_relies (hopens : p.opens = true) (hrelies : p.relies = none) : s.Upholds d p where
  opens := hopens
  calls t handle g fresh hp := by
    rw [hp] at hrelies
    cases hrelies
  opened g db hp := by
    rw [hp] at hrelies
    cases hrelies

theorem upholds_dispatched {handle : PooledWorkerHandle} {fresh : Bool}
    (hhandle : (s.database d).handle = some ⟨handle, g⟩) (hlt : t < s.pool.nextTask)
    (ht : s.pool.task t = some ⟨.callAdmission handle "open_idb" true, b⟩) :
    s.Upholds d (.await t (.openCall handle g fresh)) where
  opens := rfl
  calls := by
    rintro t' handle' g' fresh' ⟨⟩
    refine ⟨hhandle, hlt, ?_⟩
    intro task htask
    rw [ht] at htask
    cases htask
    rfl
  opened := nofun

theorem Upheld.goOn (h : Upheld s) (hu : s.operation u = some ⟨d, p, b⟩) (hopens : p'.opens = true)
    (hrelies : p'.relies = none) : Upheld (s.goto u p') :=
  h.goto hu (upholds_of_not_relies hopens hrelies)

theorem Upheld.setLock (h : Upheld s) (hu : s.operation u = some ⟨d, p, b⟩) (lock : Option OperationId)
    (hopens : p'.opens = true) (hrelies : p'.relies = none) : Upheld ((s.setLock d lock).goto u p') := by
  have hlocked : Upheld (s.setLock d lock) := h.setDatabase_of_eq rfl
  exact hlocked.goOn hu hopens hrelies

theorem transport_of_undisturbed (h : s.undisturbed = true) {w : WorkerId} (hw : w < s.pool.nextId) :
    (s.pool.slot w).transportClosed = false := by
  rw [State.undisturbed, Bool.and_eq_true, List.all_eq_true, List.all_eq_true] at h
  simpa using h.2 w (List.mem_range.mpr hw)

theorem calm_of_undisturbed (hfresh : s.pool.Fresh) (h : s.undisturbed = true) {task : Pool.Task}
    (ht : s.pool.task t = some task) : task.position.loses = false := by
  rw [State.undisturbed, Bool.and_eq_true, List.all_eq_true] at h
  have htask := h.1 t (List.mem_range.mpr (hfresh.lt ht))
  rw [ht] at htask
  simpa using htask

theorem Upheld.leaseForOpen (h : Upheld s) (hs : Sheltered cfg s none none)
    (hcalm : s.undisturbed = true) (hu : s.operation u = some ⟨d, .leaseForOpen, b⟩)
    (hstep : leaseForOpen cfg s u d = some s') : Upheld s' := by
  unfold Workspace.leaseForOpen at hstep
  rw [Option.ite_none_right_eq_some] at hstep
  obtain ⟨-, hstep⟩ := hstep
  cases hhandle : (s.database d).handle with
  | none =>
    simp only [hhandle, Option.some_inj] at hstep
    subst hstep
    exact h.setLock hu _ rfl rfl
  | some lease =>
    have hpublished := published_of_issued hs.pool.referred (hs.granted d lease hhandle).1
    have hhealthy : lease.healthy s.pool = true := by
      unfold PooledDatabaseLease.healthy
      rw [(h.installed d lease hhandle).1, transport_of_undisturbed hcalm hpublished.1]
      simp [ChildState.belongsToLease]
    simp only [hhandle, if_pos hhealthy] at hstep
    refine h.await hs.pool hs.granted ?_ ?_ hu ?_ hstep
    · rintro handle tool tracksOpen ⟨⟩
      exact ⟨rfl, rfl⟩
    · rintro handle ⟨⟩
    · exact fun pool' ht hlt => upholds_dispatched hhandle hlt ht

theorem Upheld.acquire (h : Upheld s) (hs : Sheltered cfg s none none)
    (hu : s.operation u = some ⟨d, .acquire, b⟩) (hstep : acquire cfg s u d choice = some s') :
    Upheld s' := by
  have hcounted : Upheld (s.setDatabase d
      { s.database d with nextDatabaseGeneration := (s.database d).nextDatabaseGeneration + 1 }) :=
    h.setDatabase_of_eq rfl
  unfold Workspace.acquire at hstep
  dsimp only at hstep
  split at hstep
  · refine hcounted.await hs.pool ?_ ?_ ?_ hu ?_ hstep
    · intro d' lease hlease
      rw [State.database_setDatabase] at hlease
      split_ifs at hlease with hd
      · subst hd
        exact hs.granted d' lease hlease
      · exact hs.granted d' lease hlease
    · nofun
    · nofun
    · exact fun pool' _ _ => upholds_of_not_relies rfl rfl
  · cases hstep
    exact hcounted.setLock hu _ rfl rfl
  · cases hstep

theorem not_reliedOn (hs : Sheltered cfg s none none) (hnot : s.reliedOn d g = false)
    {operation : Operation} (hu : s.operation u = some operation) (hd : operation.database = d) :
    operation.position.relies ≠ some g := by
  intro hrelies
  rw [State.reliedOn, List.any_eq_false] at hnot
  apply hnot u (List.mem_range.mpr (lt_of_operation hs hu))
  rw [hu, Option.any_some, hd, hrelies]
  simp

theorem Upheld.fresh_of_close {freshLease : Bool} {error : ToolError} (h : Upheld s)
    (hu : s.operation u = some ⟨d, .closeIfGeneration g freshLease error, b⟩) : freshLease = true := by
  have hopens : (Position.closeIfGeneration g freshLease error).opens = true := h.positions u _ hu
  cases freshLease with
  | true => rfl
  | false => cases hopens

theorem Upheld.closeIfGeneration {freshLease : Bool} {error : ToolError} (h : Upheld s) (hs : Sheltered cfg s none none)
    (hok : Undercuts s (.run u choice) = false)
    (hu : s.operation u = some ⟨d, .closeIfGeneration g freshLease error, b⟩)
    (hstep : release cfg s u d (some g) (.failed error) = some s') : Upheld s' := by
  obtain rfl := h.fresh_of_close hu
  unfold Workspace.release at hstep
  rw [Option.ite_none_right_eq_some] at hstep
  obtain ⟨-, hstep⟩ := hstep
  cases hhandle : (s.database d).handle with
  | none =>
    simp only [hhandle, Option.some_inj] at hstep
    subst hstep
    exact h.goOn hu rfl rfl
  | some lease =>
    simp only [hhandle] at hstep
    split_ifs at hstep with hexpected
    · have hg : lease.generation = g := (of_decide_eq_true hexpected).symm
      have hnot : s.reliedOn d g = false := by
        simpa [Undercuts, hu, hhandle, hg] using hok
      have hcleared : Upheld (s.setHandle d none) := by
        refine h.setDatabase (.inr ?_) ?_
        · rintro u' ⟨d', p', b'⟩ hu' rfl
          cases hrelies : p'.relies with
          | none => rfl
          | some g' =>
            obtain ⟨lease', hlease', hg'⟩ := h.relies hu' hrelies
            rw [hhandle] at hlease'
            obtain rfl := Option.some_inj.mp hlease'
            rw [← hg', hg] at hrelies
            exact (not_reliedOn hs hnot hu' rfl hrelies).elim
        · rintro lease' ⟨⟩
      have hinstalled {d' : DatabaseId} {lease' : PooledDatabaseLease}
          (hlease' : ((s.setHandle d none).database d').handle = some lease') :
          d' ≠ d ∧ (s.database d').handle = some lease' := by
        rw [State.setHandle, State.database_setDatabase] at hlease'
        split_ifs at hlease' with hd
        exact ⟨hd, hlease'⟩
      refine hcleared.await hs.pool ?_ ?_ ?_ hu ?_ hstep
      · exact fun d' lease' hlease' => hs.granted d' lease' (hinstalled hlease').2
      · rintro handle tool tracksOpen ⟨⟩
      · rintro handle ⟨⟩ d' lease' hlease' hsame
        obtain ⟨hd, hold⟩ := hinstalled hlease'
        exact hd (hs.unique d' d _ _ _ ⟨lease', hold, rfl, hsame⟩ ⟨lease, hhandle, rfl, rfl⟩)
      · exact fun pool' _ _ => upholds_of_not_relies rfl rfl
    · cases hstep
      exact h.goOn hu rfl rfl

theorem Upheld.leased {handle : PooledWorkerHandle} (h : Upheld s) (hreg : Regular cfg.pool s.pool)
    (hgranted : s.Granted) (hvacant : (s.database d).handle = none)
    (hleased : s.pool.stateOf handle.workerId = .leased d handle.leaseId ∧
      ¬s.pool.Releasing handle.leaseId)
    (hissued : s.pool.Issued handle ∧ handle.sessionId = d) (hu : s.operation u = some ⟨d, p, b⟩)
    (hstep : leased cfg s u d g handle = some s') : Upheld s' := by
  unfold Workspace.leased State.setLock at hstep
  dsimp only at hstep
  rw [State.setHandle_setDatabase] at hstep
  refine Upheld.await (h.setDatabase (.inr ?_) ?_) hreg ?_ ?_ ?_ hu ?_ hstep
  · rintro u' ⟨d', p', b'⟩ hu' rfl
    cases hrelies : p'.relies with
    | none => rfl
    | some g' =>
      obtain ⟨lease, hlease, -⟩ := h.relies hu' hrelies
      exact nomatch hvacant.symm.trans hlease
  · rintro lease ⟨⟩
    exact hleased
  · intro d' lease hlease
    rw [State.database_setDatabase] at hlease
    split_ifs at hlease with hd
    · subst hd
      cases hlease
      exact hissued
    · exact hgranted d' lease hlease
  · rintro handle' tool tracksOpen ⟨⟩
    exact ⟨rfl, rfl⟩
  · nofun
  · intro pool' ht hlt
    apply upholds_dispatched _ hlt ht
    rw [State.database_setDatabase, if_pos rfl]

theorem isError_of_openError {outcome : Outcome} {P : Prop} (houtcome : outcome.Opens P)
    (hnone : openError cfg outcome = none) : P := by
  cases outcome with
  | reply result =>
    apply houtcome.1
    intro herror
    rw [openError, resultError, if_pos herror] at hnone
    cases hnone
  | error error => cases hnone
  | leased | finished => exact houtcome.elim

theorem spares_of_openError {outcome : Outcome} {P : Prop} {error : ToolError}
    (houtcome : outcome.Opens P) (herror : openError cfg outcome = some error) : spares error := by
  cases outcome with
  | reply result =>
    rw [openError, Option.or_eq_some_iff] at herror
    rcases herror with hchild | ⟨-, hinfo⟩
    · exact houtcome.2 error hchild
    · obtain ⟨detail, -, rfl⟩ := Option.map_eq_some_iff.mp hinfo
      rfl
  | error error' =>
    cases herror
    exact houtcome
  | leased | finished => cases herror

theorem Upheld.openCalled {handle : PooledWorkerHandle} {fresh : Bool} {outcome : Outcome}
    (h : Upheld s) (hhandle : (s.database d).handle = some ⟨handle, g⟩)
    (houtcome : outcome.Opens ((s.pool.slot handle.workerId).database ≠ none))
    (hu : s.operation u = some ⟨d, p, b⟩) : Upheld (openCalled cfg s u handle g fresh outcome) := by
  unfold Workspace.openCalled
  cases herror : openError cfg outcome with
  | none =>
    refine h.goto hu ⟨rfl, nofun, ?_⟩
    rintro g' db ⟨⟩
    exact ⟨⟨handle, g⟩, hhandle, rfl, rfl, isError_of_openError houtcome herror⟩
  | some error =>
    dsimp only
    split_ifs with hreleases
    · cases fresh with
      | true => exact h.goOn hu rfl rfl
      | false =>
        have hspares := spares_of_openError houtcome herror
        rw [spares, hreleases] at hspares
        cases hspares
    · exact h.goOn hu rfl rfl

theorem quiet_run (hfresh : s.pool.Fresh) (hcalm : s.undisturbed = true) :
    Quiet s.pool (.run t choice) where
  calm := by
    rintro t' task ⟨⟩ ht
    exact calm_of_undisturbed hfresh hcalm ht
  drops t' task ha := nomatch ha
  opens handle tool tracksOpen ha := nomatch ha
  awaited w request answer effect ha := nomatch ha
  keeps w request answer effect ha := nomatch ha
  answers w request answer effect ha := nomatch ha

theorem quiet_drop {task : Pool.Task} (hfresh : s.pool.Fresh) (hcalm : s.undisturbed = true)
    (ht : s.pool.task t = some task) (hacquires : task.position.Acquires d) :
    Quiet s.pool (.drop t) where
  calm := by
    rintro t' task' ⟨⟩ ht'
    exact calm_of_undisturbed hfresh hcalm ht'
  drops := by
    rintro t' task' ⟨⟩ ht'
    rw [ht] at ht'
    cases ht'
    exact ⟨d, hacquires⟩
  opens handle tool tracksOpen ha := nomatch ha
  awaited w request answer effect ha := nomatch ha
  keeps w request answer effect ha := nomatch ha
  answers w request answer effect ha := nomatch ha

theorem Upheld.settle {outcome : Outcome} (h : Upheld s)
    (hu : s.operation u = some ⟨d, .await t stage, b⟩)
    (ht : (s.pool.task t).map Task.position = some (.done outcome))
    (hnot : ∀ g handle, stage = .lease g → outcome ≠ .leased handle)
    (hstep : settle cfg s u d stage outcome = some s') : Upheld s' := by
  have hopens : (Position.await t stage).opens = true := h.positions u _ hu
  obtain ⟨task, htask, hdone⟩ := Option.map_eq_some_iff.mp ht
  cases stage with
  | retireStale | call => cases hopens
  | lease g =>
    cases outcome with
    | leased handle => exact (hnot g handle rfl rfl).elim
    | error error =>
      cases hstep
      exact h.setLock hu _ rfl rfl
    | reply | finished => cases hstep
  | openCall handle g fresh =>
    cases hstep
    obtain ⟨hhandle, -, htasks⟩ := h.calls u d t handle g fresh b hu
    have houtcome := htasks task htask
    rw [hdone] at houtcome
    exact h.openCalled hhandle houtcome hu
  | finish result =>
    cases result with
    | failed error =>
      cases hstep
      exact h.goOn hu rfl rfl
    | opened | finished => cases hopens

theorem Upheld.run (h : Upheld s) (hs : Sheltered cfg s none none) (hcalm : s.undisturbed = true)
    (hu : s.operation u = some ⟨d, .await t stage, b⟩) {task : Pool.Task}
    (ht : s.pool.task t = some task) (hstep : Pool.step cfg.pool s.pool (.run t choice) = some pool')
    (hnext : (match (pool'.task t).map Task.position with
      | some (.done outcome) => Workspace.settle cfg { s with pool := pool' } u d stage outcome
      | _ => some { s with pool := pool' }) = some s') : Upheld s' := by
  have hpool : Upheld { s with pool := pool' } :=
    h.pool_step hs.pool hs.granted (quiet_run hs.pool.fresh hcalm) nofun hstep
  split at hnext
  · rename_i outcome hdone
    by_cases hgranted : ∃ g handle, stage = .lease g ∧ outcome = .leased handle
    · obtain ⟨g, handle, rfl, rfl⟩ := hgranted
      obtain ⟨⟨p', b'⟩, ht', hp'⟩ := Option.map_eq_some_iff.mp hdone
      obtain rfl : p' = _ := hp'
      have hadmits := hs.admits u d _ b hu
      obtain ⟨hacquires, -⟩ := (hadmits.awaits t _ rfl).2 task ht
      obtain ⟨q, hq, -, hgrant⟩ := acquires_next hs.pool.fresh hacquires ht (next_of_step hstep ht)
      cases ht'.symm.trans hq
      obtain ⟨hissued, hsession⟩ := hgrant handle rfl
      have hleased := granted_leased hs.pool h.steady hacquires ht hstep ht'
      refine hpool.leased (hs.pool.step hstep) ?_ (hadmits.vacant rfl) hleased ?_ hu hnext
      · intro d' lease hlease
        obtain ⟨hold, hsession'⟩ := hs.granted d' lease hlease
        exact ⟨issued_step hstep hold, hsession'⟩
      · exact ⟨issued_of_granted hstep hissued, hsession⟩
    · refine hpool.settle hu hdone ?_ hnext
      rintro g handle rfl rfl
      exact hgranted ⟨g, handle, rfl, rfl⟩
  · cases hnext
    exact hpool

theorem Upheld.poll (h : Upheld s) (hs : Sheltered cfg s none none) (hcalm : s.undisturbed = true)
    (hu : s.operation u = some ⟨d, .await t stage, b⟩)
    (hstep : poll cfg s u d t stage choice = some s') : Upheld s' := by
  have hadmits := hs.admits u d _ b hu
  unfold Workspace.poll at hstep
  cases ht : s.pool.task t with
  | none =>
    simp only [ht] at hstep
    cases hstep
  | some task =>
    obtain ⟨position, detached⟩ := task
    have hruns := (hadmits.awaits t _ rfl).2 _ ht
    cases detached with
    | false =>
      have hrun {choice : Choice} (hstep : ((Pool.step cfg.pool s.pool (.run t choice)).bind fun pool =>
          match (pool.task t).map Task.position with
          | some (.done outcome) => Workspace.settle cfg { s with pool } u d stage outcome
          | _ => some { s with pool }) = some s') : Upheld s' := by
        obtain ⟨pool', hpool, hnext⟩ := Option.bind_eq_some_iff.mp hstep
        exact h.run hs hcalm hu ht hpool hnext
      by_cases htimedOut : ∃ g secs, stage = .lease g ∧ choice = .timedOut secs
      · obtain ⟨g, secs, rfl, rfl⟩ := htimedOut
        simp only [ht] at hstep
        obtain ⟨pool', hdrop, rfl⟩ := Option.map_eq_some_iff.mp hstep
        have hpool : Upheld { s with pool := pool' } :=
          h.pool_step hs.pool hs.granted (quiet_drop hs.pool.fresh hcalm ht hruns.1) nofun hdrop
        exact hpool.setLock hu _ rfl rfl
      · cases stage with
        | lease g =>
          cases choice with
          | timedOut secs => exact (htimedOut ⟨g, secs, rfl, rfl⟩).elim
          | _ =>
            simp only [ht] at hstep
            exact hrun hstep
        | _ =>
          simp only [ht] at hstep
          exact hrun hstep
    | true =>
      cases position with
      | done outcome =>
        cases choice with
        | proceed =>
          simp only [ht] at hstep
          apply h.settle hu (by rw [ht]; rfl) _ hstep
          rintro g handle rfl
          cases hruns.2
        | _ =>
          simp only [ht] at hstep
          cases hstep
      | _ =>
        simp only [ht] at hstep
        cases hstep

theorem Upheld.next (h : Upheld s) (hs : Sheltered cfg s none none) (hcalm : s.undisturbed = true)
    (hok : Undercuts s (.run u choice) = false) (hu : s.operation u = some ⟨d, p, b⟩)
    (hstep : next cfg s u d p choice = some s') : Upheld s' := by
  have hopens : p.opens = true := h.positions u _ hu
  cases p with
  | leaseForOpen => exact h.leaseForOpen hs hcalm hu hstep
  | acquire => exact h.acquire hs hu hstep
  | closeIfGeneration g freshLease error => exact h.closeIfGeneration hs hok hu hstep
  | await t stage => exact h.poll hs hcalm hu hstep
  | done result => cases hstep
  | _ => cases hopens

end IdaMcp.Workspace
