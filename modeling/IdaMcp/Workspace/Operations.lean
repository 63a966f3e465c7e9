import IdaMcp.Workspace.Moves

namespace IdaMcp.Workspace

open Foundation Remote Pool

variable {cfg : Config} {s s' : State} {u : OperationId} {d : DatabaseId} {p p' : Position} {b : Bool}
  {w : WorkerId} {l : LeaseId} {spare spare' : Option (WorkerId × LeaseId)} {orphan : Option TaskId}
  {db : WorkspaceDatabase} {t : TaskId} {stage : Stage} {pool' : Pool.State} {operation : Pool.Operation}

def Position.loose : Position → Bool
  | .await _ (.lease _) | .clearHandle _ _ true => false
  | _ => true

structure Leaves (s : State) (u : OperationId) : Prop where
  leasing : ∀ d t g b session, s.operation u = some ⟨d, .await t (.lease g), b⟩ →
    s.pool.role Pool.Position.leases t ≠ some session
  guard : ∀ d handle g b, s.operation u = some ⟨d, .clearHandle handle g true, b⟩ →
    (s.pool.stateOf handle.workerId).belongsToLease handle.leaseId = true →
    s.pool.Covered handle.workerId handle.leaseId

theorem leaves_of_loose (hu : s.operation u = some ⟨d, p, b⟩) (hloose : p.loose = true) : Leaves s u := by
  constructor
  · intro d' t g b' session hop
    rw [hu] at hop
    cases hop
    cases hloose
  · intro d' handle g b' hop
    rw [hu] at hop
    cases hop
    cases hloose

theorem leaves_of_await (hu : s.operation u = some ⟨d, .await t stage, b⟩)
    (hleases : s.pool.role Pool.Position.leases t = none) : Leaves s u := by
  constructor
  · intro d' t' g b' session hop hrole
    rw [hu] at hop
    cases hop
    rw [hleases] at hrole
    cases hrole
  · intro d' handle g b' hop
    rw [hu] at hop
    cases hop

def Position.quiet : Position → Bool
  | .settleStale | .acquire | .await _ _ | .clearHandle _ _ false | .reapDecision => false
  | _ => true

theorem admits_of_quiet (hquiet : p.quiet = true) : s.Admits u d p b := by
  cases p with
  | settleStale | acquire | await | reapDecision => cases hquiet
  | clearHandle handle g guarded =>
    cases guarded with
    | false => cases hquiet
    | true => exact ⟨nofun, nofun, nofun, nofun, nofun, nofun⟩
  | _ => exact ⟨nofun, nofun, nofun, nofun, nofun, nofun⟩

theorem admits_await {task : Pool.Task} (hfresh : s.pool.Fresh) (ht : s.pool.task t = some task)
    (hruns : stage.Runs s.pool d b task) (hlocks : (Position.await t stage).locks = false) :
    s.Admits u d (.await t stage) b where
  awaits := by
    rintro t' stage' ⟨⟩
    refine ⟨hfresh.lt ht, ?_⟩
    intro task' ht'
    rw [ht] at ht'
    cases ht'
    exact hruns
  locked := by
    intro htrue
    rw [hlocks] at htrue
    cases htrue
  vacant := by
    intro htrue
    rw [Position.locks_of_clears htrue] at hlocks
    cases hlocks
  pending := by
    intro g hg
    rw [Position.locks_of_clears (Position.clears_of_pending hg)] at hlocks
    cases hlocks
  lost := nofun
  reaps := nofun

theorem State.Admits.vacate {u' : OperationId} (h : s.Admits u d p b) :
    (s.setOperation u' none).Admits u d p b := by
  refine { h with pending := ?_ }
  intro g hg
  obtain ⟨hnext, hne⟩ := h.pending g hg
  exact ⟨hnext, fun lease hlease => hne lease (State.names_of_vacated hlease)⟩

theorem Sheltered.goOn (h : Sheltered cfg s spare orphan) (hu : s.operation u = some ⟨d, p, b⟩)
    (hleaves : Leaves s u) (hadmits : s.Admits u d p' b)
    (hnames : ∀ lease, p'.names = some lease → s.Names d lease)
    (horphan : ∀ t session, orphan = some t → s.pool.role Pool.Position.leases t = some session →
      session = d ∧ ∃ g, p' = .await t (.lease g)) :
    Sheltered cfg (s.goto u p') spare none := by
  have hlt := lt_of_operation h hu
  rw [goto_eq hu]
  refine (h.vacate hleaves.leasing hleaves.guard).occupy hlt ?_ hadmits.vacate ?_ horphan
  · rw [State.operation_setOperation, if_pos rfl]
  · exact fun lease hlease => (h.nameable (hnames lease hlease)).vacate

structure Changes (s : State) (d : DatabaseId) (db : WorkspaceDatabase)
    (spare spare' : Option (WorkerId × LeaseId)) : Prop where
  next : (s.database d).nextDatabaseGeneration ≤ db.nextDatabaseGeneration
  handle : ∀ lease, db.handle = some lease →
    (s.database d).handle = some lease ∨ Installs s d lease db
  gone : ∀ lease, (s.database d).handle = some lease → db.handle = some lease ∨
    ((s.pool.stateOf lease.handle.workerId).belongsToLease lease.handle.leaseId = true →
      s.pool.Covered lease.handle.workerId lease.handle.leaseId)
  spare : ∀ w l, spare = some (w, l) → spare' = some (w, l) ∨
    ∃ lease, db.handle = some lease ∧ lease.handle.workerId = w ∧ lease.handle.leaseId = l

theorem changes_of_handle_eq (hnext : (s.database d).nextDatabaseGeneration ≤ db.nextDatabaseGeneration)
    (hhandle : db.handle = (s.database d).handle) : Changes s d db spare spare where
  next := hnext
  handle _ hlease := .inl (hhandle ▸ hlease)
  gone _ hlease := .inl (hhandle ▸ hlease)
  spare _ _ hspare := .inl hspare

theorem changes_cleared (hcovered : ∀ lease, (s.database d).handle = some lease →
      (s.pool.stateOf lease.handle.workerId).belongsToLease lease.handle.leaseId = true →
      s.pool.Covered lease.handle.workerId lease.handle.leaseId) :
    Changes s d { s.database d with handle := none } spare spare where
  next := Nat.le_refl _
  handle := nofun
  gone lease hlease := .inr (hcovered lease hlease)
  spare _ _ hspare := .inl hspare

theorem Sheltered.goOnWith (h : Sheltered cfg s spare orphan) (hu : s.operation u = some ⟨d, p, b⟩)
    (hfree : (s.database d).lock = none ∨ (s.database d).lock = some u) (hleaves : Leaves s u)
    (hchanges : Changes s d db spare spare')
    (hadmits : ((s.setOperation u none).setDatabase d db).Admits u d p' b)
    (hnames : ∀ lease, p'.names = some lease → db.handle = some lease)
    (horphan : ∀ t session, orphan = some t → s.pool.role Pool.Position.leases t = some session →
      session = d ∧ ∃ g, p' = .await t (.lease g)) :
    Sheltered cfg ((s.setDatabase d db).goto u p') spare' none := by
  have hchanged := h.change hfree hleaves.leasing hleaves.guard hchanges.next hchanges.handle
    hchanges.gone hchanges.spare
  have hu' : (s.setDatabase d db).operation u = some ⟨d, p, b⟩ := hu
  have hlt := lt_of_operation h hu
  rw [goto_eq hu']
  refine hchanged.occupy hlt ?_ hadmits ?_ horphan
  · exact (State.operation_setOperation s u u none).trans (if_pos rfl)
  · intro lease hlease
    apply hchanged.nameable
    refine .inl ?_
    rw [State.database_setDatabase, if_pos rfl]
    exact hnames lease hlease

theorem Sheltered.leave (h : Sheltered cfg s spare orphan)
    (hfree : (s.database d).lock = none ∨ (s.database d).lock = some u) (hleaves : Leaves s u)
    (hchanges : Changes s d db spare spare') :
    Sheltered cfg ((s.setOperation u none).setDatabase d db) spare' orphan :=
  h.change hfree hleaves.leasing hleaves.guard hchanges.next hchanges.handle hchanges.gone
    hchanges.spare

/-! Pool operations that an operation starts. -/

theorem start_spec (hstart : Pool.step cfg.pool s.pool (.start operation) = some pool') :
    pool' = s.pool.spawn operation.position operation.detached := by
  simp only [Pool.step] at hstart
  split_ifs at hstart
  exact (Option.some_inj.mp hstart).symm

theorem started_task (hstart : Pool.step cfg.pool s.pool (.start operation) = some pool') :
    pool'.task s.pool.nextTask = some ⟨operation.position, operation.detached⟩ := by
  rw [start_spec hstart]
  exact Function.update_self ..

theorem started_lt (hstart : Pool.step cfg.pool s.pool (.start operation) = some pool') :
    s.pool.nextTask < pool'.nextTask := by
  rw [start_spec hstart]
  exact Nat.lt_succ_self _

theorem started_covers (hstart : Pool.step cfg.pool s.pool (.start operation) = some pool')
    (hends : operation.position.Ends w l) : pool'.Covered w l :=
  ⟨_, _, _, started_task hstart, hends⟩

theorem Sheltered.start (h : Sheltered cfg s spare none)
    (hstart : Pool.step cfg.pool s.pool (.start operation) = some pool') :
    Sheltered cfg { s with pool := pool' } spare
      (if operation.position.leases.isSome then some s.pool.nextTask else none) := by
  refine h.pool_step hstart ?_ (fun _ _ => id) ?_ ?_
  · rintro t w lease replenish outcome b l ⟨⟩
  · rintro session ⟨⟩
    exact if_pos rfl
  · rintro handle ⟨t, choice, session, b, ⟨⟩, -⟩

end IdaMcp.Workspace
