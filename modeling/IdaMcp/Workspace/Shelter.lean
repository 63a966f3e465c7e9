import IdaMcp.Workspace.Operations

namespace IdaMcp.Workspace

open Foundation Remote Pool

variable {cfg : Config} {s s' : State} {u : OperationId} {d : DatabaseId} {p p' : Position} {b : Bool}
  {w : WorkerId} {l : LeaseId} {spare : Option (WorkerId × LeaseId)} {db : WorkspaceDatabase}
  {t : TaskId} {stage : Stage} {pool' : Pool.State} {operation : Pool.Operation} {choice : Choice}

theorem await_eq_some (h : await cfg s u operation stage = some s') :
    ∃ pool', Pool.step cfg.pool s.pool (.start operation) = some pool' ∧
      s' = { s with pool := pool' }.goto u (.await s.pool.nextTask stage) := by
  obtain ⟨pool', hstart, rfl⟩ := Option.map_eq_some_iff.mp h
  exact ⟨pool', hstart, rfl⟩

theorem Sheltered.awaits (h : Sheltered cfg s spare none) (hu : s.operation u = some ⟨d, p, b⟩)
    (hfree : (s.database d).lock = none ∨ (s.database d).lock = some u)
    (hstart : Pool.step cfg.pool s.pool (.start operation) = some pool')
    (hleases : operation.position.leases = none) (hleaves : Leaves { s with pool := pool' } u)
    (hchanges : Changes { s with pool := pool' } d db spare none)
    (hadmits : (({ s with pool := pool' }.setOperation u none).setDatabase d db).Admits u d
      (.await s.pool.nextTask stage) b)
    (hnames : ∀ lease, (Position.await s.pool.nextTask stage).names = some lease →
      db.handle = some lease) :
    Sheltered cfg (({ s with pool := pool' }.setDatabase d db).goto u (.await s.pool.nextTask stage))
      none none := by
  have hstarted := h.start hstart
  rw [hleases] at hstarted
  exact hstarted.goOnWith hu hfree hleaves hchanges hadmits hnames nofun

theorem admits_started (hpool : Regular cfg.pool s.pool)
    (hstart : Pool.step cfg.pool s.pool (.start operation) = some pool')
    (hruns : stage.Runs pool' d b ⟨operation.position, operation.detached⟩)
    (hlocks : (Position.await s.pool.nextTask stage).locks = false) :
    (({ s with pool := pool' }.setOperation u none).setDatabase d db).Admits u d
      (.await s.pool.nextTask stage) b :=
  admits_await (hpool.step hstart).fresh (started_task hstart) hruns hlocks

theorem Sheltered.leaseForOpen (h : Sheltered cfg s none none)
    (hu : s.operation u = some ⟨d, .leaseForOpen, b⟩) (hstep : leaseForOpen cfg s u d = some s') :
    Sheltered cfg s' none none := by
  unfold Workspace.leaseForOpen at hstep
  rw [Option.ite_none_right_eq_some] at hstep
  obtain ⟨hlock, hstep⟩ := hstep
  have hleaves : Leaves s u := leaves_of_loose hu rfl
  cases hhandle : (s.database d).handle with
  | none =>
    simp only [hhandle, Option.some_inj] at hstep
    subst hstep
    refine h.goOnWith hu (.inl hlock) hleaves (changes_of_handle_eq (Nat.le_refl _) rfl) ?_ nofun nofun
    refine ⟨nofun, ?_, ?_, nofun, nofun, nofun⟩
    · intro _
      rw [State.database_setDatabase, if_pos rfl]
    · intro _
      rw [State.database_setDatabase, if_pos rfl]
      exact hhandle
  | some lease =>
    simp only [hhandle] at hstep
    split_ifs at hstep with hhealthy
    · obtain ⟨pool', hstart, rfl⟩ := await_eq_some hstep
      rw [← State.setDatabase_self { s with pool := pool' } d]
      refine h.awaits hu (.inl hlock) hstart rfl (leaves_of_loose hu rfl)
        (changes_of_handle_eq (Nat.le_refl _) rfl) (admits_started h.pool hstart ⟨rfl, rfl⟩ rfl) ?_
      rintro lease' ⟨⟩
      exact hhandle
    · cases hstep
      refine h.goOnWith hu (.inl hlock) hleaves (changes_of_handle_eq (Nat.le_refl _) rfl) ?_ nofun nofun
      refine ⟨nofun, ?_, nofun, nofun, nofun, nofun⟩
      intro _
      rw [State.database_setDatabase, if_pos rfl]

theorem Sheltered.holds (h : Sheltered cfg s spare none) (hu : s.operation u = some ⟨d, p, b⟩)
    (hlocks : p.locks = true) : (s.database d).lock = some u :=
  (h.admits u d p b hu).locked hlocks

theorem Sheltered.settleStale (h : Sheltered cfg s none none)
    (hu : s.operation u = some ⟨d, .settleStale, b⟩) (hstep : settleStale cfg s u d = some s') :
    Sheltered cfg s' none none := by
  have hlock := h.holds hu rfl
  unfold Workspace.settleStale at hstep
  cases hhandle : (s.database d).handle with
  | none =>
    simp only [hhandle, Option.some_inj] at hstep
    subst hstep
    exact h.goOnWith hu (.inr hlock) (leaves_of_loose hu rfl)
      (changes_of_handle_eq (Nat.le_refl _) rfl) (admits_of_quiet rfl) nofun nofun
  | some lease =>
    simp only [hhandle] at hstep
    rw [Option.ite_none_right_eq_some] at hstep
    obtain ⟨pool', hstart, rfl⟩ := await_eq_some hstep.2
    have hself : (({ s with pool := pool' }.setOperation u none).setDatabase d
        { s.database d with handle := none }).database d = { s.database d with handle := none } := by
      rw [State.database_setDatabase, if_pos rfl]
    refine h.awaits hu (.inr hlock) hstart rfl (leaves_of_loose hu rfl) ?_ ⟨?_, ?_, ?_, nofun, nofun, nofun⟩
      nofun
    · apply changes_cleared
      intro lease' hlease' _
      obtain rfl := Option.some_inj.mp (hhandle.symm.trans hlease')
      exact started_covers hstart ⟨rfl, fun l' hl' => (Option.some_inj.mp hl').symm⟩
    · rintro t stage ⟨⟩
      refine ⟨started_lt hstart, ?_⟩
      intro task ht
      rw [Option.some_inj.mp (ht.symm.trans (started_task hstart))]
      rfl
    · intro _
      rw [hself]
      exact hlock
    · intro _
      rw [hself]

theorem Sheltered.acquire (h : Sheltered cfg s none none)
    (hu : s.operation u = some ⟨d, .acquire, b⟩) (hstep : acquire cfg s u d choice = some s') :
    Sheltered cfg s' none none := by
  have hlock := h.holds hu rfl
  have hvacant := (h.admits u d _ b hu).vacant rfl
  have hnext : (s.database d).nextDatabaseGeneration ≤ (s.database d).nextDatabaseGeneration + 1 :=
    Nat.le_succ _
  unfold Workspace.acquire at hstep
  dsimp only at hstep
  split at hstep
  · obtain ⟨pool', hstart, rfl⟩ := await_eq_some hstep
    change Pool.step cfg.pool s.pool _ = _ at hstart
    have hstarted := h.start hstart
    have hself : (({ s with pool := pool' }.setOperation u none).setDatabase d
        { s.database d with nextDatabaseGeneration := (s.database d).nextDatabaseGeneration + 1 }).database d =
        { s.database d with nextDatabaseGeneration := (s.database d).nextDatabaseGeneration + 1 } := by
      rw [State.database_setDatabase, if_pos rfl]
    refine hstarted.goOnWith hu (.inr hlock) (leaves_of_loose hu rfl) (changes_of_handle_eq hnext rfl)
      ⟨?_, ?_, ?_, ?_, nofun, nofun⟩ nofun ?_
    · rintro t stage ⟨⟩
      refine ⟨started_lt hstart, ?_⟩
      intro task ht
      rw [Option.some_inj.mp (ht.symm.trans (started_task hstart))]
      exact ⟨rfl, rfl⟩
    · intro _
      rw [hself]
      exact hlock
    · intro _
      rw [hself]
      exact hvacant
    · rintro g ⟨⟩
      rw [hself]
      refine ⟨rfl, ?_⟩
      intro lease hlease hgeneration
      have hnames : s.Names d lease := by
        rcases hlease with hlease | ⟨u', p, b', hop, hlease⟩
        · rw [hself] at hlease
          exact .inl hlease
        · exact .inr ⟨u', p, b', (State.operation_of_vacated hop).2, hlease⟩
      have hle := (h.issued d lease hnames).2
      rw [hgeneration] at hle
      exact Nat.not_succ_le_self _ hle
    · intro t session horphan hrole
      obtain rfl := Option.some_inj.mp horphan
      rw [Pool.State.role_eq _ (started_task hstart)] at hrole
      exact ⟨(Option.some_inj.mp hrole).symm, _, rfl⟩
  · cases hstep
    rw [State.setLock_setDatabase]
    exact h.goOnWith hu (.inr hlock) (leaves_of_loose hu rfl) (changes_of_handle_eq hnext rfl)
      (admits_of_quiet rfl) nofun nofun
  · cases hstep

theorem Sheltered.quiet (h : Sheltered cfg s spare none) (hu : s.operation u = some ⟨d, p, b⟩)
    (hleaves : Leaves s u) (hquiet : p'.quiet = true) (hnames : p'.names = none) :
    Sheltered cfg (s.goto u p') spare none :=
  h.goOn hu hleaves (admits_of_quiet hquiet) (fun _ hlease => nomatch hnames.symm.trans hlease) nofun

theorem Sheltered.requiredHandle {expected : Option DatabaseGeneration} {tool : String}
    (h : Sheltered cfg s none none) (hu : s.operation u = some ⟨d, p, b⟩) (hloose : p.loose = true)
    (hstep : requiredHandle cfg s u d expected tool = some s') : Sheltered cfg s' none none := by
  have hleaves := leaves_of_loose hu hloose
  unfold Workspace.requiredHandle at hstep
  rw [Option.ite_none_right_eq_some] at hstep
  obtain ⟨hlock, hstep⟩ := hstep
  cases hhandle : (s.database d).handle with
  | none =>
    simp only [hhandle, Option.some_inj] at hstep
    subst hstep
    exact h.quiet hu hleaves rfl rfl
  | some lease =>
    simp only [hhandle] at hstep
    split_ifs at hstep with hexpected
    · obtain ⟨pool', hstart, rfl⟩ := await_eq_some hstep
      rw [← State.setDatabase_self { s with pool := pool' } d]
      refine h.awaits hu (.inl hlock) hstart rfl (leaves_of_loose hu hloose)
        (changes_of_handle_eq (Nat.le_refl _) rfl) (admits_started h.pool hstart rfl rfl) ?_
      rintro lease' ⟨⟩
      exact hhandle
    · cases hstep
      exact h.quiet hu hleaves rfl rfl

theorem Sheltered.release {expected : Option DatabaseGeneration} {result : Result}
    (h : Sheltered cfg s none none) (hu : s.operation u = some ⟨d, p, b⟩) (hloose : p.loose = true)
    (hstep : release cfg s u d expected result = some s') : Sheltered cfg s' none none := by
  have hleaves := leaves_of_loose hu hloose
  unfold Workspace.release at hstep
  rw [Option.ite_none_right_eq_some] at hstep
  obtain ⟨hlock, hstep⟩ := hstep
  cases hhandle : (s.database d).handle with
  | none =>
    simp only [hhandle, Option.some_inj] at hstep
    subst hstep
    exact h.quiet hu hleaves rfl rfl
  | some lease =>
    simp only [hhandle] at hstep
    split_ifs at hstep with hexpected
    · obtain ⟨pool', hstart, rfl⟩ := await_eq_some hstep
      refine h.awaits hu (.inl hlock) hstart rfl (leaves_of_loose hu hloose) (changes_cleared ?_)
        (admits_started h.pool hstart ⟨rfl, nofun⟩ rfl) nofun
      intro lease' hlease' _
      obtain rfl := Option.some_inj.mp (hhandle.symm.trans hlease')
      exact started_covers hstart ⟨rfl, rfl⟩
    · cases hstep
      exact h.quiet hu hleaves rfl rfl

theorem clearHandleIfLease_eq {handle : PooledWorkerHandle} {g : DatabaseGeneration} {guarded : Bool}
    (h : Sheltered cfg s none none) (hu : s.operation u = some ⟨d, .clearHandle handle g guarded, b⟩) :
    clearHandleIfLease s d handle.workerId g = s ∨
      clearHandleIfLease s d handle.workerId g = s.setHandle d none ∧
        (s.database d).handle = some ⟨handle, g⟩ := by
  unfold clearHandleIfLease
  split_ifs with hmatches
  · refine .inr ⟨rfl, ?_⟩
    obtain ⟨lease, hlease, hsame⟩ := (Option.any_eq_true ..).mp hmatches
    rw [Bool.and_eq_true, decide_eq_true_eq, decide_eq_true_eq] at hsame
    rw [hlease, h.one d lease ⟨handle, g⟩ (.inl hlease) (.inr ⟨u, _, b, hu, rfl⟩) hsame.2]
  · exact .inl rfl

theorem Sheltered.clearHandle {handle : PooledWorkerHandle} {g : DatabaseGeneration} {guarded : Bool}
    (h : Sheltered cfg s none none) (hu : s.operation u = some ⟨d, .clearHandle handle g guarded, b⟩)
    (hstep : clearHandle cfg s u d handle g guarded = some s') : Sheltered cfg s' none none := by
  unfold Workspace.clearHandle at hstep
  rw [Option.ite_none_right_eq_some] at hstep
  obtain ⟨hlock, hstep⟩ := hstep
  have hcleared := clearHandleIfLease_eq h hu
  cases guarded with
  | true =>
    dsimp only at hstep
    rw [if_pos rfl] at hstep
    obtain ⟨pool', hstart, rfl⟩ := await_eq_some hstep
    have hcovers (hstart : Pool.step cfg.pool s.pool (.start (.markDeadForLease handle true)) = some pool') :
        pool'.Covered handle.workerId handle.leaseId :=
      started_covers hstart ⟨rfl, fun l' hl' => (Option.some_inj.mp hl').symm⟩
    have hleaves (hstart : Pool.step cfg.pool s.pool (.start (.markDeadForLease handle true)) = some pool') :
        Leaves { s with pool := pool' } u := by
      refine ⟨fun d' t g' b' session hop => ?_, fun d' handle' g' b' hop _ => ?_⟩
      · cases hu.symm.trans hop
      · cases hu.symm.trans hop
        exact hcovers hstart
    rcases hcleared with hsame | ⟨hnone, hhandle⟩
    · rw [hsame] at hstart ⊢
      rw [← State.setDatabase_self { s with pool := pool' } d]
      exact h.awaits hu (.inl hlock) hstart rfl (hleaves hstart)
        (changes_of_handle_eq (Nat.le_refl _) rfl) (admits_started h.pool hstart ⟨rfl, nofun⟩ rfl) nofun
    · rw [hnone] at hstart ⊢
      refine h.awaits hu (.inl hlock) hstart rfl (hleaves hstart) (changes_cleared ?_)
        (admits_started h.pool hstart ⟨rfl, nofun⟩ rfl) nofun
      intro lease hlease _
      obtain rfl := Option.some_inj.mp (hhandle.symm.trans hlease)
      exact hcovers hstart
  | false =>
    dsimp only at hstep
    rw [if_neg Bool.false_ne_true, Option.some_inj] at hstep
    subst hstep
    rcases hcleared with hsame | ⟨hnone, hhandle⟩
    · rw [hsame]
      exact h.quiet hu (leaves_of_loose hu rfl) rfl rfl
    · rw [hnone]
      refine h.goOnWith hu (.inl hlock) (leaves_of_loose hu rfl) (changes_cleared ?_)
        (admits_of_quiet rfl) nofun nofun
      intro lease hlease hbelongs
      obtain rfl := Option.some_inj.mp (hhandle.symm.trans hlease)
      have hlost := (h.admits u d _ b hu).lost handle g rfl
      -- A lease that is lost but still has its slot is being released.
      cases hstate : s.pool.stateOf handle.workerId with
      | leased session l =>
        rw [hstate] at hbelongs
        obtain rfl : l = handle.leaseId := of_decide_eq_true hbelongs
        exact (hlost session hstate).elim
      | closing l =>
        rw [hstate] at hbelongs
        obtain rfl : l = handle.leaseId := of_decide_eq_true hbelongs
        exact (h.closing _ _ hstate).1
      | idle | dead =>
        rw [hstate] at hbelongs
        cases hbelongs

theorem Sheltered.reapDecision (h : Sheltered cfg s none none)
    (hu : s.operation u = some ⟨d, .reapDecision, b⟩) (hstep : reapDecision cfg s u d = some s') :
    Sheltered cfg s' none none := by
  have hleaves : Leaves s u := leaves_of_loose hu rfl
  unfold Workspace.reapDecision at hstep
  cases hlock : (s.database d).lock with
  | some holder =>
    simp only [hlock, Option.some_inj] at hstep
    subst hstep
    exact h.quiet hu hleaves rfl rfl
  | none =>
    cases hhandle : (s.database d).handle with
    | none =>
      simp only [hlock, hhandle, Option.some_inj] at hstep
      subst hstep
      exact h.quiet hu hleaves rfl rfl
    | some lease =>
      simp only [hlock, hhandle] at hstep
      split_ifs at hstep with hgone
      · obtain ⟨pool', hstart, rfl⟩ := await_eq_some hstep
        have hdetached := (h.admits u d _ b hu).reaps rfl
        refine h.awaits hu (.inl hlock) hstart rfl (leaves_of_loose hu rfl) (changes_cleared ?_)
          (admits_started h.pool hstart ⟨rfl, fun _ => hdetached⟩ rfl) nofun
        intro lease' hlease' _
        obtain rfl := Option.some_inj.mp (hhandle.symm.trans hlease')
        exact started_covers hstart ⟨rfl, nofun⟩
      · cases hstep
        exact h.quiet hu hleaves rfl rfl

theorem leases_of_done {outcome : Outcome} {detached : Bool}
    (ht : s.pool.task t = some ⟨.done outcome, detached⟩) :
    s.pool.role Pool.Position.leases t = none :=
  Pool.State.role_eq _ ht

theorem started_of_lt (hstart : Pool.step cfg.pool s.pool (.start operation) = some pool')
    (hlt : t < s.pool.nextTask) : pool'.task t = s.pool.task t := by
  rw [start_spec hstart]
  exact task_spawn_of_lt hlt _ _

theorem Sheltered.leased {handle : PooledWorkerHandle} {g : DatabaseGeneration} {outcome : Outcome}
    {detached : Bool} (h : Sheltered cfg s (some (handle.workerId, handle.leaseId)) none)
    (hu : s.operation u = some ⟨d, .await t (.lease g), b⟩)
    (ht : s.pool.task t = some ⟨.done outcome, detached⟩) (hissued : s.pool.Issued handle)
    (hsession : handle.sessionId = d) (hstep : leased cfg s u d g handle = some s') :
    Sheltered cfg s' none none := by
  have hadmits := h.admits u d _ b hu
  have hlock := hadmits.locked rfl
  obtain ⟨hnext, hnew⟩ := hadmits.pending g rfl
  unfold Workspace.leased State.setLock at hstep
  dsimp only at hstep
  rw [State.setHandle_setDatabase] at hstep
  obtain ⟨pool', hstart, rfl⟩ := await_eq_some hstep
  change Pool.step cfg.pool s.pool _ = _ at hstart
  have ht' := (started_of_lt hstart (h.pool.fresh.lt ht)).trans ht
  refine h.awaits hu (.inr hlock) hstart rfl ?_ ⟨Nat.le_refl _, ?_, ?_, ?_⟩
    (admits_started h.pool hstart ⟨rfl, rfl⟩ rfl) ?_
  · exact leaves_of_await hu (leases_of_done ht')
  · rintro lease ⟨⟩
    exact .inr ⟨issued_step hstart hissued, Nat.le_of_eq hnext, hnew, hsession⟩
  · intro lease hlease
    exact nomatch (hadmits.vacant rfl).symm.trans hlease
  · rintro w l ⟨⟩
    exact .inr ⟨_, rfl, rfl, rfl⟩
  · rintro lease ⟨⟩
    rfl

theorem Sheltered.openCalled {handle : PooledWorkerHandle} {g : DatabaseGeneration} {fresh : Bool}
    {outcome : Outcome} (h : Sheltered cfg s none none) (hu : s.operation u = some ⟨d, p, b⟩)
    (hleaves : Leaves s u) :
    Sheltered cfg (openCalled cfg s u handle g fresh outcome) none none := by
  unfold Workspace.openCalled
  cases openError cfg outcome with
  | none => exact h.quiet hu hleaves rfl rfl
  | some error =>
    dsimp only
    split_ifs
    · exact h.quiet hu hleaves rfl rfl
    · exact h.quiet hu hleaves rfl rfl

theorem loses_of_callLoss {tool : String} {outcome : Outcome}
    (hloss : callLoss tool outcome = some false) : outcome.loses = true := by
  cases outcome with
  | reply result =>
    simp only [callLoss] at hloss
    split_ifs at hloss
    cases hloss
  | error error =>
    cases error with
    | remoteCall => cases hloss
    | _ => simpa [callLoss, Outcome.loses] using hloss
  | leased | finished => cases hloss

theorem Sheltered.called {handle : PooledWorkerHandle} {g : DatabaseGeneration} {tool : String}
    {outcome : Outcome} {detached : Bool} (h : Sheltered cfg s none none)
    (hu : s.operation u = some ⟨d, .await t (.call handle g tool), b⟩)
    (ht : s.pool.task t = some ⟨.done outcome, detached⟩) :
    Sheltered cfg (called s u handle g tool outcome) none none := by
  have hleaves := leaves_of_await hu (leases_of_done ht)
  have hnames : ∀ lease, some (⟨handle, g⟩ : PooledDatabaseLease) = some lease → s.Names d lease := by
    rintro lease ⟨⟩
    exact .inr ⟨u, _, b, hu, rfl⟩
  unfold Workspace.called
  cases hloss : callLoss tool outcome with
  | none => exact h.quiet hu hleaves rfl rfl
  | some guarded =>
    refine h.goOn hu hleaves ?_ hnames nofun
    cases guarded with
    | true => exact admits_of_quiet rfl
    | false =>
      refine ⟨nofun, nofun, nofun, nofun, ?_, nofun⟩
      rintro handle' g' ⟨⟩
      exact ((h.admits u d _ b hu).awaits t _ rfl).2 _ ht (loses_of_callLoss hloss)

theorem Sheltered.settle {outcome : Outcome} {detached : Bool} (h : Sheltered cfg s none none)
    (hu : s.operation u = some ⟨d, .await t stage, b⟩)
    (ht : s.pool.task t = some ⟨.done outcome, detached⟩)
    (hnot : ∀ g handle, stage = .lease g → outcome ≠ .leased handle)
    (hstep : settle cfg s u d stage outcome = some s') : Sheltered cfg s' none none := by
  have hleaves := leaves_of_await hu (leases_of_done ht)
  have hadmits := h.admits u d _ b hu
  cases stage with
  | retireStale =>
    cases hstep
    refine h.goOn hu hleaves ⟨nofun, fun _ => hadmits.locked rfl, fun _ => hadmits.vacant rfl, nofun, nofun,
      nofun⟩ nofun nofun
  | lease g =>
    cases outcome with
    | leased handle => exact (hnot g handle rfl rfl).elim
    | error error =>
      cases hstep
      exact h.goOnWith hu (.inr (hadmits.locked rfl)) hleaves (changes_of_handle_eq (Nat.le_refl _) rfl)
        (admits_of_quiet rfl) nofun nofun
    | reply | finished => cases hstep
  | openCall handle g fresh =>
    cases hstep
    exact h.openCalled hu hleaves
  | call handle g tool =>
    cases hstep
    exact h.called hu ht
  | finish result =>
    cases hstep
    exact h.quiet hu hleaves rfl rfl

theorem issued_of_granted {a : Pool.Action} {handle : PooledWorkerHandle}
    (hstep : Pool.step cfg.pool s.pool a = some pool') (hissued : pool'.issued = s.pool.issued ++ [handle]) :
    pool'.Issued handle := by
  rcases issued_cases (transition_of_step hstep) with hsame | ⟨t, w, session, lease, -, hnew, -⟩
  · rw [hsame] at hissued
    exact absurd (congrArg List.length hissued) (by simp)
  · obtain rfl := List.singleton_inj.mp (List.append_cancel_left (hnew.symm.trans hissued))
    change _ ∈ pool'.issued
    rw [hnew]
    exact List.mem_append_right _ List.mem_cons_self

theorem Sheltered.run {position : Pool.Position} {detached : Bool} (h : Sheltered cfg s none none)
    (hu : s.operation u = some ⟨d, .await t stage, b⟩)
    (ht : s.pool.task t = some ⟨position, detached⟩)
    (hstep : Pool.step cfg.pool s.pool (.run t choice) = some pool')
    (hnext : (match (pool'.task t).map Task.position with
      | some (.done outcome) => Workspace.settle cfg { s with pool := pool' } u d stage outcome
      | _ => some { s with pool := pool' }) = some s') : Sheltered cfg s' none none := by
  have hawaits := ((h.admits u d _ b hu).awaits t _ rfl).2 _ ht
  have hwatched : Watched s.pool (.run t choice) := nofun
  have hleases {handle : PooledWorkerHandle} (hgrants : Grants s.pool (.run t choice) pool' handle) :
      (∃ g, stage = .lease g) ∧ ∃ b, pool'.task t = some ⟨.done (.leased handle), b⟩ := by
    obtain ⟨t', choice', session, b', ha, hrole, ht'⟩ := hgrants
    cases ha
    rw [Pool.State.role_eq _ ht] at hrole
    exact ⟨(runs_leases hawaits hrole).1, b', ht'⟩
  have hplain (hnot : ∀ handle, ¬ Grants s.pool (.run t choice) pool' handle) :
      Sheltered cfg { s with pool := pool' } none none :=
    h.pool_step hstep hwatched nofun nofun fun handle hgrants => (hnot handle hgrants).elim
  cases ht' : pool'.task t with
  | none =>
    simp only [ht', Option.map_none, Option.some_inj] at hnext
    subst hnext
    refine hplain fun handle hgrants => ?_
    obtain ⟨-, b', hdone⟩ := hleases hgrants
    exact nomatch ht'.symm.trans hdone
  | some task =>
    obtain ⟨position', detached'⟩ := task
    by_cases hdone : ∃ outcome, position' = .done outcome
    · obtain ⟨outcome, rfl⟩ := hdone
      simp only [ht', Option.map_some] at hnext
      by_cases hgranted : ∃ g handle, stage = .lease g ∧ outcome = .leased handle
      · obtain ⟨g, handle, rfl, rfl⟩ := hgranted
        have hpool : Sheltered cfg { s with pool := pool' } (some (handle.workerId, handle.leaseId)) none := by
          refine h.pool_step hstep hwatched nofun nofun ?_
          intro handle' hgrants
          obtain ⟨-, b', hdone⟩ := hleases hgrants
          cases ht'.symm.trans hdone
          rfl
        obtain ⟨p', hp', -, hgrant⟩ :=
          acquires_next h.pool.fresh hawaits.1 ht (next_of_step hstep ht)
        cases ht'.symm.trans hp'
        obtain ⟨hissued, hsession⟩ := hgrant handle rfl
        refine hpool.leased hu ht' ?_ hsession hnext
        exact issued_of_granted hstep hissued
      · have hpool : Sheltered cfg { s with pool := pool' } none none := by
          refine hplain fun handle hgrants => ?_
          obtain ⟨⟨g, hg⟩, b', hdone⟩ := hleases hgrants
          cases ht'.symm.trans hdone
          exact hgranted ⟨g, handle, hg, rfl⟩
        refine hpool.settle hu ht' ?_ hnext
        rintro g handle rfl rfl
        exact hgranted ⟨g, handle, rfl, rfl⟩
    · have hsame : s' = { s with pool := pool' } := by
        simp only [ht', Option.map_some] at hnext
        cases position' with
        | done outcome => exact (hdone ⟨outcome, rfl⟩).elim
        | _ => exact (Option.some_inj.mp hnext).symm
      rw [hsame]
      refine hplain fun handle hgrants => ?_
      obtain ⟨-, b', hends⟩ := hleases hgrants
      cases ht'.symm.trans hends
      exact hdone ⟨_, rfl⟩

theorem Sheltered.poll (h : Sheltered cfg s none none)
    (hu : s.operation u = some ⟨d, .await t stage, b⟩)
    (hstep : poll cfg s u d t stage choice = some s') : Sheltered cfg s' none none := by
  have hadmits := h.admits u d _ b hu
  unfold Workspace.poll at hstep
  cases ht : s.pool.task t with
  | none =>
    simp only [ht] at hstep
    cases hstep
  | some task =>
    obtain ⟨position, detached⟩ := task
    have hawaits := (hadmits.awaits t _ rfl).2 _ ht
    cases detached with
    | false =>
      have hrun {choice : Choice} (hstep : ((Pool.step cfg.pool s.pool (.run t choice)).bind fun pool =>
          match (pool.task t).map Task.position with
          | some (.done outcome) => Workspace.settle cfg { s with pool } u d stage outcome
          | _ => some { s with pool }) = some s') : Sheltered cfg s' none none := by
        obtain ⟨pool', hpool, hnext⟩ := Option.bind_eq_some_iff.mp hstep
        exact h.run hu ht hpool hnext
      by_cases htimedOut : ∃ g secs, stage = .lease g ∧ choice = .timedOut secs
      · obtain ⟨g, secs, rfl, rfl⟩ := htimedOut
        simp only [ht] at hstep
        obtain ⟨pool', hdrop, rfl⟩ := Option.map_eq_some_iff.mp hstep
        have hwatched : Watched s.pool (.drop t) := by
          rintro t' w lease replenish outcome b' l ⟨⟩ ht'
          cases ht.symm.trans ht'
          cases hawaits.1
        have hpool : Sheltered cfg { s with pool := pool' } none none :=
          h.pool_step hdrop hwatched nofun nofun (by rintro handle ⟨t', choice', session, b', ⟨⟩, -⟩)
        refine hpool.goOnWith hu (.inr (hadmits.locked rfl)) ?_ (changes_of_handle_eq (Nat.le_refl _) rfl)
          (admits_of_quiet rfl) nofun nofun
        have hgone : pool'.role Pool.Position.leases t = none := by
          rw [Pool.State.role, task_of_drop h.pool.fresh ht hdrop]
          rfl
        exact leaves_of_await hu hgone
      · cases stage with
        | lease g =>
          cases choice with
          | timedOut secs => exact (htimedOut ⟨g, secs, rfl, rfl⟩).elim
          | _ =>
            simp only [ht] at hstep
            exact hrun hstep
        | _ =>
          simp only [ht] at hstep
          exact hrun hstep
    | true =>
      cases position with
      | done outcome =>
        have hnot : ∀ g handle, stage = .lease g → outcome ≠ .leased handle := by
          rintro g handle rfl
          cases hawaits.2
        cases choice with
        | proceed =>
          simp only [ht] at hstep
          exact h.settle hu ht hnot hstep
        | _ =>
          simp only [ht] at hstep
          cases hstep
      | _ =>
        simp only [ht] at hstep
        cases hstep

theorem Sheltered.next (h : Sheltered cfg s none none) (hu : s.operation u = some ⟨d, p, b⟩)
    (hstep : next cfg s u d p choice = some s') : Sheltered cfg s' none none := by
  cases p with
  | leaseForOpen => exact h.leaseForOpen hu hstep
  | settleStale => exact h.settleStale hu hstep
  | acquire => exact h.acquire hu hstep
  | closeIfGeneration generation freshLease error => exact h.release hu rfl hstep
  | requiredHandle expected tool => exact h.requiredHandle hu rfl hstep
  | clearHandle handle generation guarded => exact h.clearHandle hu hstep
  | takeHandle expected => exact h.release hu rfl hstep
  | reapDecision => exact h.reapDecision hu hstep
  | await t stage => exact h.poll hu hstep
  | done result => cases hstep

/-- An open is dropped that has taken its stale handle, while the retirement that it awaits has yet to
take the slot. -/
def Strands (s : State) : Action → Bool
  | .drop u =>
    match (s.operation u).map Operation.position with
    | some (.await t .retireStale) =>
      match (s.pool.task t).map Task.position with
      | some (.takeDead w lease _ (.stop _)) =>
        lease.all (s.pool.stateOf w).belongsToLease && s.pool.stateOf w ≠ .idle && s.pool.isLive w
      | _ => false
    | _ => false
  | _ => false

theorem watched_of_not_strands (h : Sheltered cfg s none none)
    (hu : s.operation u = some ⟨d, .await t stage, false⟩) (hok : Strands s (.drop u) = false) :
    Watched s.pool (.drop t) := by
  rintro t' w lease replenish outcome b l ⟨⟩ ht hlease
  have hruns := ((h.admits u d _ false hu).awaits t _ rfl).2 _ ht
  cases stage with
  | lease => cases hruns.1
  | openCall => cases hruns.2
  | call => exact hruns.elim
  | finish => exact absurd (hruns.2 rfl) Bool.false_ne_true
  | retireStale =>
    rw [← Bool.not_eq_true]
    intro hbelongs
    have hall : lease.all (s.pool.stateOf w).belongsToLease = true := by
      cases lease with
      | none => rfl
      | some l' =>
        rw [hlease l' rfl]
        exact hbelongs
    have hstate : s.pool.stateOf w ≠ .idle ∧ s.pool.isLive w = true := by
      unfold Pool.State.isLive
      cases hstate : s.pool.stateOf w with
      | leased | closing => exact ⟨nofun, rfl⟩
      | idle | dead =>
        rw [hstate] at hbelongs
        cases hbelongs
    simp [Strands, hu, ht, hall, hstate.1, hstate.2] at hok

theorem Sheltered.unlock (h : Sheltered cfg s none none) (hleaves : Leaves s u) (d : DatabaseId) :
    Sheltered cfg ((if (s.database d).lock = some u then s.setLock d none else s).setOperation u none)
      none none := by
  split_ifs with hlock
  · exact h.leave (.inr hlock) hleaves (changes_of_handle_eq (Nat.le_refl _) rfl)
  · exact h.vacate hleaves.leasing hleaves.guard

theorem Sheltered.dropOperation {operation : Operation} (h : Sheltered cfg s none none)
    (hu : s.operation u = some operation) (hdetached : operation.detached = false)
    (hok : Strands s (.drop u) = false) (hstep : dropOperation cfg s u operation = some s') :
    Sheltered cfg s' none none := by
  obtain ⟨d, p, b⟩ := operation
  obtain rfl : b = false := hdetached
  unfold Workspace.dropOperation at hstep
  dsimp only at hstep
  have hpool : (((if (s.database d).lock = some u then s.setLock d none else s).setOperation u
      none).pool : Pool.State) = s.pool := by
    split_ifs <;> rfl
  rw [hpool] at hstep
  have hswap (pool' : Pool.State) :
      { (if (s.database d).lock = some u then s.setLock d none else s).setOperation u none with
        pool := pool' } =
      (if (s.database d).lock = some u then { s with pool := pool' }.setLock d none
        else { s with pool := pool' }).setOperation u none := by
    split_ifs <;> rfl
  cases p with
  | done result => cases hstep
  | await t stage =>
    dsimp only at hstep
    cases ht : s.pool.task t with
    | none =>
      simp only [ht, Option.some_inj] at hstep
      subst hstep
      exact h.unlock (leaves_of_await hu (by simp [Pool.State.role, ht])) d
    | some task =>
      obtain ⟨position, detached⟩ := task
      cases detached with
      | true =>
        simp only [ht, Option.some_inj] at hstep
        subst hstep
        refine h.unlock ⟨?_, ?_⟩ d
        · intro d' t' g b' session hop _
          cases hu.symm.trans hop
          cases (((h.admits u d _ false hu).awaits t _ rfl).2 _ ht).2
        · intro d' handle g b' hop
          cases hu.symm.trans hop
      | false =>
        simp only [ht] at hstep
        obtain ⟨pool', hdrop, rfl⟩ := Option.map_eq_some_iff.mp hstep
        have hdropped : Sheltered cfg { s with pool := pool' } none none :=
          h.pool_step hdrop (watched_of_not_strands h hu hok)
            (by intros; contradiction) (by intros; contradiction)
            (by rintro handle ⟨t', choice', session, b', ⟨⟩, -⟩)
        have hgone : pool'.role Pool.Position.leases t = none := by
          rw [Pool.State.role, task_of_drop h.pool.fresh ht hdrop]
          rfl
        rw [hswap]
        exact hdropped.unlock (leaves_of_await hu hgone) d
  | clearHandle handle g guarded =>
    cases guarded with
    | false =>
      cases hstep
      exact h.unlock (leaves_of_loose hu rfl) d
    | true =>
      obtain ⟨pool', hstart, rfl⟩ := Option.map_eq_some_iff.mp hstep
      have hstarted : Sheltered cfg { s with pool := pool' } none none := h.start hstart
      rw [hswap]
      refine hstarted.unlock ⟨?_, ?_⟩ d
      · intro d' t' g' b' session hop
        cases hu.symm.trans hop
      · intro d' handle' g' b' hop _
        cases hu.symm.trans hop
        exact started_covers hstart ⟨rfl, fun l' hl' => (Option.some_inj.mp hl').symm⟩
  | _ =>
    cases hstep
    exact h.unlock (leaves_of_loose hu rfl) d

theorem owned_of_awaits (h : Sheltered cfg s none none) (hu : s.operation u = some ⟨d, .await t stage, b⟩) :
    s.owned t = true := by
  rw [State.owned, List.any_eq_true]
  exact ⟨u, List.mem_range.mpr (lt_of_operation h hu), by simp [hu]⟩

theorem Sheltered.poolStep {a : Pool.Action} (h : Sheltered cfg s none none)
    (hstep : poolStep cfg s a = some s') : Sheltered cfg s' none none := by
  unfold Workspace.poolStep at hstep
  dsimp only at hstep
  rw [Option.ite_none_right_eq_some] at hstep
  obtain ⟨hallowed, hstep⟩ := hstep
  obtain ⟨pool', hpool, rfl⟩ := Option.map_eq_some_iff.mp hstep
  refine h.pool_step hpool ?_ nofun ?_ ?_
  · rintro t w lease replenish outcome b l rfl
    cases hallowed
  · rintro session rfl
    cases hallowed
  · rintro handle ⟨t, choice, session, b, rfl, hrole, ht'⟩
    rcases h.leasing t session hrole with hnone | ⟨u, g, b', hu⟩
    · cases hnone
    · obtain ⟨⟨position, detached⟩, ht, -⟩ := Pool.State.role_eq_some hrole
      have hawaits := ((h.admits u session _ b' hu).awaits t _ rfl).2 _ ht
      obtain rfl : detached = false := hawaits.2
      simp [ht, owned_of_awaits h hu] at hallowed

theorem Sheltered.begin (h : Sheltered cfg s none none) (d : DatabaseId) (request : Request) :
    Sheltered cfg { s.setOperation s.nextOperation (some ⟨d, request.position, request.detached⟩) with
      nextOperation := s.nextOperation + 1 } none none := by
  have hcounted : Sheltered cfg { s with nextOperation := s.nextOperation + 1 } none none :=
    { h with
      fresh := fun u hu => h.fresh u (Nat.le_of_succ_le hu)
      admits := fun u d p b hu => { h.admits u d p b hu with } }
  have hadmits : State.Admits { s with nextOperation := s.nextOperation + 1 } s.nextOperation d
      request.position request.detached := by
    cases request with
    | reap => exact ⟨nofun, nofun, nofun, nofun, nofun, fun _ => rfl⟩
    | _ => exact admits_of_quiet rfl
  refine hcounted.occupy (Nat.lt_succ_self _) (h.fresh _ (Nat.le_refl _)) hadmits ?_ nofun
  intro lease hlease
  cases request <;> cases hlease

theorem Sheltered.step {a : Action} (h : Sheltered cfg s none none) (hok : Strands s a = false)
    (hstep : Workspace.step cfg s a = some s') : Sheltered cfg s' none none := by
  cases a with
  | start d request =>
    cases hstep
    exact h.begin d request
  | run u choice =>
    cases hu : s.operation u with
    | none => simp [Workspace.step, hu] at hstep
    | some operation =>
      simp only [Workspace.step, hu] at hstep
      exact h.next hu hstep
  | drop u =>
    cases hu : s.operation u with
    | none => simp [Workspace.step, hu] at hstep
    | some operation =>
      simp only [Workspace.step, hu] at hstep
      cases hdetached : operation.detached with
      | true => simp [hdetached] at hstep
      | false =>
        rw [hdetached, if_neg Bool.false_ne_true] at hstep
        exact h.dropOperation hu hdetached hok hstep
  | pool a => exact h.poolStep hstep

theorem stateOf_warmed (cfg : WorkerPoolConfig) (w : WorkerId) :
    (warmed cfg).stateOf w = .idle ∨ (warmed cfg).stateOf w = .dead := by
  by_cases hw : w < minReplenished cfg
  · exact .inl (if_pos hw)
  · exact .inr (if_neg hw)

theorem sheltered_initial (sharedHttp : DatabaseId → Bool) :
    Sheltered cfg (initial cfg sharedHttp) none none where
  pool := regular_warmed
  fresh _ _ := rfl
  admits := nofun
  issued := by
    rintro d lease (hnone | ⟨u, p, b, hop, -⟩)
    · cases hnone
    · cases hop
  one := by
    rintro d lease lease' (hnone | ⟨u, p, b, hop, -⟩)
    · cases hnone
    · cases hop
  session := nofun
  unique := by
    rintro d d' w w' l ⟨lease, hlease, -⟩
    cases hlease
  leasing := by
    intro t session ht
    cases ht
  sheltered := by
    intro w l hbelongs
    rcases stateOf_warmed cfg.pool w with hstate | hstate <;>
      exact nomatch (congrArg (ChildState.belongsToLease · l) hstate).symm.trans hbelongs
  closing := by
    intro w l hclosing
    rcases stateOf_warmed cfg.pool w with hstate | hstate <;>
      exact nomatch hstate.symm.trans hclosing

end IdaMcp.Workspace
