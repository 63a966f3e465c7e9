import IdaMcp.Workspace.Shelter

namespace IdaMcp.Workspace

open Foundation Remote Pool

variable {cfg : Config} {s s' : State} {u u' : OperationId} {d : DatabaseId} {p : Position}
  {t : TaskId} {stage : Stage} {operation : Pool.Operation}
  {choice : Choice}

theorem operation_goto_of_ne (h : u' ≠ u) (p : Position) : (s.goto u p).operation u' = s.operation u' :=
  (State.operation_setOperation s u u' _).trans (if_neg h)

theorem operation_await_of_ne (h : u' ≠ u) (hstep : await cfg s u operation stage = some s') :
    s'.operation u' = s.operation u' := by
  obtain ⟨pool', -, rfl⟩ := await_eq_some hstep
  exact operation_goto_of_ne (s := { s with pool := pool' }) h _

theorem operation_leaseForOpen_of_ne (h : u' ≠ u) (hstep : leaseForOpen cfg s u d = some s') :
    s'.operation u' = s.operation u' := by
  unfold leaseForOpen at hstep
  split_ifs at hstep
  split at hstep
  · split_ifs at hstep
    · exact (operation_await_of_ne h hstep).trans rfl
    · cases hstep
      exact operation_goto_of_ne (s := s.setLock d (some u)) h _
  · cases hstep
    exact operation_goto_of_ne (s := s.setLock d (some u)) h _

theorem operation_settleStale_of_ne (h : u' ≠ u) (hstep : settleStale cfg s u d = some s') :
    s'.operation u' = s.operation u' := by
  unfold settleStale at hstep
  split at hstep
  · split_ifs at hstep
    exact (operation_await_of_ne h hstep).trans rfl
  · cases hstep
    exact operation_goto_of_ne (s := s.setLock d none) h _

theorem operation_acquire_of_ne (h : u' ≠ u) (hstep : acquire cfg s u d choice = some s') :
    s'.operation u' = s.operation u' := by
  unfold acquire at hstep
  dsimp only at hstep
  split at hstep
  · exact (operation_await_of_ne h hstep).trans rfl
  · cases hstep
    exact operation_goto_of_ne (s := (s.setDatabase d _).setLock d none) h _
  · cases hstep

theorem operation_release_of_ne {expected : Option DatabaseGeneration} {result : Result} (h : u' ≠ u)
    (hstep : release cfg s u d expected result = some s') : s'.operation u' = s.operation u' := by
  unfold release at hstep
  split_ifs at hstep
  split at hstep
  · split_ifs at hstep
    · exact (operation_await_of_ne h hstep).trans rfl
    · cases hstep
      exact operation_goto_of_ne h _
  · cases hstep
    exact operation_goto_of_ne h _

theorem operation_requiredHandle_of_ne {expected : Option DatabaseGeneration} {tool : String}
    (h : u' ≠ u) (hstep : requiredHandle cfg s u d expected tool = some s') :
    s'.operation u' = s.operation u' := by
  unfold requiredHandle at hstep
  split_ifs at hstep
  split at hstep
  · split_ifs at hstep
    · exact (operation_await_of_ne h hstep).trans rfl
    · cases hstep
      exact operation_goto_of_ne h _
  · cases hstep
    exact operation_goto_of_ne h _

theorem operation_clearHandle_of_ne {handle : PooledWorkerHandle} {g : DatabaseGeneration}
    {guarded : Bool} (h : u' ≠ u) (hstep : clearHandle cfg s u d handle g guarded = some s') :
    s'.operation u' = s.operation u' := by
  have hsame : (clearHandleIfLease s d handle.workerId g).operation = s.operation := by
    unfold clearHandleIfLease
    split_ifs <;> rfl
  unfold clearHandle at hstep
  split_ifs at hstep
  · rw [operation_await_of_ne h hstep, hsame]
  · cases hstep
    rw [operation_goto_of_ne h, hsame]

theorem operation_reapDecision_of_ne (h : u' ≠ u) (hstep : reapDecision cfg s u d = some s') :
    s'.operation u' = s.operation u' := by
  unfold reapDecision at hstep
  split at hstep
  · split_ifs at hstep
    · exact (operation_await_of_ne h hstep).trans rfl
    · cases hstep
      exact operation_goto_of_ne h _
  · cases hstep
    exact operation_goto_of_ne h _

theorem operation_settle_of_ne {outcome : Outcome} (h : u' ≠ u)
    (hstep : settle cfg s u d stage outcome = some s') : s'.operation u' = s.operation u' := by
  cases stage with
  | retireStale | finish =>
    cases hstep
    exact operation_goto_of_ne h _
  | lease g =>
    cases outcome with
    | leased handle => exact (operation_await_of_ne h hstep).trans rfl
    | error error =>
      cases hstep
      exact operation_goto_of_ne (s := s.setLock d none) h _
    | reply | finished => cases hstep
  | openCall handle g fresh =>
    cases hstep
    unfold openCalled
    split
    · exact operation_goto_of_ne h _
    · split_ifs
      · exact operation_goto_of_ne h _
      · exact operation_goto_of_ne h _
  | call handle g tool =>
    cases hstep
    unfold called
    split
    · exact operation_goto_of_ne h _
    · exact operation_goto_of_ne h _

theorem operation_poll_of_ne (h : u' ≠ u) (hstep : poll cfg s u d t stage choice = some s') :
    s'.operation u' = s.operation u' := by
  unfold poll at hstep
  split at hstep
  · obtain ⟨pool', -, rfl⟩ := Option.map_eq_some_iff.mp hstep
    exact operation_goto_of_ne (s := { s with pool := pool' }.setLock d none) h _
  · obtain ⟨pool', -, hnext⟩ := Option.bind_eq_some_iff.mp hstep
    split at hnext
    · exact operation_settle_of_ne (s := { s with pool := pool' }) h hnext
    · cases hnext
      rfl
  · exact operation_settle_of_ne h hstep
  · cases hstep

theorem operation_next_of_ne (h : u' ≠ u) (hstep : next cfg s u d p choice = some s') :
    s'.operation u' = s.operation u' := by
  cases p with
  | leaseForOpen => exact operation_leaseForOpen_of_ne h hstep
  | settleStale => exact operation_settleStale_of_ne h hstep
  | acquire => exact operation_acquire_of_ne h hstep
  | closeIfGeneration | takeHandle => exact operation_release_of_ne h hstep
  | requiredHandle => exact operation_requiredHandle_of_ne h hstep
  | clearHandle => exact operation_clearHandle_of_ne h hstep
  | reapDecision => exact operation_reapDecision_of_ne h hstep
  | await => exact operation_poll_of_ne h hstep
  | done => cases hstep

theorem operation_drop_of_ne {dropped : Operation} (h : u' ≠ u)
    (hstep : dropOperation cfg s u dropped = some s') : s'.operation u' = s.operation u' := by
  have hkept : ((if (s.database dropped.database).lock = some u then s.setLock dropped.database none
      else s).setOperation u none).operation u' = s.operation u' := by
    rw [State.operation_setOperation, if_neg h]
    split_ifs <;> rfl
  unfold dropOperation at hstep
  dsimp only at hstep
  split at hstep
  · split at hstep
    · obtain ⟨pool', -, rfl⟩ := Option.map_eq_some_iff.mp hstep
      exact hkept
    · cases hstep
      exact hkept
  · obtain ⟨pool', -, rfl⟩ := Option.map_eq_some_iff.mp hstep
    exact hkept
  · cases hstep
  · cases hstep
    exact hkept

theorem done_step {a : Action} {b : Bool} {result : Result}
    (hu : s.operation u = some ⟨d, .done result, b⟩) (hlt : u < s.nextOperation)
    (hstep : step cfg s a = some s') : s'.operation u = some ⟨d, .done result, b⟩ := by
  rw [← hu]
  cases a with
  | start d' request =>
    cases hstep
    exact (State.operation_setOperation s _ u _).trans (if_neg (Nat.ne_of_lt hlt))
  | run u' choice =>
    by_cases hne : u = u'
    · subst hne
      simp only [step, hu] at hstep
      cases hstep
    · cases hu' : s.operation u' with
      | none => simp [step, hu'] at hstep
      | some operation =>
        simp only [step, hu'] at hstep
        exact operation_next_of_ne hne hstep
  | drop u' =>
    by_cases hne : u = u'
    · subst hne
      simp only [step, hu] at hstep
      split_ifs at hstep
      cases hstep
    · cases hu' : s.operation u' with
      | none => simp [step, hu'] at hstep
      | some operation =>
        simp only [step, hu'] at hstep
        split_ifs at hstep
        exact operation_drop_of_ne hne hstep
  | pool a =>
    simp only [step, poolStep] at hstep
    split_ifs at hstep
    obtain ⟨pool', -, rfl⟩ := Option.map_eq_some_iff.mp hstep
    rfl

end IdaMcp.Workspace
