import IdaMcp.Pool.Transition

namespace IdaMcp.Pool

variable {cfg : WorkerPoolConfig} {s s' : State} {t : TaskId} {d : Bool} {p p' : Position} {α : Type*}

namespace State

def role (s : State) (f : Position → Option α) (t : TaskId) : Option α :=
  (s.task t).bind fun task => f task.position

def Fresh (s : State) : Prop := ∀ t, s.nextTask ≤ t → s.task t = none

theorem role_eq (f : Position → Option α) (ht : s.task t = some ⟨p, d⟩) : s.role f t = f p := by
  simp [role, ht]

theorem role_eq_some {f : Position → Option α} {x : α} (h : s.role f t = some x) :
    ∃ task, s.task t = some task ∧ f task.position = some x := by
  exact Option.bind_eq_some_iff.mp h

theorem task_goto (ht : s.task t = some ⟨p, d⟩) (p' : Position) :
    (s.goto t p').task = Function.update s.task t (some ⟨p', d⟩) := by
  simp [goto, setTask, ht]

theorem role_goto (f : Position → Option α) (ht : s.task t = some ⟨p, d⟩) (p' : Position) :
    (s.goto t p').role f = Function.update (s.role f) t (f p') := by
  funext t'
  unfold role
  rw [task_goto ht]
  by_cases htt : t' = t
  · subst htt
    simp
  · simp [Function.update_of_ne htt]

theorem role_goto_of_eq {f : Position → Option α} (ht : s.task t = some ⟨p, d⟩) (hf : f p' = f p) :
    (s.goto t p').role f = s.role f := by
  rw [role_goto f ht, hf, ← role_eq f ht, Function.update_eq_self]

theorem role_setTask_none (f : Position → Option α) (t : TaskId) :
    (s.setTask t none).role f = Function.update (s.role f) t none := by
  funext t'
  unfold role setTask
  by_cases htt : t' = t
  · subst htt
    simp
  · simp [Function.update_of_ne htt]

theorem role_spawn (f : Position → Option α) (p : Position) (d : Bool) :
    (s.spawn p d).role f = Function.update (s.role f) s.nextTask (f p) := by
  funext t'
  unfold role spawn setTask
  by_cases htt : t' = s.nextTask
  · subst htt
    simp
  · simp [Function.update_of_ne htt]

theorem Fresh.role_nextTask (h : s.Fresh) (f : Position → Option α) : s.role f s.nextTask = none := by
  simp [role, h s.nextTask (Nat.le_refl _)]

theorem Fresh.role_spawn_of_none (h : s.Fresh) {f : Position → Option α} (hf : f p = none) :
    (s.spawn p d).role f = s.role f := by
  rw [role_spawn, hf, ← h.role_nextTask f, Function.update_eq_self]

theorem Fresh.lt (h : s.Fresh) {task : Task} (ht : s.task t = some task) : t < s.nextTask := by
  by_contra hle
  rw [h t (Nat.le_of_not_lt hle)] at ht
  cases ht

theorem Fresh.goto (h : s.Fresh) (t : TaskId) (p : Position) : (s.goto t p).Fresh := by
  intro t' ht'
  have hnone := h t' ht'
  by_cases htt : t' = t
  · subst htt
    simp [State.goto, setTask, hnone]
  · simpa [State.goto, setTask, Function.update_of_ne htt] using hnone

theorem Fresh.setTask_none (h : s.Fresh) (t : TaskId) : (s.setTask t none).Fresh := by
  intro t' ht'
  by_cases htt : t' = t
  · subst htt
    simp [setTask]
  · simpa [setTask, Function.update_of_ne htt] using h t' ht'

theorem Fresh.spawn (h : s.Fresh) (p : Position) (d : Bool) : (s.spawn p d).Fresh := by
  intro t' ht'
  have hle : s.nextTask + 1 ≤ t' := ht'
  have hne : t' ≠ s.nextTask := Nat.ne_of_gt (Nat.lt_of_succ_le hle)
  simpa [State.spawn, setTask, Function.update_of_ne hne] using h t' (Nat.le_of_succ_le hle)

end State

open State

theorem resume_cases (s : State) (t : TaskId) (k : Continuation) :
    resume s t k = s.goto t k.position ∨
      ∃ w, k.callLock = some w ∧ resume s t k = (s.setCallLock w none).goto t k.position := by
  cases k with
  | stop | guarded | unreserve => exact .inl rfl
  | settleCall | settleRelease => exact .inr ⟨_, rfl, rfl⟩

theorem fresh_resume (h : s.Fresh) (k : Continuation) : (resume s t k).Fresh := by
  rcases resume_cases s t k with hk | ⟨w, -, hk⟩
  · rw [hk]
    exact h.goto t _
  · rw [hk]
    exact Fresh.goto (s := s.setCallLock w none) h t _

theorem fresh_replenishTimes (n : ℕ) (h : s.Fresh) : (replenishTimes n s).Fresh := by
  induction n generalizing s with
  | zero => exact h
  | succ n ih => exact ih (Fresh.spawn (s := s.reserve) h _ _)

theorem fresh_replenish (h : s.Fresh) : (replenish cfg s).Fresh := by
  unfold replenish
  split_ifs
  · exact h
  · exact fresh_replenishTimes _ h

theorem fresh_killSlots (slots : List WorkerId) (h : s.Fresh) : (killSlots s slots).Fresh := by
  induction slots generalizing s with
  | nil => exact h
  | cons w slots ih => exact ih (h.spawn _ _)

theorem task_replenishTimes (n : ℕ) (hfresh : s.Fresh) (ht : s.task t = some ⟨p, d⟩) :
    (replenishTimes n s).task t = some ⟨p, d⟩ := by
  induction n generalizing s with
  | zero => exact ht
  | succ n ih =>
    refine ih (Fresh.spawn (s := s.reserve) hfresh _ _) ?_
    have hne : t ≠ s.nextTask := Nat.ne_of_lt (hfresh.lt ht)
    simpa [State.spawn, setTask, State.reserve, Function.update_of_ne hne] using ht

theorem task_replenish (cfg : WorkerPoolConfig) (hfresh : s.Fresh) (ht : s.task t = some ⟨p, d⟩) :
    (replenish cfg s).task t = some ⟨p, d⟩ := by
  unfold replenish
  split_ifs
  · exact ht
  · exact task_replenishTimes _ hfresh ht

theorem task_killSlots (slots : List WorkerId) (hfresh : s.Fresh) (ht : s.task t = some ⟨p, d⟩) :
    (killSlots s slots).task t = some ⟨p, d⟩ := by
  induction slots generalizing s with
  | nil => exact ht
  | cons w slots ih =>
    refine ih (hfresh.spawn _ _) ?_
    have hne : t ≠ s.nextTask := Nat.ne_of_lt (hfresh.lt ht)
    simpa [State.spawn, setTask, Function.update_of_ne hne] using ht

theorem afterClosePosition_cases (h : PooledWorkerHandle) (error : Option ToolError) :
    (∃ e, error = some e ∧ releaseErrorRetiresWorker e = true ∧ afterClosePosition h error =
        .takeDead h.workerId (some h.leaseId) true (.settleRelease h (.error (closeFailure e)))) ∨
      (∀ e, error = some e → releaseErrorRetiresWorker e = false) ∧
        afterClosePosition h error = .releaseReset h error := by
  cases error with
  | none => exact .inr ⟨nofun, rfl⟩
  | some e =>
    simp only [afterClosePosition]
    split_ifs with he
    · exact .inl ⟨e, rfl, he, rfl⟩
    · right
      simpa using he

theorem dropTask_eq_some {cleanup : Position} (hdrop : p.dropTask = some cleanup) :
    (∃ w, p.retireGuard = none ∧ (cleanup = .unreserve w .finished ∨
        cleanup = .takeDead w none false (.unreserve w .finished))) ∨
      ∃ h, p.retireGuard = some h ∧
        cleanup = .takeDead h.workerId (some h.leaseId) true (.stop .finished) := by
  cases p with
  | spawnSlot _ w | unreserve w =>
    cases hdrop
    exact .inl ⟨w, rfl, .inl rfl⟩
  | finishSpawn _ w =>
    cases hdrop
    exact .inl ⟨w, rfl, .inr rfl⟩
  | takeDead _ _ _ k | forgetSlot _ _ k | scheduleReplenishment k =>
    cases k with
    | unreserve w =>
      cases hdrop
      exact .inl ⟨w, rfl, .inr rfl⟩
    | stop => cases hdrop
    | guarded h | settleCall h | settleRelease h =>
      cases hdrop
      exact .inr ⟨h, rfl, rfl⟩
  | releaseLock h | releaseSend h | releaseAwait h | releaseReset h | callAwait h | callSettle h =>
    cases hdrop
    exact .inr ⟨h, rfl, rfl⟩
  | _ => cases hdrop

theorem dropTask_cases (s : State) (t : TaskId) (p : Position) :
    ∃ r, (r = s ∨ r = s.setPoolLock none ∧ p.holdsPool = true ∨
        ∃ w, p.holdsCall = some w ∧ r = s.setCallLock w none) ∧
      (dropTask s t p = r.setTask t none ∧ p.dropTask = none ∨
        ∃ cleanup, p.dropTask = some cleanup ∧ dropTask s t p = (r.setTask t none).spawn cleanup true) := by
  have hlocks : p.holdsPool = true → p.holdsCall = none := by
    cases p <;> simp [Position.holdsPool, Position.holdsCall]
  refine ⟨p.holdsCall.elim (if p.holdsPool then s.setPoolLock none else s)
    (fun w => (if p.holdsPool then s.setPoolLock none else s).setCallLock w none), ?_, ?_⟩
  · cases hpool : p.holdsPool with
    | true =>
      rw [hlocks hpool]
      exact .inr (.inl ⟨rfl, rfl⟩)
    | false =>
      cases hcall : p.holdsCall with
      | none => exact .inl rfl
      | some w => exact .inr (.inr ⟨w, rfl, rfl⟩)
  · cases hdrop : p.dropTask with
    | none =>
      left
      simp [dropTask, hdrop]
    | some cleanup =>
      right
      refine ⟨cleanup, rfl, ?_⟩
      simp [dropTask, hdrop]

theorem fresh_dropTask (h : s.Fresh) : (dropTask s t p).Fresh := by
  obtain ⟨r, hr, hdrop⟩ := dropTask_cases s t p
  have hfresh : r.Fresh := by
    rcases hr with rfl | ⟨rfl, -⟩ | ⟨w, -, rfl⟩ <;> exact h
  rcases hdrop with ⟨hdrop, -⟩ | ⟨cleanup, -, hdrop⟩ <;> rw [hdrop]
  · exact hfresh.setTask_none t
  · exact (hfresh.setTask_none t).spawn _ _

theorem deliver_cases (s : State) (t : TaskId) (answer : Answer) :
    deliver s t answer = s ∨
      (∃ h d, s.task t = some ⟨.releaseAwait h none, d⟩ ∧
        deliver s t answer = s.goto t (.releaseAwait h (some answer))) ∨
      ∃ h tool tracksOpen d, s.task t = some ⟨.callAwait h tool tracksOpen none, d⟩ ∧
        deliver s t answer = s.goto t (.callAwait h tool tracksOpen (some answer)) := by
  cases ht : s.task t with
  | none => exact .inl (by simp [deliver, ht])
  | some task =>
    obtain ⟨p, d⟩ := task
    unfold deliver
    rw [ht, Option.map_some]
    split
    case h_1 h heq =>
      cases heq
      exact .inr (.inl ⟨h, d, rfl, rfl⟩)
    case h_2 h tool tracksOpen heq =>
      cases heq
      exact .inr (.inr ⟨h, tool, tracksOpen, d, rfl, rfl⟩)
    case h_3 => exact .inl rfl

theorem fresh_deliver (h : s.Fresh) (t : TaskId) (answer : Answer) : (deliver s t answer).Fresh := by
  rcases deliver_cases s t answer with hd | ⟨_, _, -, hd⟩ | ⟨_, _, _, _, -, hd⟩ <;> rw [hd]
  · exact h
  · exact h.goto t _
  · exact h.goto t _

theorem fresh_warmed : (warmed cfg).Fresh := fun _ _ => rfl

theorem fresh_transition {a : Action} (h : s.Fresh) (hstep : Transition cfg s a s') : s'.Fresh := by
  cases hstep with
  | started => exact h.spawn _ _
  | moved => exact h.goto _ _
  | leaseGone => exact fresh_resume h _
  | forgot => exact fresh_resume (s := s.forget _) h _
  | replenished => exact fresh_resume (fresh_replenish h) _
  | reapScheduled => exact (h.goto _ _).spawn _ _
  | slotsKilled => exact (fresh_killSlots _ h).goto _ _
  | dropped => exact fresh_dropTask h
  | answered => exact fresh_deliver (s := s.setSlot _ _) h _ _
  | transportClosed | ticked => exact h
  | _ => exact Fresh.goto (s := _) h _ _

end IdaMcp.Pool
