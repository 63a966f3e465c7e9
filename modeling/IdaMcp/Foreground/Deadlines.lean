import IdaMcp.Foreground.Pooled

namespace IdaMcp.Foreground

/-! Times are in milliseconds, from the start of the foreground operation. -/

def secs (seconds : ℕ) : ℕ := seconds * 1000

def maxTimeoutSecs : ℕ := 600

def childTimeoutGraceSecs : ℕ := 10

def foregroundSupervisorMarginSecs : ℕ := 3

def foregroundMaxSecs : ℕ := maxTimeoutSecs + childTimeoutGraceSecs + foregroundSupervisorMarginSecs

def foregroundCancelCleanupTimeoutSecs : ℕ := 6

structure Limits where
  workerOpTimeout : ℕ
  /-- The worker is shared over HTTP. -/
  preserveOnCancel : Bool

structure Answer where
  delay : ℕ
  settle : ℕ
  result : Except ToolError ℕ

structure Timing where
  /-- `lease_for_open`, with whether the lease is fresh. -/
  lease : ℕ
  leased : Except ToolError Bool
  queueFull : Bool
  /-- The lock of the pool, which only a shared call waits for. -/
  poolLock : ℕ
  poolOpen : Except ToolError Unit
  queue : ℕ
  admission : Except ToolError Unit
  answer : Option Answer
  /-- `mark_dead_for_lease`. -/
  retire : ℕ
  /-- `close_if_generation`. -/
  release : ℕ
  clientCancel : Option ℕ
  workerId : ℕ

structure Settled where
  time : ℕ
  result : Except ToolError ℕ
  /-- The watchdog or the cancellation has killed the worker. -/
  killed : Bool

def timeoutWithChildGrace (timeoutSecs : Option ℕ) (defaultTimeoutSecs : ℕ) : ℕ :=
  min (timeoutSecs.getD defaultTimeoutSecs) maxTimeoutSecs + childTimeoutGraceSecs

def foregroundTimeoutSecs (timeoutSecs : Option ℕ) (defaultTimeoutSecs : ℕ) : ℕ :=
  timeoutWithChildGrace timeoutSecs defaultTimeoutSecs + foregroundSupervisorMarginSecs

def workerOpTimeout (limits : Limits) (requested : ℕ) : ℕ :=
  min (secs (min requested maxTimeoutSecs + childTimeoutGraceSecs)) (secs limits.workerOpTimeout)

def admissionTimedOut (timeout : ℕ) : ToolError :=
  .neverDispatched ("open_idb timed out after " ++ toString (timeout / 1000) ++
    " seconds waiting for the IDA worker, which is still busy; the worker and its database are " ++
    "unaffected, retry once that call finishes")

def exceededOpTimeout (timeout workerId : ℕ) : ToolError :=
  .workerRetired ("open_idb exceeded worker operation timeout of " ++ toString (timeout / 1000) ++
    " seconds; killed worker " ++ toString workerId ++ ". The database it held is no longer open and " ++
    "changes since the last save_idb are lost; call open_idb again")

variable (limits : Limits) (timing : Timing)

/-- The execution of a call that was dispatched at `admitted`. What happens no later than the
cancellation comes before it, since the operation is polled before the token is set. -/
def execute (admitted deadline cancel : ℕ) : Settled :=
  let killed : Settled :=
    if limits.preserveOnCancel = false ∧ cancel < deadline then
      ⟨cancel + timing.retire, .error (Pooled.workerKilled timing.workerId), true⟩
    else
      ⟨deadline + timing.retire, .error (exceededOpTimeout (deadline - admitted) timing.workerId), true⟩
  match timing.answer with
  | none => killed
  | some answer =>
    if admitted + answer.delay ≤ deadline ∧
        (limits.preserveOnCancel ∨ admitted + answer.delay ≤ cancel) then
      ⟨admitted + answer.delay + answer.settle, answer.result, false⟩
    else killed

def callToolAdmitted (start timeout cancel : ℕ) : Settled :=
  let admitted := start + timing.queue
  let deadline := start + timeout
  if cancel < min admitted deadline then ⟨max start cancel, .error Pooled.cancelledBeforeDispatch, false⟩
  else if deadline < admitted then ⟨deadline, .error (admissionTimedOut timeout), false⟩
  else match timing.admission with
    | .error error => ⟨admitted, .error error, false⟩
    | .ok () => execute limits timing admitted deadline cancel

def callTool (start timeout cancel : ℕ) : Settled :=
  if timing.queueFull then ⟨start, .error .busy, false⟩
  else if limits.preserveOnCancel = false then callToolAdmitted limits timing start timeout cancel
  else
    let locked := start + timing.poolLock
    if cancel < min locked (start + timeout) then
      ⟨max start cancel, .error (.neverDispatched
        "cancelled open_idb before dispatch to the IDA worker"), false⟩
    else if start + timeout < locked then
      ⟨start + timeout, .error (.neverDispatched "open_idb timed out waiting for worker admission"), false⟩
    else match timing.poolOpen with
      | .error error => ⟨locked, .error error, false⟩
      | .ok () => callToolAdmitted limits timing locked (timeout - timing.poolLock) cancel

def openObservedWithGeneration (timeoutSecs cancel : ℕ) : Settled :=
  match timing.leased with
  | .error error => ⟨timing.lease, .error error, false⟩
  | .ok freshLease =>
    let called := callTool limits timing timing.lease (workerOpTimeout limits timeoutSecs) cancel
    match called.result with
    | .ok _ => called
    | .error error =>
      if openErrorReleasesLease freshLease error then { called with time := called.time + timing.release }
      else called

def foregroundTimeout (timeoutSecs : Option ℕ) : ℕ :=
  secs (min (foregroundTimeoutSecs timeoutSecs 300) foregroundMaxSecs)

def giveUp (timeoutSecs : Option ℕ) : ℕ × GivenUp :=
  match timing.clientCancel with
  | none => (foregroundTimeout timeoutSecs, .timedOut)
  | some cancel =>
    if cancel ≤ foregroundTimeout timeoutSecs then (cancel, .cancelled)
    else (foregroundTimeout timeoutSecs, .timedOut)

def operation (timeoutSecs : Option ℕ) : Settled :=
  openObservedWithGeneration limits timing (min (timeoutSecs.getD 300) maxTimeoutSecs)
    (giveUp timing timeoutSecs).1

def openIdb (timeoutSecs : Option ℕ) : Reply :=
  let (time, givenUp) := giveUp timing timeoutSecs
  let settled := operation limits timing timeoutSecs
  if settled.time ≤ time then finished settled.result
  else if settled.time ≤ time + secs foregroundCancelCleanupTimeoutSecs then
    finishCancelledForeground givenUp (some settled.result)
  else finishCancelledForeground givenUp none

/-! When the worker is killed. -/

def dispatchAt : ℕ := timing.lease + (if limits.preserveOnCancel then timing.poolLock else 0) + timing.queue

def deadline (timeoutSecs : Option ℕ) : ℕ :=
  timing.lease + workerOpTimeout limits (min (timeoutSecs.getD 300) maxTimeoutSecs)

/-- The watchdog or, for a worker that is not shared, the server's giving up. -/
def killAt (timeoutSecs : Option ℕ) : ℕ :=
  if limits.preserveOnCancel then deadline limits timing timeoutSecs
  else min (deadline limits timing timeoutSecs) (giveUp timing timeoutSecs).1

structure Overruns (timeoutSecs : Option ℕ) : Prop where
  leased : timing.leased.toBool = true
  queued : timing.queueFull = false
  poolOpen : limits.preserveOnCancel = true → timing.poolOpen = .ok ()
  admitted : timing.admission = .ok ()
  inTime : dispatchAt limits timing ≤ deadline limits timing timeoutSecs
  uncancelled : dispatchAt limits timing ≤ (giveUp timing timeoutSecs).1
  unanswered : ∀ answer ∈ timing.answer,
    killAt limits timing timeoutSecs < dispatchAt limits timing + answer.delay

/-- The worker is dead and its lease released before the cleanup window closes. -/
def Covered (timeoutSecs : Option ℕ) : Prop :=
  Overruns limits timing timeoutSecs →
    killAt limits timing timeoutSecs + timing.retire + timing.release ≤
      (giveUp timing timeoutSecs).1 + secs foregroundCancelCleanupTimeoutSecs

def Reply.tellsLoss : Reply → Bool
  | .tool (.workerRetired _) | .tool (.workerCrashed _ _) => true
  | _ => false

section

variable {limits timing} {admitted due cancel start timeout : ℕ}

def killTime (limits : Limits) (due cancel : ℕ) : ℕ :=
  if limits.preserveOnCancel then due else min due cancel

def Unanswered (limits : Limits) (timing : Timing) (admitted due cancel : ℕ) : Prop :=
  ∀ answer ∈ timing.answer, killTime limits due cancel < admitted + answer.delay

theorem execute_unanswered (h : Unanswered limits timing admitted due cancel) :
    ∃ detail, execute limits timing admitted due cancel =
      ⟨killTime limits due cancel + timing.retire, .error (.workerRetired detail), true⟩ := by
  have hkill : ∃ detail, (if limits.preserveOnCancel = false ∧ cancel < due then
      (⟨cancel + timing.retire, .error (Pooled.workerKilled timing.workerId), true⟩ : Settled)
    else ⟨due + timing.retire, .error (exceededOpTimeout (due - admitted) timing.workerId), true⟩) =
      ⟨killTime limits due cancel + timing.retire, .error (.workerRetired detail), true⟩ := by
    unfold killTime
    cases limits.preserveOnCancel with
    | true => exact ⟨_, rfl⟩
    | false =>
      by_cases hlt : cancel < due
      · rw [if_pos ⟨rfl, hlt⟩, if_neg Bool.false_ne_true, Nat.min_eq_right (le_of_lt hlt)]
        exact ⟨_, rfl⟩
      · rw [if_neg fun h => hlt h.2, if_neg Bool.false_ne_true, Nat.min_eq_left (not_lt.mp hlt)]
        exact ⟨_, rfl⟩
  unfold execute
  dsimp only
  cases hanswer : timing.answer with
  | none => exact hkill
  | some answer =>
    have hlate := h answer hanswer
    unfold killTime at hlate
    dsimp only
    rw [if_neg]
    · exact hkill
    · cases hpreserve : limits.preserveOnCancel <;> simp [hpreserve] at hlate ⊢ <;> omega

theorem execute_answered (h : ¬ Unanswered limits timing admitted due cancel) :
    (execute limits timing admitted due cancel).killed = false := by
  unfold Unanswered at h
  push Not at h
  obtain ⟨answer, hanswer, hle⟩ := h
  unfold killTime at hle
  unfold execute
  rw [Option.mem_def.mp hanswer]
  dsimp only
  rw [if_pos]
  cases hpreserve : limits.preserveOnCancel <;> simp [hpreserve] at hle ⊢ <;> omega

structure Dispatched (timing : Timing) (start timeout cancel : ℕ) : Prop where
  admitted : timing.admission = .ok ()
  inTime : start + timing.queue ≤ start + timeout
  uncancelled : start + timing.queue ≤ cancel

theorem callToolAdmitted_dispatched (h : Dispatched timing start timeout cancel) :
    callToolAdmitted limits timing start timeout cancel =
      execute limits timing (start + timing.queue) (start + timeout) cancel := by
  have htime := h.inTime
  have hcancel := h.uncancelled
  unfold callToolAdmitted
  dsimp only
  rw [if_neg (by omega), if_neg (by omega), h.admitted]

theorem callToolAdmitted_refused (h : ¬ Dispatched timing start timeout cancel) :
    (callToolAdmitted limits timing start timeout cancel).killed = false := by
  unfold callToolAdmitted
  dsimp only
  split_ifs with hcancel hlate
  · rfl
  · rfl
  · cases hadmission : timing.admission with
    | error error => rfl
    | ok _ => exact absurd ⟨hadmission, by omega, by omega⟩ h

def lockWait (limits : Limits) (timing : Timing) : ℕ := if limits.preserveOnCancel then timing.poolLock else 0

structure Reaches (limits : Limits) (timing : Timing) (start timeout cancel : ℕ) : Prop where
  queued : timing.queueFull = false
  poolOpen : limits.preserveOnCancel = true → timing.poolOpen = .ok ()
  admitted : timing.admission = .ok ()
  inTime : start + lockWait limits timing + timing.queue ≤ start + timeout
  uncancelled : start + lockWait limits timing + timing.queue ≤ cancel

theorem callTool_reaches (h : Reaches limits timing start timeout cancel) :
    callTool limits timing start timeout cancel =
      execute limits timing (start + lockWait limits timing + timing.queue) (start + timeout) cancel := by
  have htime := h.inTime
  have hcancel := h.uncancelled
  unfold callTool
  rw [h.queued, if_neg Bool.false_ne_true]
  cases hpreserve : limits.preserveOnCancel with
  | false =>
    rw [lockWait, hpreserve] at htime hcancel ⊢
    exact callToolAdmitted_dispatched ⟨h.admitted, htime, hcancel⟩
  | true =>
    rw [lockWait, hpreserve, if_pos rfl] at htime hcancel ⊢
    dsimp only
    rw [if_neg Bool.true_eq_false_eq_False, if_neg (by omega), if_neg (by omega), h.poolOpen hpreserve]
    have hdue : start + timing.poolLock + (timeout - timing.poolLock) = start + timeout := by omega
    dsimp only
    rw [callToolAdmitted_dispatched ⟨h.admitted, by omega, hcancel⟩, hdue]

theorem callTool_refused (h : ¬ Reaches limits timing start timeout cancel) :
    (callTool limits timing start timeout cancel).killed = false := by
  unfold callTool
  split_ifs with hqueue hpreserve
  · rfl
  · apply callToolAdmitted_refused
    intro hdispatched
    refine h ⟨by simpa using hqueue, fun hshared => ?_, hdispatched.admitted, ?_, ?_⟩
    · rw [hpreserve] at hshared
      cases hshared
    · rw [lockWait, hpreserve]
      exact hdispatched.inTime
    · rw [lockWait, hpreserve]
      exact hdispatched.uncancelled
  · dsimp only
    split_ifs with hcancel hlate
    · rfl
    · rfl
    · cases hopen : timing.poolOpen with
      | error error => rfl
      | ok _ =>
        apply callToolAdmitted_refused
        intro hdispatched
        have htime := hdispatched.inTime
        have hshared : limits.preserveOnCancel = true := by simpa using hpreserve
        refine h ⟨by simpa using hqueue, fun _ => hopen, hdispatched.admitted, ?_, ?_⟩
        · rw [lockWait, if_pos hshared]
          omega
        · rw [lockWait, if_pos hshared]
          exact hdispatched.uncancelled

end

variable {limits timing} {timeoutSecs : Option ℕ}

theorem operation_overruns (h : Overruns limits timing timeoutSecs) :
    ∃ detail, operation limits timing timeoutSecs =
      ⟨killAt limits timing timeoutSecs + timing.retire + timing.release, .error (.workerRetired detail),
        true⟩ := by
  have hreaches : Reaches limits timing timing.lease
      (workerOpTimeout limits (min (timeoutSecs.getD 300) maxTimeoutSecs)) (giveUp timing timeoutSecs).1 :=
    ⟨h.queued, h.poolOpen, h.admitted, h.inTime, h.uncancelled⟩
  obtain ⟨detail, hexecute⟩ := execute_unanswered h.unanswered
  obtain ⟨freshLease, hleased⟩ : ∃ freshLease, timing.leased = .ok freshLease := by
    have hleased := h.leased
    cases hlease : timing.leased with
    | error error =>
      rw [hlease] at hleased
      cases hleased
    | ok freshLease => exact ⟨freshLease, rfl⟩
  have hreleases : openErrorReleasesLease freshLease (.workerRetired detail) = true := by
    cases freshLease <;> rfl
  refine ⟨detail, ?_⟩
  unfold operation openObservedWithGeneration
  rw [hleased]
  dsimp only
  rw [callTool_reaches hreaches]
  have hcalled : execute limits timing (timing.lease + lockWait limits timing + timing.queue)
      (timing.lease + workerOpTimeout limits (min (timeoutSecs.getD 300) maxTimeoutSecs))
      (giveUp timing timeoutSecs).1 =
        ⟨killAt limits timing timeoutSecs + timing.retire, .error (.workerRetired detail), true⟩ := hexecute
  rw [hcalled]
  dsimp only
  rw [if_pos hreleases]

theorem operation_settles (h : ¬ Overruns limits timing timeoutSecs) :
    (operation limits timing timeoutSecs).killed = false := by
  unfold operation openObservedWithGeneration
  cases hleased : timing.leased with
  | error error => rfl
  | ok freshLease =>
    have hcalled : (callTool limits timing timing.lease
        (workerOpTimeout limits (min (timeoutSecs.getD 300) maxTimeoutSecs))
        (giveUp timing timeoutSecs).1).killed = false := by
      by_cases hreaches : Reaches limits timing timing.lease
          (workerOpTimeout limits (min (timeoutSecs.getD 300) maxTimeoutSecs)) (giveUp timing timeoutSecs).1
      · rw [callTool_reaches hreaches]
        apply execute_answered
        intro hunanswered
        exact h ⟨by rw [hleased]; rfl, hreaches.queued, hreaches.poolOpen, hreaches.admitted,
          hreaches.inTime, hreaches.uncancelled, hunanswered⟩
      · exact callTool_refused hreaches
    dsimp only
    split
    · exact hcalled
    · split_ifs
      · exact hcalled
      · exact hcalled

theorem killed_iff : (operation limits timing timeoutSecs).killed = true ↔
    Overruns limits timing timeoutSecs := by
  by_cases h : Overruns limits timing timeoutSecs
  · obtain ⟨detail, hoperation⟩ := operation_overruns h
    rw [hoperation]
    exact iff_of_true rfl h
  · rw [operation_settles h]
    exact iff_of_false Bool.false_ne_true h

/-- A worker that the open has killed is reported as killed exactly when it is dead, and its lease
released, before the cleanup window closes. -/
theorem killed_told_iff (limits : Limits) (timing : Timing) (timeoutSecs : Option ℕ) :
    ((operation limits timing timeoutSecs).killed = true →
      (openIdb limits timing timeoutSecs).tellsLoss = true) ↔ Covered limits timing timeoutSecs := by
  rw [killed_iff]
  unfold Covered
  apply imp_congr_right
  intro h
  obtain ⟨detail, hoperation⟩ := operation_overruns h
  unfold openIdb
  rw [hoperation]
  dsimp only
  split_ifs with hintime hwindow
  · exact iff_of_true rfl (le_trans hintime (Nat.le_add_right _ _))
  · exact iff_of_true rfl hwindow
  · apply iff_of_false _ hwindow
    cases (giveUp timing timeoutSecs).2 <;> exact Bool.false_ne_true

theorem deadline_le (limits : Limits) (timing : Timing) (timeoutSecs : Option ℕ) :
    deadline limits timing timeoutSecs + secs foregroundSupervisorMarginSecs ≤
      timing.lease + foregroundTimeout timeoutSecs := by
  unfold deadline workerOpTimeout foregroundTimeout foregroundTimeoutSecs timeoutWithChildGrace
    foregroundMaxSecs foregroundSupervisorMarginSecs childTimeoutGraceSecs maxTimeoutSecs secs
  omega

theorem covered_of_private (hprivate : limits.preserveOnCancel = false)
    (hretire : timing.retire + timing.release ≤ secs foregroundCancelCleanupTimeoutSecs) :
    Covered limits timing timeoutSecs := by
  intro _
  unfold killAt
  rw [hprivate, if_neg Bool.false_ne_true]
  omega

/-- A shared worker is reported, if its client does not cancel and the lease, the retirement and the
release take no longer than the margin and the window. -/
theorem covered_of_shared (hcancel : timing.clientCancel = none)
    (htime : timing.lease + timing.retire + timing.release ≤
      secs (foregroundSupervisorMarginSecs + foregroundCancelCleanupTimeoutSecs)) :
    Covered limits timing timeoutSecs := by
  intro _
  have hdeadline := deadline_le limits timing timeoutSecs
  have hkill : killAt limits timing timeoutSecs ≤ deadline limits timing timeoutSecs := by
    unfold killAt
    split_ifs
    · exact le_refl _
    · exact Nat.min_le_left _ _
  unfold giveUp
  rw [hcancel]
  dsimp only
  unfold secs foregroundSupervisorMarginSecs foregroundCancelCleanupTimeoutSecs at *
  omega

def unansweredOpen : Timing where
  lease := 0
  leased := .ok true
  queueFull := false
  poolLock := 0
  poolOpen := .ok ()
  queue := 0
  admission := .ok ()
  answer := none
  retire := 0
  release := 0
  clientCancel := none
  workerId := 1

/-- The spawn of a shared worker takes fifteen seconds, and the server answers six seconds before the
watchdog kills it; the client of another cancels, and the retirement takes seven seconds. -/
theorem late_kills_untold :
    ((operation ⟨1800, true⟩ { unansweredOpen with lease := secs 15 } (some 60)).killed = true ∧
      openIdb ⟨1800, true⟩ { unansweredOpen with lease := secs 15 } (some 60) = .timedOut) ∧
    (operation ⟨1800, false⟩ { unansweredOpen with clientCancel := some (secs 1), retire := secs 7 }
        (some 60)).killed = true ∧
      openIdb ⟨1800, false⟩ { unansweredOpen with clientCancel := some (secs 1), retire := secs 7 }
        (some 60) = .cancelled :=
  ⟨⟨rfl, rfl⟩, rfl, rfl⟩

end IdaMcp.Foreground
