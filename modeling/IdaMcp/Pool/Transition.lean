import IdaMcp.Pool.Step

namespace IdaMcp.Pool

open Remote

inductive Move (cfg : WorkerPoolConfig) (s : State) (choice : Choice) : Position → Position → Prop
  | leaseClosed {session lease} (hshut : s.shuttingDown = true) :
    Move cfg s choice (.leaseLoop session lease) (.done (.error .workerClosed))
  | skipDead {session lease w rest active deadIds} (hdead : s.stateOf w = .dead) :
    Move cfg s choice (.leaseScan session lease (w :: rest) active deadIds)
      (.leaseScan session lease rest active (deadIds ++ [w]))
  | countActive {session lease w rest active deadIds} (hdead : s.stateOf w ≠ .dead)
    (hidle : s.stateOf w ≠ .idle) :
    Move cfg s choice (.leaseScan session lease (w :: rest) active deadIds)
      (.leaseScan session lease rest (active + 1) deadIds)
  | spawnFailed {purpose w error} (hchoice : choice = .spawnFails error) :
    Move cfg s choice (.spawnSlot purpose w) (.unreserve w (.error error))
  | discard {purpose w} (hlock : s.poolLock = none) (hshut : s.shuttingDown = true) :
    Move cfg s choice (.finishSpawn purpose w)
      (.takeDead w none false (.unreserve w (.error .workerClosed)))
  | releaseStale {h} (hstale : (s.stateOf h.workerId).belongsToLease h.leaseId = false) :
    Move cfg s choice (.releaseLock h) (.releaseIdleCheck h .finished)
  | closeNotSent {h error} (hchoice : choice = .notSent error)
    (herror : isDispatchError error = true) :
    Move cfg s choice (.releaseSend h) (afterClosePosition h (some error))
  | closeSendTimedOut {h secs} :
    Move cfg s choice (.releaseSend h) (afterClosePosition h (some (.timeout secs)))
  | closeAnswered {h answer} :
    Move cfg s choice (.releaseAwait h (some answer)) (afterClosePosition h (closeError answer))
  | closeTimedOut {h secs} :
    Move cfg s choice (.releaseAwait h none) (afterClosePosition h (some (.timeout secs)))
  | closeLost {h detail} :
    Move cfg s choice (.releaseAwait h none) (afterClosePosition h (some (.remoteProtocol detail)))
  | releaseEnded {h outcome} (hidle : s.stateOf h.workerId ≠ .idle) :
    Move cfg s choice (.releaseIdleCheck h outcome) (.done outcome)
  | callRefused {h tool tracksOpen error} :
    Move cfg s choice (.callAdmission h tool tracksOpen) (.done (.error error))
  | callRetired {h tool tracksOpen answer error} :
    Move cfg s choice (.callAwait h tool tracksOpen answer)
      (.takeDead h.workerId (some h.leaseId) true (.settleCall h (.error error)))
  | callToSettle {h tool answer outcome} :
    Move cfg s choice (.callAwait h tool true (some answer)) (.callSettle h tool outcome)
  | settleRetired {h tool outcome error} :
    Move cfg s choice (.callSettle h tool outcome)
      (.takeDead h.workerId (some h.leaseId) true (.settleCall h (.error error)))
  | reapOff {w} : Move cfg s choice (.reapStart w) (.done .finished)
  | reapSlept {w} : Move cfg s choice (.reapStart w) (.reapSleep w s.now)
  | reapCount {w sleepStarted x rest liveCount} :
    Move cfg s choice (.reapScan w sleepStarted (x :: rest) liveCount)
      (.reapScan w sleepStarted rest (if s.isLive x then liveCount + 1 else liveCount))
  | startupsDone (hidle : startups s = []) : Move cfg s choice .awaitStartups .killSlots
  | killsAwaited {tasks} : Move cfg s choice (.awaitKills tasks) (.done .finished)

/-- What a step can do to the state, with the guard it passed. -/
inductive Transition (cfg : WorkerPoolConfig) (s : State) : Action → State → Prop
  | started {operation} (hknown : operation.known s = true) :
    Transition cfg s (.start operation) (s.spawn operation.position operation.detached)
  | moved {t choice position position' d} (ht : s.task t = some ⟨position, d⟩)
    (hmove : Move cfg s choice position position') :
    Transition cfg s (.run t choice) (s.goto t position')
  | tookLeaseId {t session d} (ht : s.task t = some ⟨.takeLeaseId session, d⟩)
    (hlock : s.poolLock = none) :
    Transition cfg s (.run t .proceed)
      ({ s with nextLeaseId := s.nextLeaseId + 1 }.goto t (.leaseLoop session (s.nextLeaseId + 1)))
  | leaseScanBegun {t session lease d} (ht : s.task t = some ⟨.leaseLoop session lease, d⟩)
    (hlock : s.poolLock = none) :
    Transition cfg s (.run t .proceed)
      ((s.setPoolLock (some t)).goto t (.leaseScan session lease s.children s.spawning.length []))
  | leasedIdle {t session lease w rest active deadIds d}
    (ht : s.task t = some ⟨.leaseScan session lease (w :: rest) active deadIds, d⟩)
    (hidle : s.stateOf w = .idle) :
    Transition cfg s (.run t .proceed)
      ((((s.useSlot w (.leased session lease)).setPoolLock none).issue ⟨w, session, lease, false⟩).goto
        t (.done (.leased ⟨w, session, lease, false⟩)))
  | leaseRefused {t session lease active deadIds error d}
    (ht : s.task t = some ⟨.leaseScan session lease [] active deadIds, d⟩) :
    Transition cfg s (.run t .proceed)
      (((s.forget deadIds).setPoolLock none).goto t (.done (.error error)))
  | leaseWaits {t session lease active deadIds d}
    (ht : s.task t = some ⟨.leaseScan session lease [] active deadIds, d⟩) :
    Transition cfg s (.run t .proceed)
      (((s.forget deadIds).setPoolLock none).goto t (.leaseLoop session lease))
  | leaseReserved {t session lease active deadIds d}
    (ht : s.task t = some ⟨.leaseScan session lease [] active deadIds, d⟩)
    (hactive : active < cfg.maxWorkers) (hshut : s.shuttingDown = false) :
    Transition cfg s (.run t .proceed)
      (((s.forget deadIds).reserve.setPoolLock none).goto t
        (.spawnSlot (.lease session lease) s.nextId))
  | spawned {t purpose w d} (ht : s.task t = some ⟨.spawnSlot purpose w, d⟩) :
    Transition cfg s (.run t .proceed)
      ((s.setSlot w (newSlot purpose.initialState s.now)).goto t (.finishSpawn purpose w))
  | installedLease {t session lease w d}
    (ht : s.task t = some ⟨.finishSpawn (.lease session lease) w, d⟩) (hlock : s.poolLock = none)
    (hshut : s.shuttingDown = false) :
    Transition cfg s (.run t .proceed)
      ((((s.setChildren (s.children ++ [w])).unreserve w).issue ⟨w, session, lease, false⟩).goto t
        (.done (.leased ⟨w, session, lease, false⟩)))
  | installedMinimum {t w d} (ht : s.task t = some ⟨.finishSpawn .minimum w, d⟩)
    (hlock : s.poolLock = none) (hshut : s.shuttingDown = false) :
    Transition cfg s (.run t .proceed)
      (((s.setChildren (s.children ++ [w])).unreserve w).goto t (.done .finished))
  | unreserved {t w outcome d} (ht : s.task t = some ⟨.unreserve w outcome, d⟩)
    (hlock : s.poolLock = none) :
    Transition cfg s (.run t .proceed) ((s.unreserve w).goto t (.done outcome))
  | tookDead {t w lease replenish k d} (ht : s.task t = some ⟨.takeDead w lease replenish k, d⟩)
    (hlease : ∀ l, lease = some l → (s.stateOf w).belongsToLease l = true) :
    Transition cfg s (.run t .proceed) ((s.setState w .dead).goto t (.forgetSlot w replenish k))
  | leaseGone {t w l replenish k d} (ht : s.task t = some ⟨.takeDead w (some l) replenish k, d⟩)
    (hgone : (s.stateOf w).belongsToLease l = false) :
    Transition cfg s (.run t .proceed) (resume s t k)
  | forgot {t w k d} (ht : s.task t = some ⟨.forgetSlot w false k, d⟩) (hlock : s.poolLock = none) :
    Transition cfg s (.run t .proceed) (resume (s.forget [w]) t k)
  | forgotLost {t w k d} (ht : s.task t = some ⟨.forgetSlot w true k, d⟩)
    (hlock : s.poolLock = none) :
    Transition cfg s (.run t .proceed) ((s.forget [w]).goto t (.scheduleReplenishment k))
  | replenished {t k d} (ht : s.task t = some ⟨.scheduleReplenishment k, d⟩)
    (hlock : s.poolLock = none) :
    Transition cfg s (.run t .proceed) (resume (replenish cfg s) t k)
  | closing {t h d} (ht : s.task t = some ⟨.releaseLock h, d⟩)
    (hcall : (s.slot h.workerId).callLock = none)
    (hlease : (s.stateOf h.workerId).belongsToLease h.leaseId = true) :
    Transition cfg s (.run t .proceed)
      (((s.setState h.workerId (.closing h.leaseId)).setCallLock h.workerId (some t)).goto t
        (.releaseSend h))
  | closeSent {t h d} (ht : s.task t = some ⟨.releaseSend h, d⟩) :
    Transition cfg s (.run t .proceed) ((send s t h "close_idb").goto t (.releaseAwait h none))
  | resetDead {t h error d outcome} (ht : s.task t = some ⟨.releaseReset h error, d⟩)
    (hdead : s.stateOf h.workerId = .dead) :
    Transition cfg s (.run t .proceed)
      ((s.setCallLock h.workerId none).goto t (.releaseIdleCheck h outcome))
  | resetIdle {t h error d} (ht : s.task t = some ⟨.releaseReset h error, d⟩)
    (hdead : s.stateOf h.workerId ≠ .dead) :
    Transition cfg s (.run t .proceed)
      (((s.useSlot h.workerId .idle).setCallLock h.workerId none).goto t
        (.releaseIdleCheck h .finished))
  | reapScheduled {t h outcome d} (ht : s.task t = some ⟨.releaseIdleCheck h outcome, d⟩)
    (hidle : s.stateOf h.workerId = .idle) :
    Transition cfg s (.run t .proceed)
      ((s.goto t (.done outcome)).spawn (.reapStart h.workerId) true)
  | callSent {t h tool tracksOpen d} (ht : s.task t = some ⟨.callAdmission h tool tracksOpen, d⟩)
    (hcall : (s.slot h.workerId).callLock = none)
    (hleased : s.stateOf h.workerId = .leased h.sessionId h.leaseId) :
    Transition cfg s (.run t .proceed)
      ((send (s.setCallLock h.workerId (some t)) t h tool).goto t (.callAwait h tool tracksOpen none))
  | callSendLost {t h tool tracksOpen error error' d}
    (ht : s.task t = some ⟨.callAdmission h tool tracksOpen, d⟩)
    (hcall : (s.slot h.workerId).callLock = none)
    (hleased : s.stateOf h.workerId = .leased h.sessionId h.leaseId) :
    Transition cfg s (.run t (.notSent error))
      ((s.setCallLock h.workerId (some t)).goto t
        (.takeDead h.workerId (some h.leaseId) true (.settleCall h (.error error'))))
  | callEnded {t choice h tool tracksOpen answer outcome d}
    (ht : s.task t = some ⟨.callAwait h tool tracksOpen (some answer), d⟩) :
    Transition cfg s (.run t choice) ((s.setCallLock h.workerId none).goto t (.done outcome))
  | settleEnded {t h tool outcome outcome' d} (ht : s.task t = some ⟨.callSettle h tool outcome, d⟩) :
    Transition cfg s (.run t .proceed) ((s.setCallLock h.workerId none).goto t (.done outcome'))
  | reapScanBegun {t w sleepStarted d} (ht : s.task t = some ⟨.reapSleep w sleepStarted, d⟩)
    (hlock : s.poolLock = none) :
    Transition cfg s (.run t .proceed)
      ((s.setPoolLock (some t)).goto t (.reapScan w sleepStarted s.children s.spawning.length))
  | reapTook {t w sleepStarted liveCount d}
    (ht : s.task t = some ⟨.reapScan w sleepStarted [] liveCount, d⟩)
    (hlive : cfg.minWorkers < liveCount) (hidle : s.stateOf w = .idle) :
    Transition cfg s (.run t .proceed)
      (((s.setState w .dead).setPoolLock none).goto t (.forgetSlot w false (.stop .finished)))
  | reapKept {t w sleepStarted liveCount d}
    (ht : s.task t = some ⟨.reapScan w sleepStarted [] liveCount, d⟩) :
    Transition cfg s (.run t .proceed) ((s.setPoolLock none).goto t (.done .finished))
  | shutdownBegun {t d} (ht : s.task t = some ⟨.beginShutdown, d⟩) (hlock : s.poolLock = none) :
    Transition cfg s (.run t .proceed) ({ s with shuttingDown := true }.goto t .awaitStartups)
  | slotsKilled {t d} (ht : s.task t = some ⟨.killSlots, d⟩) (hlock : s.poolLock = none) :
    Transition cfg s (.run t .proceed)
      ((killSlots s s.children).goto t (.awaitKills (List.range' s.nextTask s.children.length)))
  | dropped {t position} (ht : s.task t = some ⟨position, false⟩) :
    Transition cfg s (.drop t) (dropTask s t position)
  | answered {w request answer effect} (hrequest : request ∈ (s.slot w).requests)
    (heffect : effectAllowed request answer effect = true) :
    Transition cfg s (.childAnswer w request answer effect)
      (deliver (s.setSlot w { s.slot w with
        requests := (s.slot w).requests.erase request
        database := databaseAfter (s.slot w).database request effect }) request.task answer)
  | transportClosed {w} :
    Transition cfg s (.closeTransport w) (s.setSlot w { s.slot w with transportClosed := true })
  | ticked {duration} : Transition cfg s (.tick duration) { s with now := s.now + duration }

variable {cfg : WorkerPoolConfig} {s s' : State} {t : TaskId} {d : Bool}

theorem admissionError_eq_none {h : PooledWorkerHandle} {tool : String} :
    admissionError s h tool = none ↔ s.stateOf h.workerId = .leased h.sessionId h.leaseId := by
  unfold admissionError
  cases hs : s.stateOf h.workerId with
  | leased session lease => simp
  | _ => simp

theorem transition_leaseScan {session : SessionId} {lease : LeaseId} {rest : List WorkerId} {active : ℕ}
    {deadIds : List WorkerId} (ht : s.task t = some ⟨.leaseScan session lease rest active deadIds, d⟩) :
    Transition cfg s (.run t .proceed) (leaseScan cfg s t session lease rest active deadIds) := by
  cases rest with
  | nil =>
    unfold leaseScan
    split_ifs with hactive hspawning hshut
    · exact .leaseRefused ht
    · exact .leaseWaits ht
    · exact .leaseRefused ht
    · exact .leaseReserved ht (by omega) (by simpa using hshut)
  | cons w rest =>
    cases hw : s.stateOf w with
    | dead =>
      simp only [leaseScan, hw]
      exact .moved ht (.skipDead hw)
    | idle =>
      simp only [leaseScan, hw]
      exact .leasedIdle ht hw
    | leased | closing =>
      simp only [leaseScan, hw]
      exact .moved ht (.countActive (by simp [hw]) (by simp [hw]))

theorem transition_finishSpawn {purpose : Purpose} {w : WorkerId}
    (ht : s.task t = some ⟨.finishSpawn purpose w, d⟩) (hlock : s.poolLock = none) :
    Transition cfg s (.run t .proceed) (finishSpawn s t purpose w) := by
  unfold finishSpawn
  split_ifs with hshut
  · exact .moved ht (.discard hlock hshut)
  · rw [Bool.not_eq_true] at hshut
    cases purpose with
    | lease session lease => exact .installedLease ht hlock hshut
    | minimum => exact .installedMinimum ht hlock hshut

theorem transition_takeDead {w : WorkerId} {lease : Option LeaseId} {replenish : Bool}
    {k : Continuation} (ht : s.task t = some ⟨.takeDead w lease replenish k, d⟩) :
    Transition cfg s (.run t .proceed) (takeDead s t w lease replenish k) := by
  unfold takeDead
  split_ifs with hlease
  · refine .tookDead ht fun l hl => ?_
    subst hl
    simpa using hlease
  · cases lease with
    | none => simp at hlease
    | some l => exact .leaseGone ht (by simpa using hlease)

theorem transition_callAdmission {h : PooledWorkerHandle} {tool : String} {tracksOpen : Bool}
    {choice : Choice} (ht : s.task t = some ⟨.callAdmission h tool tracksOpen, d⟩)
    (hs' : callAdmission s t h tool tracksOpen choice = some s') :
    Transition cfg s (.run t choice) s' := by
  cases choice with
  | refused error =>
    simp only [callAdmission] at hs'
    split_ifs at hs'
    cases hs'
    exact .moved ht .callRefused
  | proceed =>
    simp only [callAdmission] at hs'
    split_ifs at hs' with hcall
    cases hadmission : admissionError s h tool with
    | none =>
      rw [hadmission] at hs'
      cases hs'
      exact .callSent ht hcall (admissionError_eq_none.mp hadmission)
    | some error =>
      rw [hadmission] at hs'
      cases hs'
      exact .moved ht .callRefused
  | notSent error =>
    simp only [callAdmission] at hs'
    split_ifs at hs' with hguard hnever
    · cases hs'
      exact .moved ht .callRefused
    · cases hs'
      obtain ⟨hcall, hadmission, -⟩ := hguard
      exact .callSendLost ht hcall (admissionError_eq_none.mp (by simpa using hadmission))
  | _ => cases hs'

theorem transition_callAwait {h : PooledWorkerHandle} {tool : String} {tracksOpen : Bool}
    {answer : Option Answer} {choice : Choice}
    (ht : s.task t = some ⟨.callAwait h tool tracksOpen answer, d⟩)
    (hs' : callAwait s t h tool tracksOpen answer choice = some s') :
    Transition cfg s (.run t choice) s' := by
  have hsettle {answer : Answer} (ht : s.task t = some ⟨.callAwait h tool tracksOpen (some answer), d⟩)
      (outcome : Outcome) :
      Transition cfg s (.run t choice) (settleCall s t h tool tracksOpen outcome) := by
    cases tracksOpen with
    | true => exact .moved ht .callToSettle
    | false => exact .callEnded ht
  cases choice with
  | proceed =>
    simp only [callAwait] at hs'
    cases answer with
    | none => cases hs'
    | some answer =>
      cases answer with
      | rejected error =>
        cases hs'
        exact hsettle ht _
      | result result =>
        simp only at hs'
        cases hretire : replyRetirement tool tracksOpen result with
        | none =>
          rw [hretire] at hs'
          cases hs'
          exact hsettle ht _
        | some error =>
          rw [hretire] at hs'
          cases hs'
          exact .moved ht .callRetired
  | timedOut secs | transportLost detail | cancelled =>
    simp only [callAwait] at hs'
    split_ifs at hs'
    cases hs'
    exact .moved ht .callRetired
  | _ => cases hs'

theorem transition_callSettle {h : PooledWorkerHandle} {tool : String} {outcome : Outcome}
    (ht : s.task t = some ⟨.callSettle h tool outcome, d⟩) :
    Transition cfg s (.run t .proceed) (callSettle s t h tool outcome) := by
  unfold callSettle
  split_ifs
  · exact .moved ht .settleRetired
  · exact .settleEnded ht
  · exact .settleEnded ht

theorem transition_releaseReset {h : PooledWorkerHandle} {error : Option ToolError}
    (ht : s.task t = some ⟨.releaseReset h error, d⟩) :
    Transition cfg s (.run t .proceed) (releaseReset s t h error) := by
  unfold releaseReset
  split_ifs with hdead
  · exact .resetDead ht hdead
  · exact .resetIdle ht hdead

theorem transition_releaseIdleCheck {h : PooledWorkerHandle} {outcome : Outcome}
    (ht : s.task t = some ⟨.releaseIdleCheck h outcome, d⟩) :
    Transition cfg s (.run t .proceed) (releaseIdleCheck s t h outcome) := by
  unfold releaseIdleCheck
  split_ifs with hidle
  · exact .reapScheduled ht hidle
  · exact .moved ht (.releaseEnded hidle)

theorem transition_reapScan {w : WorkerId} {sleepStarted : ℕ} {rest : List WorkerId} {liveCount : ℕ}
    (ht : s.task t = some ⟨.reapScan w sleepStarted rest liveCount, d⟩) :
    Transition cfg s (.run t .proceed) (reapScan cfg s t w sleepStarted rest liveCount) := by
  cases rest with
  | cons x rest => exact .moved ht .reapCount
  | nil =>
    unfold reapScan
    split_ifs with htake
    · exact .reapTook ht htake.1 htake.2.1
    · exact .reapKept ht

theorem transition_next {position : Position} {choice : Choice} (ht : s.task t = some ⟨position, d⟩)
    (hs' : next cfg s t position choice = some s') : Transition cfg s (.run t choice) s' := by
  cases position <;> cases choice <;> simp only [next, reduceCtorEq, Option.some.injEq] at hs'
  case takeLeaseId.proceed session =>
    split_ifs at hs' with hlock
    cases hs'
    exact .tookLeaseId ht hlock
  case leaseLoop.proceed session lease =>
    split_ifs at hs' with hlock hshut
    · cases hs'
      exact .moved ht (.leaseClosed hshut)
    · cases hs'
      exact .leaseScanBegun ht hlock
  case leaseScan.proceed session lease rest active deadIds =>
    subst hs'
    exact transition_leaseScan ht
  case spawnSlot.proceed purpose w =>
    subst hs'
    exact .spawned ht
  case spawnSlot.spawnFails purpose w error =>
    subst hs'
    exact .moved ht (.spawnFailed rfl)
  case finishSpawn.proceed purpose w =>
    split_ifs at hs' with hlock
    cases hs'
    exact transition_finishSpawn ht hlock
  case unreserve.proceed w outcome =>
    split_ifs at hs' with hlock
    cases hs'
    exact .unreserved ht hlock
  case takeDead.proceed w lease replenish k =>
    subst hs'
    exact transition_takeDead ht
  case forgetSlot.proceed w replenish k =>
    split_ifs at hs' with hlock hreplenish
    · cases hs'
      subst hreplenish
      exact .forgotLost ht hlock
    · cases hs'
      rw [Bool.not_eq_true] at hreplenish
      subst hreplenish
      exact .forgot ht hlock
  case scheduleReplenishment.proceed k =>
    split_ifs at hs' with hlock
    cases hs'
    exact .replenished ht hlock
  case releaseLock.proceed h =>
    split_ifs at hs' with hcall hlease
    · cases hs'
      exact .closing ht hcall hlease
    · cases hs'
      exact .moved ht (.releaseStale (by simpa using hlease))
  case releaseSend.proceed h =>
    subst hs'
    exact .closeSent ht
  case releaseSend.notSent h error =>
    split_ifs at hs' with herror
    cases hs'
    exact .moved ht (.closeNotSent rfl herror)
  case releaseSend.timedOut h secs =>
    subst hs'
    exact .moved ht .closeSendTimedOut
  case releaseAwait.proceed h answer =>
    cases answer with
    | none => cases hs'
    | some answer =>
      cases hs'
      exact .moved ht .closeAnswered
  case releaseAwait.timedOut h answer secs =>
    cases answer with
    | none =>
      cases hs'
      exact .moved ht .closeTimedOut
    | some answer => cases hs'
  case releaseAwait.transportLost h answer detail =>
    cases answer with
    | none =>
      cases hs'
      exact .moved ht .closeLost
    | some answer => cases hs'
  case releaseReset.proceed h error =>
    subst hs'
    exact transition_releaseReset ht
  case releaseIdleCheck.proceed h outcome =>
    subst hs'
    exact transition_releaseIdleCheck ht
  case callSettle.proceed h tool outcome =>
    subst hs'
    exact transition_callSettle ht
  case reapStart.proceed w =>
    split_ifs at hs'
    · cases hs'
      exact .moved ht .reapOff
    · cases hs'
      exact .moved ht .reapSlept
  case reapSleep.proceed w sleepStarted =>
    split_ifs at hs' with hwake
    cases hs'
    exact .reapScanBegun ht hwake.2
  case reapScan.proceed w sleepStarted rest liveCount =>
    subst hs'
    exact transition_reapScan ht
  case beginShutdown.proceed =>
    split_ifs at hs' with hlock
    cases hs'
    exact .shutdownBegun ht hlock
  case awaitStartups.proceed =>
    split_ifs at hs' with hidle
    cases hs'
    exact .moved ht (.startupsDone hidle)
  case killSlots.proceed =>
    split_ifs at hs' with hlock
    cases hs'
    exact .slotsKilled ht hlock
  case awaitKills.proceed tasks =>
    split_ifs at hs'
    cases hs'
    exact .moved ht .killsAwaited
  all_goals first
    | exact transition_callAdmission ht hs'
    | exact transition_callAwait ht hs'

theorem transition_of_step {a : Action} (hs' : step cfg s a = some s') : Transition cfg s a s' := by
  cases a with
  | start operation =>
    simp only [step] at hs'
    split_ifs at hs' with hknown
    cases hs'
    exact .started hknown
  | run t choice =>
    simp only [step] at hs'
    cases ht : s.task t with
    | none => simp [ht] at hs'
    | some task =>
      simp only [ht] at hs'
      exact transition_next ht hs'
  | drop t =>
    simp only [step] at hs'
    split at hs'
    case h_1 position ht =>
      cases hs'
      exact .dropped ht
    case h_2 => cases hs'
  | childAnswer w request answer effect =>
    simp only [step, childAnswer] at hs'
    split_ifs at hs' with hanswer
    cases hs'
    exact .answered hanswer.1 hanswer.2
  | closeTransport w =>
    cases hs'
    exact .transportClosed
  | tick duration =>
    cases hs'
    exact .ticked

end IdaMcp.Pool
