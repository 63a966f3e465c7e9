import IdaMcp.Pool.State
import IdaMcp.Foundation.Machine

namespace IdaMcp.Pool

open Foundation Remote

/-- What a step leaves to the runtime, the operating system or the child. -/
inductive Choice
  | proceed
  | spawnFails (error : ToolError)
  | refused (error : ToolError)
  | notSent (error : ToolError)
  | timedOut (secs : UInt64)
  | cancelled
  | transportLost (detail : String)

inductive Operation
  | lease (sessionId : SessionId)
  | release (handle : PooledWorkerHandle)
  | call (handle : PooledWorkerHandle) (tool : String) (tracksOpen : Bool)
  | markDead (handle : PooledWorkerHandle)
  | markDeadForLease (handle : PooledWorkerHandle) (guarded : Bool)
  | shutdownAll

inductive ChildEffect
  | keep
  | opens
  | closes
deriving DecidableEq, Repr

inductive Action
  | start (operation : Operation)
  | run (t : TaskId) (choice : Choice)
  | drop (t : TaskId)
  | childAnswer (w : WorkerId) (request : Request) (answer : Answer) (effect : ChildEffect)
  | closeTransport (w : WorkerId)
  | tick (duration : ℕ)

def Action.actor : Action → Option TaskId
  | .run t _ | .drop t => some t
  | .start _ | .childAnswer _ _ _ _ | .closeTransport _ | .tick _ => none

def Operation.position : Operation → Position
  | .lease sessionId => .takeLeaseId sessionId
  | .release h => .releaseLock h
  | .call h tool tracksOpen => .callAdmission h tool tracksOpen
  | .markDead h => .takeDead h.workerId none true (.stop .finished)
  | .markDeadForLease h guarded =>
    .takeDead h.workerId (some h.leaseId) true
      (if guarded then .guarded h .finished else .stop .finished)
  | .shutdownAll => .beginShutdown

/-- A call that survives its request is supervised by the pool. -/
def Operation.detached : Operation → Bool
  | .call h _ _ => h.preserveOnCancel
  | _ => false

def Operation.handle : Operation → Option PooledWorkerHandle
  | .release h | .call h _ _ | .markDead h | .markDeadForLease h _ => some h
  | .lease _ | .shutdownAll => none

/-- A caller has its handle from a lease, up to the flag that the workspace sets on it. -/
def Operation.known (operation : Operation) (s : State) : Bool :=
  operation.handle.all fun h => { h with preserveOnCancel := false } ∈ s.issued

def isDispatchError : ToolError → Bool
  | .neverDispatched _ | .remoteProtocol _ => true
  | _ => false

def operationTimeoutError (tool : String) (secs : UInt64) (w : WorkerId) : ToolError :=
  .workerRetired (tool ++ " exceeded worker operation timeout of " ++ toString secs.toNat ++
    " seconds; killed worker " ++ toString w ++ ". The database it held is no longer open and " ++
    "changes since the last save_idb are lost; call open_idb again")

def cancelledError (tool : String) (w : WorkerId) : ToolError :=
  .workerRetired ("cancelled " ++ tool ++ "; killed worker " ++ toString w ++
    ". The database it held is no longer open and changes since the last save_idb are lost; call " ++
    "open_idb again")

/-- The error of `release_inner` after a failed close that retires the worker. -/
def closeFailure : ToolError → ToolError
  | .remoteCall error => .workerRetired ("close_idb returned a protocol error (" ++
      toString error.code ++ ": " ++ error.message ++ "), so its save could not be confirmed. " ++
      "The worker was retired; its database is no longer open and changes since the last " ++
      "save_idb may be lost")
  | error => error

def closeError : Answer → Option ToolError
  | .result result => resultError result "close_idb"
  | .rejected error => some (.remoteCall error)

def resume (s : State) (t : TaskId) (k : Continuation) : State :=
  (k.callLock.elim s fun w => s.setCallLock w none).goto t k.position

def takeDead (s : State) (t : TaskId) (w : WorkerId) (leaseId : Option LeaseId) (replenish : Bool)
    (k : Continuation) : State :=
  if leaseId.all (s.stateOf w).belongsToLease then
    (s.setState w .dead).goto t (.forgetSlot w replenish k)
  else resume s t k

def replenishTimes : ℕ → State → State
  | 0, s => s
  | n + 1, s => replenishTimes n (s.reserve.spawn (.spawnSlot .minimum s.nextId) true)

def replenish (cfg : WorkerPoolConfig) (s : State) : State :=
  if s.shuttingDown then s
  else replenishTimes (minReplenished cfg - (s.spawning.length + s.children.length)) s

def leaseScan (cfg : WorkerPoolConfig) (s : State) (t : TaskId) (session : SessionId) (lease : LeaseId)
    (rest : List WorkerId) (active : ℕ) (deadIds : List WorkerId) : State :=
  match rest with
  | w :: rest =>
    match s.stateOf w with
    | .dead => s.goto t (.leaseScan session lease rest active (deadIds ++ [w]))
    | .idle =>
      (((s.useSlot w (.leased session lease)).setPoolLock none).issue ⟨w, session, lease, false⟩).goto
        t (.done (.leased ⟨w, session, lease, false⟩))
    | .leased _ _ | .closing _ => s.goto t (.leaseScan session lease rest (active + 1) deadIds)
  | [] =>
    if cfg.maxWorkers ≤ active then
      if s.spawning = [] then
        ((s.forget deadIds).setPoolLock none).goto t
          (.done (.error (.poolExhausted active cfg.maxWorkers)))
      else ((s.forget deadIds).setPoolLock none).goto t (.leaseLoop session lease)
    else if s.shuttingDown then
      ((s.forget deadIds).setPoolLock none).goto t (.done (.error .workerClosed))
    else
      ((s.forget deadIds).reserve.setPoolLock none).goto t
        (.spawnSlot (.lease session lease) s.nextId)

/-- The part of `finish_spawn_reservation` under the pool mutex, for a worker that has started. -/
def finishSpawn (s : State) (t : TaskId) (purpose : Purpose) (w : WorkerId) : State :=
  if s.shuttingDown then
    s.goto t (.takeDead w none false (.unreserve w (.error .workerClosed)))
  else
    match purpose.handle w with
    | some h => (((s.setChildren (s.children ++ [w])).unreserve w).issue h).goto t (.done (.leased h))
    | none => ((s.setChildren (s.children ++ [w])).unreserve w).goto t (.done .finished)

def afterClosePosition (h : PooledWorkerHandle) (error : Option ToolError) : Position :=
  match error with
  | none => .releaseReset h none
  | some error =>
    if releaseErrorRetiresWorker error then
      .takeDead h.workerId (some h.leaseId) true (.settleRelease h (.error (closeFailure error)))
    else .releaseReset h (some error)

def afterClose (s : State) (t : TaskId) (h : PooledWorkerHandle) (error : Option ToolError) : State :=
  s.goto t (afterClosePosition h error)

def releaseReset (s : State) (t : TaskId) (h : PooledWorkerHandle) (error : Option ToolError) :
    State :=
  if s.stateOf h.workerId = .dead then
    (s.setCallLock h.workerId none).goto t
      (.releaseIdleCheck h (error.elim .finished .error))
  else
    ((s.useSlot h.workerId .idle).setCallLock h.workerId none).goto t
      (.releaseIdleCheck h .finished)

def releaseIdleCheck (s : State) (t : TaskId) (h : PooledWorkerHandle) (outcome : Outcome) : State :=
  if s.stateOf h.workerId = .idle then
    (s.goto t (.done outcome)).spawn (.reapStart h.workerId) true
  else s.goto t (.done outcome)

def send (s : State) (t : TaskId) (h : PooledWorkerHandle) (tool : String) : State :=
  s.setRequests h.workerId ((s.slot h.workerId).requests ++ [⟨t, h.leaseId, tool⟩])

def retireCall (s : State) (t : TaskId) (h : PooledWorkerHandle) (error : ToolError) : State :=
  s.goto t (.takeDead h.workerId (some h.leaseId) true (.settleCall h (.error error)))

def endCall (s : State) (t : TaskId) (h : PooledWorkerHandle) (outcome : Outcome) : State :=
  (s.setCallLock h.workerId none).goto t (.done outcome)

def transportError (tool detail : String) (w : WorkerId) : ToolError :=
  .workerCrashed w (tool ++ ": " ++ (ToolError.remoteProtocol detail).display)

def admissionError (s : State) (h : PooledWorkerHandle) (tool : String) : Option ToolError :=
  match s.stateOf h.workerId with
  | .leased sessionId leaseId =>
    if sessionId = h.sessionId ∧ leaseId = h.leaseId then none else some .databaseReplaced
  | .dead => some (.workerCrashed h.workerId tool)
  | .idle | .closing _ => some .databaseReplaced

def callAdmission (s : State) (t : TaskId) (h : PooledWorkerHandle) (tool : String) (tracksOpen : Bool)
    (choice : Choice) : Option State :=
  match choice with
  | .refused error =>
    if error.wasNeverDispatched then some (s.goto t (.done (.error error))) else none
  | .proceed =>
    if (s.slot h.workerId).callLock = none then
      match admissionError s h tool with
      | some error => some (s.goto t (.done (.error error)))
      | none =>
        some ((send (s.setCallLock h.workerId (some t)) t h tool).goto t
          (.callAwait h tool tracksOpen none))
    else none
  | .notSent error =>
    if (s.slot h.workerId).callLock = none ∧ (admissionError s h tool).isNone ∧
        isDispatchError error then
      if error.wasNeverDispatched then some (s.goto t (.done (.error error)))
      else
        some (retireCall (s.setCallLock h.workerId (some t)) t h
          (.workerCrashed h.workerId (tool ++ ": " ++ error.display)))
    else none
  | _ => none

def settleCall (s : State) (t : TaskId) (h : PooledWorkerHandle) (tool : String) (tracksOpen : Bool)
    (outcome : Outcome) : State :=
  if tracksOpen then s.goto t (.callSettle h tool outcome) else endCall s t h outcome

def callAwait (s : State) (t : TaskId) (h : PooledWorkerHandle) (tool : String) (tracksOpen : Bool)
    (answer : Option Answer) (choice : Choice) : Option State :=
  match choice with
  | .proceed =>
    match answer with
    | none => none
    | some (.rejected error) => some (settleCall s t h tool tracksOpen (.error (.remoteCall error)))
    | some (.result result) =>
      match replyRetirement tool tracksOpen result with
      | some error => some (retireCall s t h error)
      | none => some (settleCall s t h tool tracksOpen (.reply result))
  | .timedOut secs =>
    if answer.isNone then some (retireCall s t h (operationTimeoutError tool secs h.workerId))
    else none
  | .cancelled =>
    if h.preserveOnCancel then none
    else some (retireCall s t h (cancelledError tool h.workerId))
  | .transportLost detail =>
    if answer.isNone then some (retireCall s t h (transportError tool detail h.workerId)) else none
  | _ => none

def callSettle (s : State) (t : TaskId) (h : PooledWorkerHandle) (tool : String) (outcome : Outcome) :
    State :=
  if s.stateOf h.workerId = .dead ∨ (s.slot h.workerId).transportClosed then
    retireCall s t h (.workerCrashed h.workerId tool)
  else if (s.stateOf h.workerId).belongsToLease h.leaseId then endCall s t h outcome
  else endCall s t h (.error .databaseReplaced)

def reapScan (cfg : WorkerPoolConfig) (s : State) (t : TaskId) (w : WorkerId) (sleepStarted : ℕ)
    (rest : List WorkerId) (liveCount : ℕ) : State :=
  match rest with
  | x :: rest =>
    s.goto t (.reapScan w sleepStarted rest (if s.isLive x then liveCount + 1 else liveCount))
  | [] =>
    if cfg.minWorkers < liveCount ∧ s.stateOf w = .idle ∧ (s.slot w).lastUsed ≤ sleepStarted then
      ((s.setState w .dead).setPoolLock none).goto t (.forgetSlot w false (.stop .finished))
    else (s.setPoolLock none).goto t (.done .finished)

def killSlots (s : State) : List WorkerId → State
  | [] => s
  | w :: slots => killSlots (s.spawn (.takeDead w none false (.stop .finished)) true) slots

/-- The positions that have the token of a `SpawnReservation`: until its `finish` has ended, or the
clean-up after its drop. -/
def Position.tracked : Position → Bool
  | .spawnSlot _ _ | .finishSpawn _ _ | .unreserve _ _ | .takeDead _ _ _ (.unreserve _ _)
  | .forgetSlot _ _ (.unreserve _ _) | .scheduleReplenishment (.unreserve _ _) => true
  | _ => false

def startups (s : State) : List TaskId :=
  (List.range s.nextTask).filter fun t => (s.task t).any fun task => task.position.tracked

def isDone (s : State) (t : TaskId) : Bool :=
  match s.task t with
  | some ⟨.done _, _⟩ | none => true
  | _ => false

/-- The next atomic section of task `t`, if it can take one. -/
def next (cfg : WorkerPoolConfig) (s : State) (t : TaskId) (position : Position) (choice : Choice) :
    Option State :=
  match position, choice with
  | .takeLeaseId session, .proceed =>
    if s.poolLock = none then
      some ({ s with nextLeaseId := s.nextLeaseId + 1 }.goto t
        (.leaseLoop session (s.nextLeaseId + 1)))
    else none
  | .leaseLoop session lease, .proceed =>
    if s.poolLock = none then
      if s.shuttingDown then some (s.goto t (.done (.error .workerClosed)))
      else
        some ((s.setPoolLock (some t)).goto t
          (.leaseScan session lease s.children s.spawning.length []))
    else none
  | .leaseScan session lease rest active deadIds, .proceed =>
    some (leaseScan cfg s t session lease rest active deadIds)
  -- `spawn_slot` polls the token, which is cancelled after the flag is set: a worker may still come up.
  | .spawnSlot purpose w, .proceed =>
    some ((s.setSlot w (newSlot purpose.initialState s.now)).goto t (.finishSpawn purpose w))
  | .spawnSlot _ w, .spawnFails error => some (s.goto t (.unreserve w (.error error)))
  | .finishSpawn purpose w, .proceed =>
    if s.poolLock = none then some (finishSpawn s t purpose w) else none
  | .unreserve w outcome, .proceed =>
    if s.poolLock = none then some ((s.unreserve w).goto t (.done outcome)) else none
  | .takeDead w lease replenish k, .proceed => some (takeDead s t w lease replenish k)
  | .forgetSlot w replenish k, .proceed =>
    if s.poolLock = none then
      if replenish then some ((s.forget [w]).goto t (.scheduleReplenishment k))
      else some (resume (s.forget [w]) t k)
    else none
  | .scheduleReplenishment k, .proceed =>
    if s.poolLock = none then some (resume (replenish cfg s) t k) else none
  | .releaseLock h, .proceed =>
    if (s.slot h.workerId).callLock = none then
      if (s.stateOf h.workerId).belongsToLease h.leaseId then
        some (((s.setState h.workerId (.closing h.leaseId)).setCallLock h.workerId (some t)).goto t
          (.releaseSend h))
      else some (s.goto t (.releaseIdleCheck h .finished))
    else none
  | .releaseSend h, .proceed => some ((send s t h "close_idb").goto t (.releaseAwait h none))
  | .releaseSend h, .notSent error =>
    if isDispatchError error then some (afterClose s t h (some error)) else none
  | .releaseSend h, .timedOut secs => some (afterClose s t h (some (.timeout secs)))
  | .releaseAwait h (some answer), .proceed => some (afterClose s t h (closeError answer))
  | .releaseAwait h none, .timedOut secs => some (afterClose s t h (some (.timeout secs)))
  | .releaseAwait h none, .transportLost detail => some (afterClose s t h (some (.remoteProtocol detail)))
  | .releaseReset h error, .proceed => some (releaseReset s t h error)
  | .releaseIdleCheck h outcome, .proceed => some (releaseIdleCheck s t h outcome)
  | .callAdmission h tool tracksOpen, choice => callAdmission s t h tool tracksOpen choice
  | .callAwait h tool tracksOpen answer, choice => callAwait s t h tool tracksOpen answer choice
  | .callSettle h tool outcome, .proceed => some (callSettle s t h tool outcome)
  | .reapStart w, .proceed =>
    if cfg.workerIdleTimeout = 0 then some (s.goto t (.done .finished))
    else some (s.goto t (.reapSleep w s.now))
  | .reapSleep w sleepStarted, .proceed =>
    if sleepStarted + cfg.workerIdleTimeout ≤ s.now ∧ s.poolLock = none then
      some ((s.setPoolLock (some t)).goto t (.reapScan w sleepStarted s.children s.spawning.length))
    else none
  | .reapScan w sleepStarted rest liveCount, .proceed =>
    some (reapScan cfg s t w sleepStarted rest liveCount)
  | .beginShutdown, .proceed =>
    if s.poolLock = none then some ({ s with shuttingDown := true }.goto t .awaitStartups) else none
  | .awaitStartups, .proceed => if startups s = [] then some (s.goto t .killSlots) else none
  | .killSlots, .proceed =>
    if s.poolLock = none then
      some ((killSlots s s.children).goto t
        (.awaitKills (List.range' s.nextTask s.children.length)))
    else none
  | .awaitKills tasks, .proceed =>
    if tasks.all (isDone s) then some (s.goto t (.done .finished)) else none
  | _, _ => none

def Position.holdsCall : Position → Option WorkerId
  | .releaseSend h | .releaseAwait h _ | .releaseReset h _ | .callAwait h _ _ _ | .callSettle h _ _
  | .takeDead _ _ _ (.settleCall h _) | .takeDead _ _ _ (.settleRelease h _)
  | .forgetSlot _ _ (.settleCall h _) | .forgetSlot _ _ (.settleRelease h _)
  | .scheduleReplenishment (.settleCall h _) | .scheduleReplenishment (.settleRelease h _) =>
    some h.workerId
  | _ => none

def Position.holdsPool : Position → Bool
  | .leaseScan _ _ _ _ _ | .reapScan _ _ _ _ => true
  | _ => false

def Position.retireGuard : Position → Option PooledWorkerHandle
  | .releaseLock h | .releaseSend h | .releaseAwait h _ | .releaseReset h _
  | .callAwait h _ _ _ | .callSettle h _ _
  | .takeDead _ _ _ (.settleCall h _) | .takeDead _ _ _ (.settleRelease h _)
  | .takeDead _ _ _ (.guarded h _)
  | .forgetSlot _ _ (.settleCall h _) | .forgetSlot _ _ (.settleRelease h _)
  | .forgetSlot _ _ (.guarded h _)
  | .scheduleReplenishment (.settleCall h _) | .scheduleReplenishment (.settleRelease h _)
  | .scheduleReplenishment (.guarded h _) => some h
  | _ => none

def Position.dropTask (position : Position) : Option Position :=
  match position with
  | .spawnSlot _ w | .unreserve w _ => some (.unreserve w .finished)
  | .finishSpawn _ w | .takeDead _ _ _ (.unreserve w _) | .forgetSlot _ _ (.unreserve w _)
  | .scheduleReplenishment (.unreserve w _) =>
    some (.takeDead w none false (.unreserve w .finished))
  | position =>
    position.retireGuard.map fun h =>
      .takeDead h.workerId (some h.leaseId) true (.stop .finished)

def dropTask (s : State) (t : TaskId) (position : Position) : State :=
  let s := if position.holdsPool then s.setPoolLock none else s
  let s := position.holdsCall.elim s fun w => s.setCallLock w none
  let s := s.setTask t none
  position.dropTask.elim s fun cleanup => s.spawn cleanup true

def deliver (s : State) (t : TaskId) (answer : Answer) : State :=
  match (s.task t).map Task.position with
  | some (.releaseAwait h none) => s.goto t (.releaseAwait h (some answer))
  | some (.callAwait h tool tracksOpen none) => s.goto t (.callAwait h tool tracksOpen (some answer))
  | _ => s

/-- Only an open leaves a database open that was not, and a reported close leaves none. -/
def effectAllowed (request : Request) (answer : Answer) : ChildEffect → Bool
  | .keep => request.tool ≠ "close_idb" || (closeError answer).isSome
  | .opens => request.tool = "open_idb"
  | .closes => true

def databaseAfter (database : Option LeaseId) (request : Request) : ChildEffect → Option LeaseId
  | .keep => database
  | .opens => some request.leaseId
  | .closes => none

def childAnswer (s : State) (w : WorkerId) (request : Request) (answer : Answer)
    (effect : ChildEffect) : Option State :=
  if request ∈ (s.slot w).requests ∧ effectAllowed request answer effect then
    some (deliver (s.setSlot w { s.slot w with
      requests := (s.slot w).requests.erase request
      database := databaseAfter (s.slot w).database request effect }) request.task answer)
  else none

def step (cfg : WorkerPoolConfig) (s : State) : Action → Option State
  | .start operation =>
    if operation.known s then some (s.spawn operation.position operation.detached) else none
  | .run t choice =>
    match s.task t with
    | some task => next cfg s t task.position choice
    | none => none
  | .drop t =>
    match s.task t with
    | some ⟨position, false⟩ => some (dropTask s t position)
    | _ => none
  | .childAnswer w request answer effect => childAnswer s w request answer effect
  | .closeTransport w => some (s.setSlot w { s.slot w with transportClosed := true })
  | .tick duration => some { s with now := s.now + duration }

theorem next_of_step {cfg : WorkerPoolConfig} {s s' : State} {t : TaskId} {choice : Choice}
    {p : Position} {d : Bool} (hstep : step cfg s (.run t choice) = some s')
    (ht : s.task t = some ⟨p, d⟩) : next cfg s t p choice = some s' := by
  simpa [step, ht] using hstep

end IdaMcp.Pool
