import Mathlib.Logic.Function.Basic
import Mathlib.Data.List.Basic
import IdaMcp.Retirement

namespace IdaMcp.Pool

abbrev WorkerId := ℕ

abbrev LeaseId := ℕ

abbrev SessionId := ℕ

abbrev TaskId := ℕ

structure WorkerPoolConfig where
  maxWorkers : ℕ
  minWorkers : ℕ
  workerIdleTimeout : ℕ

inductive ChildState
  | idle
  | leased (sessionId : SessionId) (leaseId : LeaseId)
  | closing (leaseId : LeaseId)
  | dead
deriving DecidableEq, Repr

namespace ChildState

def belongsToLease (state : ChildState) (expected : LeaseId) : Bool :=
  match state with
  | leased _ leaseId | closing leaseId => leaseId = expected
  | idle | dead => false

end ChildState

/-- A request that the child has received and not yet answered. -/
structure Request where
  task : TaskId
  leaseId : LeaseId
  tool : String
deriving DecidableEq, Repr

/-- A slot with the child behind it: `database` is the lease whose open the child's database is
from. -/
structure ChildSlot where
  state : ChildState
  lastUsed : ℕ
  callLock : Option TaskId
  transportClosed : Bool
  database : Option LeaseId
  requests : List Request

structure PooledWorkerHandle where
  workerId : WorkerId
  sessionId : SessionId
  leaseId : LeaseId
  preserveOnCancel : Bool
deriving DecidableEq, Repr

inductive Answer
  | result (result : CallToolResult)
  | rejected (error : ErrorData)

inductive Outcome
  | leased (handle : PooledWorkerHandle)
  | reply (result : CallToolResult)
  | error (error : ToolError)
  | finished

inductive Purpose
  | lease (sessionId : SessionId) (leaseId : LeaseId)
  | minimum
deriving DecidableEq, Repr

inductive Continuation
  | stop (outcome : Outcome)
  | guarded (handle : PooledWorkerHandle) (outcome : Outcome)
  | settleCall (handle : PooledWorkerHandle) (outcome : Outcome)
  | settleRelease (handle : PooledWorkerHandle) (outcome : Outcome)
  | unreserve (workerId : WorkerId) (outcome : Outcome)

/-- The position of a task, named after the function and the step that it takes next. -/
inductive Position
  -- lease_inner
  | takeLeaseId (sessionId : SessionId)
  | leaseLoop (sessionId : SessionId) (leaseId : LeaseId)
  | leaseScan (sessionId : SessionId) (leaseId : LeaseId) (rest : List WorkerId) (active : ℕ)
      (deadIds : List WorkerId)
  -- spawn_reserved_slot, finish_spawn_reservation
  | spawnSlot (purpose : Purpose) (workerId : WorkerId)
  | finishSpawn (purpose : Purpose) (workerId : WorkerId)
  | unreserve (workerId : WorkerId) (outcome : Outcome)
  -- mark_dead, mark_dead_for_lease, discard_uninstalled_slot
  | takeDead (workerId : WorkerId) (leaseId : Option LeaseId) (replenish : Bool) (k : Continuation)
  | forgetSlot (workerId : WorkerId) (replenish : Bool) (k : Continuation)
  | scheduleReplenishment (k : Continuation)
  -- release_inner, release
  | releaseLock (handle : PooledWorkerHandle)
  | releaseSend (handle : PooledWorkerHandle)
  | releaseAwait (handle : PooledWorkerHandle) (answer : Option Answer)
  | releaseReset (handle : PooledWorkerHandle) (closeError : Option ToolError)
  | releaseIdleCheck (handle : PooledWorkerHandle) (outcome : Outcome)
  -- call_tool_admitted
  | callAdmission (handle : PooledWorkerHandle) (tool : String) (tracksOpen : Bool)
  | callAwait (handle : PooledWorkerHandle) (tool : String) (tracksOpen : Bool)
      (answer : Option Answer)
  | callSettle (handle : PooledWorkerHandle) (tool : String) (outcome : Outcome)
  -- schedule_idle_reap
  | reapStart (workerId : WorkerId)
  | reapSleep (workerId : WorkerId) (sleepStarted : ℕ)
  | reapScan (workerId : WorkerId) (sleepStarted : ℕ) (rest : List WorkerId) (liveCount : ℕ)
  -- shutdown_all
  | beginShutdown
  | awaitStartups
  | killSlots
  | awaitKills (tasks : List TaskId)
  | done (outcome : Outcome)

/-- A spawned task is detached: no client can drop it. -/
structure Task where
  position : Position
  detached : Bool

structure State where
  children : List WorkerId
  spawning : List WorkerId
  nextId : WorkerId
  nextLeaseId : LeaseId
  shuttingDown : Bool
  /-- The task that holds the pool mutex from one step to the next. -/
  poolLock : Option TaskId
  now : ℕ
  slot : WorkerId → ChildSlot
  /-- The handles that leases have returned. -/
  issued : List PooledWorkerHandle
  task : TaskId → Option Task
  nextTask : TaskId

def newSlot (state : ChildState) (now : ℕ) : ChildSlot :=
  { state, lastUsed := now, callLock := none, transportClosed := false, database := none,
    requests := [] }

def Purpose.initialState : Purpose → ChildState
  | .lease sessionId leaseId => .leased sessionId leaseId
  | .minimum => .idle

def Purpose.handle (purpose : Purpose) (workerId : WorkerId) : Option PooledWorkerHandle :=
  match purpose with
  | .lease sessionId leaseId => some ⟨workerId, sessionId, leaseId, false⟩
  | .minimum => none

def Continuation.position : Continuation → Position
  | .stop outcome | .guarded _ outcome | .settleCall _ outcome => .done outcome
  | .settleRelease h outcome => .releaseIdleCheck h outcome
  | .unreserve w outcome => .unreserve w outcome

def Continuation.callLock : Continuation → Option WorkerId
  | .settleCall h _ | .settleRelease h _ => some h.workerId
  | .stop _ | .guarded _ _ | .unreserve _ _ => none

def minReplenished (cfg : WorkerPoolConfig) : ℕ := min cfg.minWorkers cfg.maxWorkers

def warmed (cfg : WorkerPoolConfig) : State where
  children := List.range (minReplenished cfg)
  spawning := []
  nextId := minReplenished cfg
  nextLeaseId := 0
  shuttingDown := false
  poolLock := none
  now := 0
  slot := fun w => newSlot (if w < minReplenished cfg then .idle else .dead) 0
  issued := []
  task := fun _ => none
  nextTask := 0

namespace State

variable (s : State)

def setSlot (w : WorkerId) (slot : ChildSlot) : State :=
  { s with slot := Function.update s.slot w slot }

def setState (w : WorkerId) (state : ChildState) : State := s.setSlot w { s.slot w with state }

def useSlot (w : WorkerId) (state : ChildState) : State :=
  s.setSlot w { s.slot w with state, lastUsed := s.now }

def setCallLock (w : WorkerId) (callLock : Option TaskId) : State :=
  s.setSlot w { s.slot w with callLock }

def setRequests (w : WorkerId) (requests : List Request) : State :=
  s.setSlot w { s.slot w with requests }

def setDatabase (w : WorkerId) (database : Option LeaseId) : State :=
  s.setSlot w { s.slot w with database }

def setPoolLock (poolLock : Option TaskId) : State := { s with poolLock }

def setChildren (children : List WorkerId) : State := { s with children }

def setSpawning (spawning : List WorkerId) : State := { s with spawning }

def forget (workerIds : List WorkerId) : State :=
  s.setChildren (s.children.filter (· ∉ workerIds))

def unreserve (w : WorkerId) : State := s.setSpawning (s.spawning.filter (· ≠ w))

/-- `reserve_spawn_slot_locked`: the worker reserved is the old `nextId`. -/
def reserve : State := { s with spawning := s.spawning ++ [s.nextId], nextId := s.nextId + 1 }

def setTask (t : TaskId) (task : Option Task) : State :=
  { s with task := Function.update s.task t task }

def goto (t : TaskId) (position : Position) : State :=
  s.setTask t ((s.task t).map fun task => { task with position })

def spawn (position : Position) (detached : Bool) : State :=
  { s.setTask s.nextTask (some ⟨position, detached⟩) with nextTask := s.nextTask + 1 }

def issue (h : PooledWorkerHandle) : State := { s with issued := s.issued ++ [h] }

def stateOf (w : WorkerId) : ChildState := (s.slot w).state

def isLive (w : WorkerId) : Bool := s.stateOf w ≠ .dead

def liveCount : ℕ := s.children.countP s.isLive

variable (w w' : WorkerId)

theorem stateOf_setSlot (slot : ChildSlot) :
    (s.setSlot w slot).stateOf w' = if w' = w then slot.state else s.stateOf w' := by
  simp only [stateOf, setSlot, Function.update_apply]
  split_ifs <;> rfl

theorem stateOf_setSlot_of_eq {slot : ChildSlot} (h : slot.state = s.stateOf w) :
    (s.setSlot w slot).stateOf w' = s.stateOf w' := by
  rw [stateOf_setSlot]
  split_ifs with hw
  · rw [hw, h]
  · rfl

theorem stateOf_setState (state : ChildState) :
    (s.setState w state).stateOf w' = if w' = w then state else s.stateOf w' :=
  stateOf_setSlot s w w' _

theorem stateOf_useSlot (state : ChildState) :
    (s.useSlot w state).stateOf w' = if w' = w then state else s.stateOf w' :=
  stateOf_setSlot s w w' _

@[simp] theorem stateOf_setCallLock (callLock : Option TaskId) :
    (s.setCallLock w callLock).stateOf w' = s.stateOf w' :=
  stateOf_setSlot_of_eq s w w' rfl

@[simp] theorem stateOf_setRequests (requests : List Request) :
    (s.setRequests w requests).stateOf w' = s.stateOf w' :=
  stateOf_setSlot_of_eq s w w' rfl

end State

end IdaMcp.Pool
