import IdaMcp.Pool.Step

namespace IdaMcp.Workspace

open Foundation Remote Pool

abbrev DatabaseId := SessionId

abbrev DatabaseGeneration := ℕ

abbrev OperationId := ℕ

structure Config where
  pool : WorkerPoolConfig
  /-- Why a reply does not deserialize to a `DbInfo`, if it does not. -/
  dbInfoError : CallToolResult → Option String

structure PooledDatabaseLease where
  handle : PooledWorkerHandle
  generation : DatabaseGeneration
deriving DecidableEq, Repr

structure WorkspaceDatabase where
  sharedHttp : Bool
  /-- The operation that holds the mutex of `handle` from one step to the next. -/
  lock : Option OperationId
  handle : Option PooledDatabaseLease
  nextDatabaseGeneration : ℕ

inductive Result
  | opened (generation : DatabaseGeneration) (database : Option LeaseId)
  | failed (error : ToolError)
  | finished

inductive Stage
  | retireStale
  | lease (generation : DatabaseGeneration)
  | openCall (handle : PooledWorkerHandle) (generation : DatabaseGeneration) (freshLease : Bool)
  | call (handle : PooledWorkerHandle) (generation : DatabaseGeneration) (tool : String)
  | finish (result : Result)

inductive Position
  -- open_observed_with_generation, lease_for_open
  | leaseForOpen
  | settleStale
  | acquire
  | closeIfGeneration (generation : DatabaseGeneration) (freshLease : Bool) (error : ToolError)
  -- dispatch_result_observed
  | requiredHandle (expected : Option DatabaseGeneration) (tool : String)
  | clearHandle (handle : PooledWorkerHandle) (generation : DatabaseGeneration) (guarded : Bool)
  -- close, close_authorized, close_if_generation, drop
  | takeHandle (expected : Option DatabaseGeneration)
  -- lease_reap_decision, mark_dead
  | reapDecision
  | await (t : TaskId) (stage : Stage)
  | done (result : Result)

structure Operation where
  database : DatabaseId
  position : Position
  /-- A spawned operation is detached: no client can drop it. -/
  detached : Bool

structure State where
  pool : Pool.State
  database : DatabaseId → WorkspaceDatabase
  operation : OperationId → Option Operation
  nextOperation : OperationId

inductive Request
  | openIdb
  | call (expected : Option DatabaseGeneration) (tool : String)
  | close (expected : Option DatabaseGeneration)
  | dropDatabase
  | reap

inductive Action
  | start (d : DatabaseId) (request : Request)
  | run (u : OperationId) (choice : Choice)
  | drop (u : OperationId)
  | pool (a : Pool.Action)

def Request.position : Request → Position
  | .openIdb => .leaseForOpen
  | .call expected tool => .requiredHandle expected tool
  | .close expected => .takeHandle expected
  | .dropDatabase => .takeHandle none
  | .reap => .reapDecision

def Request.detached : Request → Bool
  | .dropDatabase | .reap => true
  | .openIdb | .call _ _ | .close _ => false

def initial (cfg : Config) (sharedHttp : DatabaseId → Bool) : State where
  pool := warmed cfg.pool
  database := fun d => ⟨sharedHttp d, none, none, 0⟩
  operation := fun _ => none
  nextOperation := 0

namespace State

variable (s : State)

def setDatabase (d : DatabaseId) (database : WorkspaceDatabase) : State :=
  { s with database := Function.update s.database d database }

def setHandle (d : DatabaseId) (handle : Option PooledDatabaseLease) : State :=
  s.setDatabase d { s.database d with handle }

def setLock (d : DatabaseId) (lock : Option OperationId) : State :=
  s.setDatabase d { s.database d with lock }

def setOperation (u : OperationId) (operation : Option Operation) : State :=
  { s with operation := Function.update s.operation u operation }

def goto (u : OperationId) (position : Position) : State :=
  s.setOperation u ((s.operation u).map fun operation => { operation with position })

end State

def await (cfg : Config) (s : State) (u : OperationId) (operation : Pool.Operation) (stage : Stage) :
    Option State :=
  (Pool.step cfg.pool s.pool (.start operation)).map fun pool =>
    { s with pool }.goto u (.await s.pool.nextTask stage)

def PooledDatabaseLease.healthy (lease : PooledDatabaseLease) (pool : Pool.State) : Bool :=
  (pool.stateOf lease.handle.workerId).belongsToLease lease.handle.leaseId &&
    !(pool.slot lease.handle.workerId).transportClosed

def leaseForOpen (cfg : Config) (s : State) (u : OperationId) (d : DatabaseId) : Option State :=
  if (s.database d).lock = none then
    match (s.database d).handle with
    | some lease =>
      if lease.healthy s.pool then
        await cfg s u (.call lease.handle "open_idb" true)
          (.openCall lease.handle lease.generation false)
      else some ((s.setLock d (some u)).goto u .settleStale)
    | none => some ((s.setLock d (some u)).goto u .acquire)
  else none

def settleStale (cfg : Config) (s : State) (u : OperationId) (d : DatabaseId) : Option State :=
  match (s.database d).handle with
  | some lease =>
    if (s.pool.slot lease.handle.workerId).callLock = none then
      await cfg (s.setHandle d none) u (.markDeadForLease lease.handle false) .retireStale
    else none
  | none => some ((s.setLock d none).goto u (.done (.failed .noDatabaseOpen)))

def acquire (cfg : Config) (s : State) (u : OperationId) (d : DatabaseId) (choice : Choice) :
    Option State :=
  let generation := (s.database d).nextDatabaseGeneration + 1
  let s := s.setDatabase d { s.database d with nextDatabaseGeneration := generation }
  match choice with
  | .proceed => await cfg s u (.lease d) (.lease generation)
  | .refused .busy => some ((s.setLock d none).goto u (.done (.failed .busy)))
  | _ => none

/-- The lease returned is installed with its open dispatched to it. -/
def leased (cfg : Config) (s : State) (u : OperationId) (d : DatabaseId)
    (generation : DatabaseGeneration) (handle : PooledWorkerHandle) : Option State :=
  let handle := { handle with preserveOnCancel := (s.database d).sharedHttp }
  await cfg ((s.setLock d none).setHandle d (some ⟨handle, generation⟩)) u
    (.call handle "open_idb" true) (.openCall handle generation true)

def openError (cfg : Config) : Outcome → Option ToolError
  | .reply result =>
    (resultError result "open_idb").or ((cfg.dbInfoError result).map .remoteProtocol)
  | .error error => some error
  | .leased _ | .finished => none

def openCalled (cfg : Config) (s : State) (u : OperationId) (handle : PooledWorkerHandle)
    (generation : DatabaseGeneration) (freshLease : Bool) (outcome : Outcome) : State :=
  match openError cfg outcome with
  | none => s.goto u (.done (.opened generation (s.pool.slot handle.workerId).database))
  | some error =>
    if openErrorReleasesLease freshLease error then
      s.goto u (.closeIfGeneration generation freshLease error)
    else s.goto u (.done (.failed error))

/-- Whether a call that has ended with an outcome unbinds its worker, and then whether it retires it. -/
def callLoss (tool : String) : Outcome → Option Bool
  | .reply result =>
    if (resultError result tool).any (childToolErrorRetiresWorker tool) then some true else none
  | .error (.remoteCall _) => none
  | .error error => if error.wasNeverDispatched then none else some false
  | .leased _ | .finished => none

def called (s : State) (u : OperationId) (handle : PooledWorkerHandle)
    (generation : DatabaseGeneration) (tool : String) (outcome : Outcome) : State :=
  match callLoss tool outcome with
  | none => s.goto u (.done .finished)
  | some guarded => s.goto u (.clearHandle handle generation guarded)

def settle (cfg : Config) (s : State) (u : OperationId) (d : DatabaseId) (stage : Stage)
    (outcome : Outcome) : Option State :=
  match stage, outcome with
  | .retireStale, _ => some (s.goto u .acquire)
  | .lease generation, .leased handle => leased cfg s u d generation handle
  | .lease _, .error error => some ((s.setLock d none).goto u (.done (.failed error)))
  | .lease _, _ => none
  | .openCall handle generation freshLease, outcome =>
    some (openCalled cfg s u handle generation freshLease outcome)
  | .call handle generation tool, outcome => some (called s u handle generation tool outcome)
  | .finish result, _ => some (s.goto u (.done result))

def leaseTimedOut (secs : UInt64) : ToolError :=
  .neverDispatched ("timed out after " ++ toString secs.toNat ++ " seconds waiting for an IDA " ++
    "worker to start; no database request was dispatched, retry open_idb")

/-- An operation polls the pool task that it awaits, unless the pool runs that task itself. -/
def poll (cfg : Config) (s : State) (u : OperationId) (d : DatabaseId) (t : TaskId) (stage : Stage)
    (choice : Choice) : Option State :=
  match s.pool.task t, stage, choice with
  | some ⟨_, false⟩, .lease _, .timedOut secs =>
    (Pool.step cfg.pool s.pool (.drop t)).map fun pool =>
      ({ s with pool }.setLock d none).goto u (.done (.failed (leaseTimedOut secs)))
  | some ⟨_, false⟩, stage, choice =>
    (Pool.step cfg.pool s.pool (.run t choice)).bind fun pool =>
      match (pool.task t).map Task.position with
      | some (.done outcome) => settle cfg { s with pool } u d stage outcome
      | _ => some { s with pool }
  | some ⟨.done outcome, true⟩, stage, .proceed => settle cfg s u d stage outcome
  | _, _, _ => none

def release (cfg : Config) (s : State) (u : OperationId) (d : DatabaseId)
    (expected : Option DatabaseGeneration) (result : Result) : Option State :=
  if (s.database d).lock = none then
    match (s.database d).handle with
    | some lease =>
      if expected.all (· = lease.generation) then
        await cfg (s.setHandle d none) u (.release lease.handle) (.finish result)
      else some (s.goto u (.done result))
    | none => some (s.goto u (.done result))
  else none

def requiredHandle (cfg : Config) (s : State) (u : OperationId) (d : DatabaseId)
    (expected : Option DatabaseGeneration) (tool : String) : Option State :=
  if (s.database d).lock = none then
    match (s.database d).handle with
    | some lease =>
      if expected.all (· = lease.generation) then
        await cfg s u (.call lease.handle tool false) (.call lease.handle lease.generation tool)
      else some (s.goto u (.done (.failed .databaseReplaced)))
    | none => some (s.goto u (.done (.failed .noDatabaseOpen)))
  else none

def clearHandleIfLease (s : State) (d : DatabaseId) (workerId : WorkerId)
    (generation : DatabaseGeneration) : State :=
  if (s.database d).handle.any fun lease =>
      lease.handle.workerId = workerId && lease.generation = generation then
    s.setHandle d none
  else s

def clearHandle (cfg : Config) (s : State) (u : OperationId) (d : DatabaseId)
    (handle : PooledWorkerHandle) (generation : DatabaseGeneration) (guarded : Bool) : Option State :=
  if (s.database d).lock = none then
    let s := clearHandleIfLease s d handle.workerId generation
    if guarded then await cfg s u (.markDeadForLease handle true) (.finish .finished)
    else some (s.goto u (.done .finished))
  else none

def reapDecision (cfg : Config) (s : State) (u : OperationId) (d : DatabaseId) : Option State :=
  match (s.database d).lock, (s.database d).handle with
  | none, some lease =>
    if s.pool.stateOf lease.handle.workerId = .dead ∨
        (s.pool.slot lease.handle.workerId).transportClosed then
      await cfg (s.setHandle d none) u (.markDead lease.handle) (.finish .finished)
    else some (s.goto u (.done .finished))
  | _, _ => some (s.goto u (.done .finished))

def next (cfg : Config) (s : State) (u : OperationId) (d : DatabaseId) (position : Position)
    (choice : Choice) : Option State :=
  match position with
  | .leaseForOpen => leaseForOpen cfg s u d
  | .settleStale => settleStale cfg s u d
  | .acquire => acquire cfg s u d choice
  | .closeIfGeneration generation _ error => release cfg s u d (some generation) (.failed error)
  | .requiredHandle expected tool => requiredHandle cfg s u d expected tool
  | .clearHandle handle generation guarded => clearHandle cfg s u d handle generation guarded
  | .takeHandle expected => release cfg s u d expected .finished
  | .reapDecision => reapDecision cfg s u d
  | .await t stage => poll cfg s u d t stage choice
  | .done _ => none

/-- What is left of a dropped operation: the mutex that it held is free, and the pool task that it
awaited is dropped with it unless the pool runs that task itself. -/
def dropOperation (cfg : Config) (s : State) (u : OperationId) (operation : Operation) :
    Option State :=
  let d := operation.database
  let s := (if (s.database d).lock = some u then s.setLock d none else s).setOperation u none
  match operation.position with
  | .await t _ =>
    match s.pool.task t with
    | some ⟨_, false⟩ => (Pool.step cfg.pool s.pool (.drop t)).map fun pool => { s with pool }
    | _ => some s
  | .clearHandle handle _ true =>
    (Pool.step cfg.pool s.pool (.start (.markDeadForLease handle false))).map fun pool =>
      { s with pool }
  | .done _ => none
  | _ => some s

def State.owned (s : State) (t : TaskId) : Bool :=
  (List.range s.nextOperation).any fun u =>
    match (s.operation u).map Operation.position with
    | some (.await t' _) => t' = t
    | _ => false

/-- What `handle_open` does to the database of its child, which it never closes. -/
def openEffect (database : Option LeaseId) (answer : Answer) : ChildEffect :=
  match database, answer with
  | none, .result result => if result.isError = some true then .keep else .opens
  | _, _ => .keep

def openAnswered (pool : Pool.State) (w : WorkerId) (request : Pool.Request) (answer : Answer)
    (effect : ChildEffect) : Bool :=
  match answer with
  | .result result =>
    isSdkCrash result || effect = openEffect (pool.slot w).database answer || request.tool ≠ "open_idb"
  | .rejected _ => effect = .keep || request.tool ≠ "open_idb"

def poolStep (cfg : Config) (s : State) (a : Pool.Action) : Option State :=
  let allowed :=
    match a with
    | .run t _ => (s.pool.task t).any Task.detached || !s.owned t
    | .childAnswer w request answer effect => openAnswered s.pool w request answer effect
    | .start .shutdownAll | .closeTransport _ | .tick _ => true
    | .start _ | .drop _ => false
  if allowed then (Pool.step cfg.pool s.pool a).map fun pool => { s with pool } else none

def step (cfg : Config) (s : State) : Action → Option State
  | .start d request =>
    some { s.setOperation s.nextOperation (some ⟨d, request.position, request.detached⟩) with
      nextOperation := s.nextOperation + 1 }
  | .run u choice =>
    match s.operation u with
    | some operation => next cfg s u operation.database operation.position choice
    | none => none
  | .drop u =>
    match s.operation u with
    | some operation => if operation.detached then none else dropOperation cfg s u operation
    | none => none
  | .pool a => poolStep cfg s a

end IdaMcp.Workspace
