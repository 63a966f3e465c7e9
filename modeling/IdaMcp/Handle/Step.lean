import IdaMcp.Handle.Database
import IdaMcp.Tasks.Registry

namespace IdaMcp.Handle

open Foundation Pool Remote Tasks

structure DbInfo where
  autoIsOk : Bool

structure Config where
  dbInfo : CallToolResult → Except String DbInfo
  value : CallToolResult → Except String Value

def remoteProtocol {α : Type} : Except String α → Except ToolError α
  | .ok a => .ok a
  | .error detail => .error (.remoteProtocol detail)

namespace Config

variable (cfg : Config) (result : CallToolResult) (tool : String)

def parseDbInfo : Except ToolError DbInfo :=
  match resultError result tool with
  | some error => .error error
  | none => remoteProtocol (cfg.dbInfo result)

def parseValue : Except ToolError Value :=
  match resultError result tool with
  | some error => .error error
  | none => remoteProtocol (cfg.value result)

end Config

structure Client where
  sessionId : String
  owner : TaskOwner
  routeToBackground : Bool
deriving DecidableEq, Repr

inductive AnalysisTask
  | started (id : CallId)
  | alreadyRunning (id : CallId)
  | existingTaskIdIsPrivate
  | capacityExceeded
deriving DecidableEq, Repr

inductive Closed
  | authorized (authorization : CloseAuthorization)
  | released
  | notCurrent

/-- What a tool call is for; `started` is the generation that a background analysis was created on. -/
inductive Purpose
  | tool (name : String) (expected : Option ℕ)
  | analysis (started : Option ℕ)
deriving DecidableEq, Repr

namespace Purpose

def name : Purpose → String
  | tool name _ => name
  | analysis _ => "analyze_funcs"

def expected : Purpose → Option ℕ
  | tool _ expected => expected
  | analysis _ => none

end Purpose

inductive Call
  -- open_observed_with_generation
  | leaseForOpen (client : Client)
  | settleStale (client : Client)
  | acquire (client : Client)
  | opening (client : Client) (served : Served) (freshLease : Bool)
  -- open_idb
  | granting (client : Client) (generation : ℕ) (info : DbInfo)
  | spawning (client : Client) (generation : ℕ) (info : DbInfo)
      (grant : Option (Except String CloseTokenGrant))
  | opened (generation : ℕ) (grant : Option (Except String CloseTokenGrant))
      (analysis : Option AnalysisTask)
  -- close_authorized, close, close_if_generation
  | closeAuthorized (sessionId : String) (token : Option String) (force : Bool)
  | takeHandle (expected : Option ℕ) (absent taken : Except ToolError Closed)
  | releasing (lease : PooledDatabaseLease) (result : Except ToolError Closed)
  | closed (result : Except ToolError Closed)
  -- lease_reap_decision
  | reapDecision
  -- dispatch_result_observed
  | requiredHandle (purpose : Purpose)
  | calling (purpose : Purpose) (served : Served)
  | clearHandle (purpose : Purpose) (served : Served) (error : ToolError)
  | completing (purpose : Purpose) (served : Option Served) (result : Except ToolError CallToolResult)
  | returned (purpose : Purpose) (served : Option Served) (result : Except ToolError Value)
  -- analyze_funcs_background
  | creating (owner : TaskOwner)
  | created (task : AnalysisTask)

structure State where
  database : WorkspaceDatabase
  call : CallId → Option Call
  nextCall : CallId
  /-- The close tokens drawn, each with the generation it was issued for. -/
  issued : List (String × ℕ)
  /-- The running task with the key `analyze_funcs`. -/
  analysis : Option (CallId × TaskOwner)

inductive Request
  | openIdb (client : Client)
  | closeIdb (sessionId : String) (token : Option String) (force : Bool)
  | close
  | closeIfGeneration (generation : ℕ)
  | call (name : String) (expected : Option ℕ)
  | analyzeFuncs (owner : TaskOwner)
  | reap

/-- What a step leaves to the clients, the pool or the child. -/
inductive Choice
  | proceed
  | healthy (healthy : Bool)
  | leased (outcome : Except ToolError PooledWorkerHandle)
  | answered (outcome : Except ToolError CallToolResult)
  | released (outcome : Except ToolError Unit)
  | token (fresh : String)
  | registryFull (full : Bool)

inductive Action
  | start (request : Request)
  | run (u : CallId) (choice : Choice)
  | drop (u : CallId)

def initial (sharedHttp : Bool) : State where
  database := { sharedHttp, lock := none, handle := none, nextDatabaseGeneration := 0 }
  call := fun _ => none
  nextCall := 0
  issued := []
  analysis := none

def Request.position (sharedHttp : Bool) : Request → Call
  | openIdb client => .leaseForOpen client
  | closeIdb sessionId token force =>
    if sharedHttp then .closeAuthorized sessionId token force
    else .takeHandle none (.error .noDatabaseOpen) (.ok .released)
  | close => .takeHandle none (.error .noDatabaseOpen) (.ok .released)
  | closeIfGeneration generation => .takeHandle (some generation) (.ok .notCurrent) (.ok .released)
  | call name expected => .requiredHandle (.tool name expected)
  | analyzeFuncs owner => .creating owner
  | reap => .reapDecision

def Call.detached : Call → Bool
  | requiredHandle (.analysis _) | calling (.analysis _) _ | clearHandle (.analysis _) _ _
  | completing (.analysis _) _ _ | reapDecision => true
  | _ => false

def Call.settled : Call → Bool
  | opened _ _ _ | closed _ | returned _ _ _ | created _ => true
  | _ => false

namespace State

variable (s : State)

def goto (u : CallId) (c : Call) : State := { s with call := Function.update s.call u (some c) }

def addCall (c : Call) : State := { s.goto s.nextCall c with nextCall := s.nextCall + 1 }

def setDatabase (database : WorkspaceDatabase) : State := { s with database }

def setLock (lock : Option CallId) : State := s.setDatabase { s.database with lock }

def setHandle (handle : Option PooledDatabaseLease) : State := s.setDatabase { s.database with handle }

end State

section Steps

variable (cfg : Config) (s : State) (u : CallId)

def leaseForOpen (client : Client) (healthy : Bool) : Option State :=
  if s.database.lock = none then
    match s.database.handle with
    | some lease =>
      if healthy then some (s.goto u (.opening client lease.served false))
      else some ((s.setLock (some u)).goto u (.settleStale client))
    | none => some ((s.setLock (some u)).goto u (.acquire client))
  else none

def acquire (client : Client) (outcome : Except ToolError PooledWorkerHandle) : State :=
  match s.database.nextGeneration with
  | .error error => (s.setLock none).goto u (.closed (.error error))
  | .ok generation =>
    let s := s.setDatabase { s.database with nextDatabaseGeneration := generation, lock := none }
    match outcome with
    | .error error => s.goto u (.closed (.error error))
    | .ok handle =>
      (s.setDatabase (s.database.install handle generation)).goto u
        (.opening client ⟨{ handle with preserveOnCancel := s.database.sharedHttp }, generation⟩ true)

def openResult (outcome : Except ToolError CallToolResult) : Except ToolError DbInfo :=
  outcome.bind fun result => cfg.parseDbInfo result "open_idb"

def openAnswered (client : Client) (served : Served) (freshLease : Bool)
    (outcome : Except ToolError CallToolResult) : State :=
  match openResult cfg outcome with
  | .ok info => s.goto u (.granting client served.generation info)
  | .error error =>
    if openErrorReleasesLease freshLease error then
      s.goto u (.takeHandle (some served.generation) (.error error) (.error error))
    else s.goto u (.closed (.error error))

/-- `http_close_grant`; the tokens that are drawn are new. -/
def grant (client : Client) (generation : ℕ) (info : DbInfo) (fresh : String) :
    Option State :=
  if s.database.sharedHttp then
    if s.database.lock = none ∧ fresh ∉ s.issued.map Prod.fst then
      let result := s.database.issueCloseToken client.sessionId generation fresh
      let issued :=
        match result.2 with
        | some (.ok grant) => if grant.reused then s.issued else (grant.token, generation) :: s.issued
        | _ => s.issued
      some ({ s with database := result.1, issued }.goto u (.spawning client generation info result.2))
    else none
  else some (s.goto u (.spawning client generation info none))

def spawnAnalyzeFuncsTask (owner : TaskOwner) (full : Bool) : State × AnalysisTask :=
  match s.analysis with
  | some (id, existing) =>
    if owner ≠ .runtime ∧ existing = owner then (s, .alreadyRunning id)
    else (s, .existingTaskIdIsPrivate)
  | none =>
    if full then (s, .capacityExceeded)
    else
      ({ s.addCall (.requiredHandle (.analysis (s.database.handle.map PooledDatabaseLease.generation))) with
          analysis := some (s.nextCall, owner) }, .started s.nextCall)

def spawn (client : Client) (generation : ℕ) (info : DbInfo)
    (grant : Option (Except String CloseTokenGrant)) (full : Bool) : State :=
  if client.routeToBackground && !info.autoIsOk then
    let spawned := spawnAnalyzeFuncsTask s client.owner full
    spawned.1.goto u (.opened generation grant (some spawned.2))
  else s.goto u (.opened generation grant none)

def closeAuthorized (sessionId : String) (token : Option String) (force : Bool) : Option State :=
  if s.database.lock = none then
    let closed := s.database.closeAuthorized sessionId token force
    match closed.2 with
    | .error error => some (s.goto u (.closed (.error error)))
    | .ok (authorization, none) => some (s.goto u (.closed (.ok (.authorized authorization))))
    | .ok (authorization, some lease) =>
      some ((s.setDatabase closed.1).goto u (.releasing lease (.ok (.authorized authorization))))
  else none

def takeHandle (expected : Option ℕ) (absent taken : Except ToolError Closed) :
    Option State :=
  if s.database.lock = none then
    let result := s.database.takeHandle expected
    match result.2 with
    | some lease => some ((s.setDatabase result.1).goto u (.releasing lease taken))
    | none => some (s.goto u (.closed absent))
  else none

/-- The release of the worker may fail, which a caller that has an error already does not tell. -/
def released (result : Except ToolError Closed) (outcome : Except ToolError Unit) :
    Except ToolError Closed :=
  match result, outcome with
  | .ok _, .error error => .error error
  | result, _ => result

def reapDecision (healthy : Bool) : State :=
  if s.database.lock = none ∧ healthy = false then
    match s.database.handle with
    | some lease => (s.setHandle none).goto u (.releasing lease (.ok .released))
    | none => s.goto u (.closed (.ok .notCurrent))
  else s.goto u (.closed (.ok .notCurrent))

def requiredHandle (purpose : Purpose) : Option State :=
  if s.database.lock = none then
    match s.database.requiredHandleForGeneration purpose.expected with
    | .ok served => some (s.goto u (.calling purpose served))
    | .error error => some (s.goto u (.completing purpose none (.error error)))
  else none

/-- The result of a call that has ended with an outcome, and whether its worker is lost. -/
def dispatched (tool : String) : Except ToolError CallToolResult → Except ToolError CallToolResult × Bool
  | .ok result =>
    match resultError result tool with
    | some error => (.error error, childToolErrorRetiresWorker tool error)
    | none => (.ok result, false)
  | .error (.remoteCall error) => (.error (.remoteCall error), false)
  | .error error => (.error error, !error.wasNeverDispatched)

def answered (purpose : Purpose) (served : Served) (outcome : Except ToolError CallToolResult) : State :=
  match dispatched purpose.name outcome with
  | (.error error, true) => s.goto u (.clearHandle purpose served error)
  | (result, _) => s.goto u (.completing purpose (some served) result)

def debugStartTools : List String := ["debug_launch", "debug_attach"]

def debuggerWorkerLossError (tool : String) (error : ToolError) (debugPinned : Bool) : ToolError :=
  let uncertainStart := decide (tool ∈ debugStartTools) &&
    match error with
    | .timeout _ | .timeoutDetailed _ | .workerRetired _ => true
    | _ => false
  if debugPinned then
    .debuggerSessionLost (tool ++ " lost the worker hosting this database's debugger session (" ++
      error.display ++ "); ida-mcp no longer controls that session and the target process may still " ++
      "be running — check for a stray debuggee, then reopen the database to start a new session")
  else if uncertainStart then
    .debuggerSessionLost (tool ++ " timed out and its worker was retired (" ++ error.display ++
      "); ida-mcp cannot determine whether the debugger started before the timeout, and the target " ++
      "process may still be running — check for a stray debuggee before retrying " ++ tool)
  else error

def clearHandle (purpose : Purpose) (served : Served) (error : ToolError) : Option State :=
  if s.database.lock = none then
    let cleared := s.database.clearHandleIfLease served
    some ((s.setDatabase cleared.1).goto u (.completing purpose (some served)
      (.error (debuggerWorkerLossError purpose.name error cleared.2))))
  else none

def debugStartRetainsSession : Except ToolError Value → Bool
  | .ok (.object fields) =>
    match fields.lookup "session_retained" with
    | some (.bool retained) => retained
    | _ => false
  | .ok _ => false
  | .error (.debuggerStartRetained _) => true
  | .error _ => false

def sessionLostBeforePinning (tool : String) : ToolError :=
  .debuggerSessionLost (tool ++ " started a debugger session, but its worker was lost before the " ++
    "session could be tracked; ida-mcp no longer controls that session and the target process may " ++
    "still be running — check for a stray debuggee before retrying " ++ tool)

def pinDecision (tool : String) (result : Except ToolError Value) : Option Bool :=
  if tool ∈ debugStartTools then
    if debugStartRetainsSession result then some true else none
  else if tool = "debug_stop" then
    if result.isOk then some false else none
  else none

def finishCall (purpose : Purpose) (served : Option Served) (result : Except ToolError Value) : State :=
  let analysis :=
    match purpose with
    | .analysis _ => s.analysis.filter fun running => running.1 ≠ u
    | .tool _ _ => s.analysis
  { s with analysis }.goto u (.returned purpose served result)

def complete (purpose : Purpose) (served : Option Served) (result : Except ToolError CallToolResult) :
    Option State :=
  let parsed := result.bind fun result => cfg.parseValue result purpose.name
  match pinDecision purpose.name parsed with
  | none => some (finishCall s u purpose served parsed)
  | some pinned =>
    if s.database.lock = none then
      match served.map fun served => s.database.setDebugPinForLease served pinned with
      | some (database, true) => some (finishCall (s.setDatabase database) u purpose served parsed)
      | _ =>
        some (finishCall s u purpose served
          (if pinned then .error (sessionLostBeforePinning purpose.name) else parsed))
    else none

end Steps

def next (cfg : Config) (s : State) (u : CallId) : Call → Choice → Option State
  | .leaseForOpen client, .healthy healthy => leaseForOpen s u client healthy
  | .settleStale client, .proceed => some ((s.setHandle none).goto u (.acquire client))
  | .acquire client, .leased outcome => some (acquire s u client outcome)
  | .opening client served freshLease, .answered outcome =>
    some (openAnswered cfg s u client served freshLease outcome)
  | .granting client generation info, .token fresh => grant s u client generation info fresh
  | .spawning client generation info grant, .registryFull full =>
    some (spawn s u client generation info grant full)
  | .closeAuthorized sessionId token force, .proceed => closeAuthorized s u sessionId token force
  | .takeHandle expected absent taken, .proceed => takeHandle s u expected absent taken
  | .releasing _ result, .released outcome => some (s.goto u (.closed (released result outcome)))
  | .reapDecision, .healthy healthy => some (reapDecision s u healthy)
  | .requiredHandle purpose, .proceed => requiredHandle s u purpose
  | .calling purpose served, .answered outcome => some (answered s u purpose served outcome)
  | .clearHandle purpose served error, .proceed => clearHandle s u purpose served error
  | .completing purpose served result, .proceed => complete cfg s u purpose served result
  | .creating owner, .registryFull full =>
    let spawned := spawnAnalyzeFuncsTask s owner full
    some (spawned.1.goto u (.created spawned.2))
  | _, _ => none

def dropCall (s : State) (u : CallId) : State :=
  let s := if s.database.lock = some u then s.setLock none else s
  { s with call := Function.update s.call u none }

def step (cfg : Config) (s : State) : Action → Option State
  | .start request => some (s.addCall (request.position s.database.sharedHttp))
  | .run u choice => (s.call u).bind fun c => next cfg s u c choice
  | .drop u =>
    match s.call u with
    | some c => if c.detached || c.settled then none else some (dropCall s u)
    | none => none

end IdaMcp.Handle
