import IdaMcp.Dsc.Idat
import IdaMcp.Handle.Loss

namespace IdaMcp.OpenDsc

open Foundation Handle Tasks

inductive Path
  | direct
  | directRawDsc
  | legacyIdat
deriving DecidableEq, Repr

structure Plan where
  path : Path
  module : String
  frameworks : List String
  client : Client

def Plan.background (plan : Plan) : Bool := plan.path ≠ .direct

def Plan.loadImagesWithDscu (plan : Plan) : Bool := plan.path ≠ .legacyIdat

inductive Reason
  | toolError (error : ToolError)
  | cancellation
deriving DecidableEq, Repr

/-- The calls that a run awaits are calls on its workspace database. -/
inductive Position
  | waiting
  | preparing
  | opening (u : CallId)
  | loadingModule (generation : ℕ) (u : CallId)
  | nextFramework (generation : ℕ) (rest : List String)
  | loadingFramework (generation : ℕ) (u : CallId) (framework : String) (rest : List String)
  | fetchingStatus (generation : ℕ) (u : CallId)
  | granting (generation : ℕ)
  | deciding (generation : ℕ)
  | closing (generation : ℕ) (u : CallId) (reason : Reason)
  | ended (generation : Option ℕ) (error : Bool)
deriving DecidableEq, Repr

namespace Position

def awaits : Position → Option CallId
  | opening u | loadingModule _ u | loadingFramework _ u _ _ | fetchingStatus _ u | closing _ u _ => some u
  | _ => none

def generation : Position → Option ℕ
  | loadingModule g _ | nextFramework g _ | loadingFramework g _ _ _ | fetchingStatus g _ | granting g
  | deciding g | closing g _ _ => some g
  | ended g _ => g
  | waiting | preparing | opening _ => none

end Position

structure State where
  handle : Handle.State
  /-- The call that has installed a generation. -/
  installer : ℕ → Option CallId
  openCall : Option CallId
  position : Position
  task : TaskEntry
  cancelled : Bool

inductive Action
  | handle (a : Handle.Action)
  | advance (now : ℕ) (report : Value)
  | prepared (settlement : Option Dsc.Settlement) (now : ℕ)
  | grant (token : Option String)
  | requestCancel (message : String) (now : ℕ)
  | cancel
  | abandon

def startedTask (id : String) (owner : TaskOwner) (createdAt : ℕ) : TaskEntry :=
  .new owner {
    id
    status := .running
    message := "DSC loading"
    result := none
    createdAt
    updatedAt := createdAt
    key := some id }

def initial (sharedHttp : Bool) (plan : Plan) : State where
  handle := Handle.initial sharedHttp
  installer := fun _ => none
  openCall := none
  position := .waiting
  task := startedTask "dsc" plan.client.owner 0
  cancelled := false

def toolErrorValue (error : ToolError) : Value :=
  .object [("content", .array [.object [("type", .string "text"), ("text", .string error.display)]]),
    ("isError", .bool true)]

def sessionShutdown : String := "Cancelled by session shutdown"

def openSettled : String := "Cancelled after the DSC open operation settled"

def workerLost : String := "Cancelled after the worker was lost"

def failedSettled : String := "Cancelled after the failed DSC operation settled"

def closedAfterCancel : String :=
  "Cancelled after the active DSC operation settled and its database closed"

def replacedAfterCancel : String :=
  "Cancelled after the active DSC operation settled; its database generation was already replaced"

def cleanupFailed (error closeError : ToolError) (generation : ℕ) : String :=
  error.display ++ "; cleanup failed for database generation " ++ toString generation ++ ": " ++
    closeError.display

def cancellationCleanupFailed (closeError : ToolError) (generation : ℕ) : String :=
  "Cancellation cleanup failed for database generation " ++ toString generation ++ ": " ++
    closeError.display

def moduleLoadFailed (module : String) (error : ToolError) : ToolError :=
  .idaError ("Failed to load DSC module " ++ module ++ ": " ++ error.display)

def frameworkLoadFailed (framework : String) (error : ToolError) : ToolError :=
  .idaError ("Failed to load DSC framework " ++ framework ++ ": " ++ error.display)

section Steps

variable (cfg : Config) (plan : Plan) (s : State) (now : ℕ)

def goto (position : Position) : State := { s with position }

def settle (task : TaskEntry) (generation : Option ℕ) : State :=
  { s with task, position := .ended generation true }

def completeWithCancelToken (value : Value) (cancelMessage : String) : TaskEntry :=
  if s.cancelled then (s.task.finishCancelled cancelMessage now).2 else (s.task.complete value now).2

def completeBackgroundToolError (error : ToolError) (cancelMessage : String) : TaskEntry :=
  if error.isFatal then (s.task.completeAfterFatalError (toolErrorValue error) now).2
  else completeWithCancelToken s now (toolErrorValue error) cancelMessage

/-- Who has installed the generation that is installed in `t`, if it is new. -/
def installerAfter (a : Handle.Action) (t : Handle.State) : ℕ → Option CallId :=
  match t.database.handle with
  | some lease =>
    if s.handle.database.nextDatabaseGeneration < lease.generation then
      Function.update s.installer lease.generation (some (a.actor s.handle))
    else s.installer
  | none => s.installer

def handleStep (a : Handle.Action) : Option State :=
  (Handle.step cfg s.handle a).map fun t => { s with handle := t, installer := installerAfter s a t }

def startCall (request : Request) (position : CallId → Position) : Option State :=
  (handleStep cfg s (.start request)).map fun t => goto t (position s.handle.nextCall)

def startOpen : Option State :=
  (startCall cfg s (.openIdb plan.client) .opening).map fun t => { t with openCall := some s.handle.nextCall }

def loadTool : String := "dsc_add_dylib"

def statusTool : String := "analysis_status"

def startLoad (generation : ℕ) (position : CallId → Position) : Option State :=
  startCall cfg s (.call loadTool (some generation)) position

def startClose (generation : ℕ) (reason : Reason) : Option State :=
  startCall cfg s (.closeIfGeneration generation) fun u => .closing generation u reason

def startStatus (generation : ℕ) : Option State :=
  startCall cfg s (.call statusTool (some generation)) (.fetchingStatus generation)

def returnedTo (tool : String) (generation : ℕ) (u : CallId) : Option (Except ToolError Value) :=
  match s.handle.call u with
  | some (.returned purpose _ result) =>
    if purpose = .tool tool (some generation) then some result else none
  | _ => none

def openedBy (u : CallId) : Option (Except ToolError ℕ) :=
  match s.handle.call u with
  | some (.granting _ generation _) => some (.ok generation)
  | some (.closed (.error error)) => some (.error error)
  | _ => none

def opened (outcome : Except ToolError ℕ) : Option State :=
  match outcome with
  | .ok generation =>
    if plan.background && s.cancelled then startClose cfg s generation .cancellation
    else if plan.loadImagesWithDscu then startLoad cfg s generation (.loadingModule generation)
    else some (goto s (.granting generation))
  | .error error =>
    if plan.background then some (settle s (completeBackgroundToolError s now error openSettled) none)
    else some (goto s (.ended none true))

/-- The end of a load on the background path: a fatal error, a cancellation or another error end the
run. -/
def loadedInBackground (generation : ℕ) (result : Except ToolError Value)
    (describe : ToolError → ToolError) (loaded : Option State) : Option State :=
  match result with
  | .error error =>
    if error.isFatal then
      some (settle s (completeBackgroundToolError s now error workerLost) (some generation))
    else if s.cancelled then startClose cfg s generation .cancellation
    else startClose cfg s generation (.toolError (describe error))
  | .ok _ => if s.cancelled then startClose cfg s generation .cancellation else loaded

def moduleLoaded (generation : ℕ) (result : Except ToolError Value) : Option State :=
  let loaded := some (goto s (.nextFramework generation plan.frameworks))
  if plan.background then
    loadedInBackground cfg s now generation result (moduleLoadFailed plan.module) loaded
  else
    match result with
    | .ok _ => loaded
    | .error (.notSupported _) => startStatus cfg s generation
    | .error _ => some (goto s (.ended (some generation) true))

def nextFramework (generation : ℕ) : List String → Option State
  | [] => startStatus cfg s generation
  | framework :: rest =>
    if plan.background && s.cancelled then startClose cfg s generation .cancellation
    else startLoad cfg s generation fun u => .loadingFramework generation u framework rest

def frameworkLoaded (generation : ℕ) (framework : String) (rest : List String)
    (result : Except ToolError Value) : Option State :=
  let loaded := some (goto s (.nextFramework generation rest))
  if plan.background then
    loadedInBackground cfg s now generation result (frameworkLoadFailed framework) loaded
  else
    match result with
    | .ok _ => loaded
    | .error _ => some (goto s (.ended (some generation) true))

def statusFetched (generation : ℕ) (result : Except ToolError Value) : Option State :=
  match result with
  | .error error =>
    if error.isFatal then
      if plan.background then
        some (settle s (completeBackgroundToolError s now error workerLost) (some generation))
      else some (goto s (.ended (some generation) true))
    else if plan.background && s.cancelled then startClose cfg s generation .cancellation
    else some (goto s (.granting generation))
  | .ok _ =>
    if plan.background && s.cancelled then startClose cfg s generation .cancellation
    else some (goto s (.granting generation))

def decide (generation : ℕ) (report : Value) : Option State :=
  if plan.background then
    if s.cancelled || s.task.cancelRequested.isSome then startClose cfg s generation .cancellation
    else some { s with task := (s.task.complete report now).2, position := .ended (some generation) false }
  else some (goto s (.ended (some generation) false))

def closed (generation : ℕ) (reason : Reason) (result : Except ToolError Closed) : State :=
  match reason, result with
  | .toolError error, .ok _ =>
    settle s (completeBackgroundToolError s now error failedSettled) (some generation)
  | .toolError error, .error closeError =>
    settle s (s.task.failAfterCleanupError (cleanupFailed error closeError generation) now).2 (some generation)
  | .cancellation, .ok .notCurrent =>
    settle s (s.task.finishCancelled replacedAfterCancel now).2 (some generation)
  | .cancellation, .ok _ =>
    settle s (s.task.finishCancelled closedAfterCancel now).2 (some generation)
  | .cancellation, .error closeError =>
    settle s (s.task.failAfterCleanupError (cancellationCleanupFailed closeError generation) now).2
      (some generation)

def advance (report : Value) : Option State :=
  match s.position with
  | .waiting =>
    if plan.background then
      if s.cancelled then some (settle s (s.task.finishCancelled sessionShutdown now).2 none)
      else some (goto s .preparing)
    else startOpen cfg plan s
  | .preparing => none
  | .opening u => (openedBy s u).bind (opened cfg plan s now)
  | .loadingModule generation u => (returnedTo s loadTool generation u).bind (moduleLoaded cfg plan s now generation)
  | .nextFramework generation rest => nextFramework cfg plan s generation rest
  | .loadingFramework generation u framework rest =>
    (returnedTo s loadTool generation u).bind (frameworkLoaded cfg plan s now generation framework rest)
  | .fetchingStatus generation u =>
    (returnedTo s statusTool generation u).bind (statusFetched cfg plan s now generation)
  | .granting generation =>
    if plan.background && s.cancelled then startClose cfg s generation .cancellation else none
  | .deciding generation => decide cfg plan s now generation report
  | .closing generation u reason =>
    match s.handle.call u with
    | some (.closed result) => some (closed s now generation reason result)
    | _ => none
  | .ended _ _ => none

def prepared (settlement : Option Dsc.Settlement) : Option State :=
  if s.position = .preparing then
    match settlement with
    | none => startOpen cfg plan s
    | some (.finishCancelled message) =>
      if s.cancelled then some (settle s (s.task.finishCancelled message now).2 none) else none
    | some (.fail error) => some (settle s (s.task.fail error now).2 none)
    | some (.toolError error cancelMessage) =>
      if error.isFatal then none
      else some (settle s (completeBackgroundToolError s now error cancelMessage) none)
  else none

def grant (token : Option String) : Option State :=
  match s.position, token, s.openCall with
  | .granting generation, none, _ =>
    if plan.background && s.cancelled then none else some (goto s (.deciding generation))
  | .granting generation, some fresh, some u =>
    if plan.background && s.cancelled then none
    else
      (handleStep cfg s (.run u (.token fresh))).map fun t => goto t (.deciding generation)
  | _, _, _ => none

/-- No client drops a call that the run awaits, and the run alone goes on with its open. -/
def allows (a : Handle.Action) : Bool :=
  match a with
  | .start _ => true
  | .drop u => s.openCall ≠ some u && s.position.awaits ≠ some u
  | .run u _ =>
    match s.handle.call u with
    | some (.granting _ _ _) | some (.spawning _ _ _ _) => s.openCall ≠ some u
    | _ => true

end Steps

def step (cfg : Config) (plan : Plan) (s : State) : Action → Option State
  | .handle a =>
    if allows s a then handleStep cfg s a else none
  | .advance now report => advance cfg plan s now report
  | .prepared settlement now => prepared cfg plan s now settlement
  | .grant token => grant cfg plan s token
  | .requestCancel message now =>
    if plan.background then some { s with task := (s.task.requestCancel message now).2 } else none
  | .cancel => if plan.background then some { s with cancelled := true } else none
  | .abandon =>
    -- the request of the direct path is gone, and with it the call that it awaits
    if plan.background then none
    else
      match s.position.awaits with
      | some u =>
        (handleStep cfg s (.drop u)).map fun t => { goto t (.ended none false) with openCall := none }
      | none => none

end IdaMcp.OpenDsc
