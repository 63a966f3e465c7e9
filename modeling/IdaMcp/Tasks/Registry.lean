import Mathlib.Data.String.Basic
import IdaMcp.Remote
import IdaMcp.Foundation.Assoc
import IdaMcp.Foundation.Machine

namespace IdaMcp.Tasks

open Foundation Assoc

abbrev CancellationToken := ℕ

def taskRetentionTtlMs : ℕ := 24 * 60 * 60 * 1000

def maxTaskRegistryEntries : ℕ := 256

inductive TaskOwner
  | session (id : String)
  | runtime
deriving DecidableEq, Repr

inductive TaskCreateError
  | alreadyRunning (id : String)
  | existingTaskIdIsPrivate
  | capacityExceeded (maxEntries : ℕ)
deriving DecidableEq, Repr

inductive TaskStatus
  | running
  | completed
  | failed
  | cancelled
deriving DecidableEq, Repr

inductive TaskSettlement
  | completed
  | failed
  | cancelled
  | unchanged
deriving DecidableEq, Repr

inductive TaskCompletionDecision
  | completed
  | cancellationPending
  | unchanged
deriving DecidableEq, Repr

structure TaskState where
  id : String
  status : TaskStatus
  message : String
  result : Option Value
  createdAt : ℕ
  updatedAt : ℕ
  key : Option String

structure TaskEntry where
  owner : TaskOwner
  state : TaskState
  workspaceDatabaseId : Option String
  cancelToken : Option CancellationToken
  cancelRequested : Option String

namespace TaskEntry

def new (owner : TaskOwner) (state : TaskState) : TaskEntry :=
  { owner, state, workspaceDatabaseId := none, cancelToken := none, cancelRequested := none }

def setCancelToken (e : TaskEntry) (token : CancellationToken) : List CancellationToken × TaskEntry :=
  (if e.cancelRequested.isSome then [token] else [], { e with cancelToken := some token })

def isRunning (e : TaskEntry) : Bool := e.state.status == .running

def transitionCancelled (e : TaskEntry) (message : String) (now : ℕ) : TaskEntry :=
  { e with
    cancelToken := none
    cancelRequested := none
    state := { e.state with status := .cancelled, message, updatedAt := now } }

def complete (e : TaskEntry) (result : Value) (now : ℕ) : TaskSettlement × TaskEntry :=
  if e.isRunning then
    match e.cancelRequested with
    | some message => (.cancelled, e.transitionCancelled message now)
    | none =>
      (.completed, { e with
        cancelToken := none
        state := { e.state with
          status := .completed, message := "Completed", result := some result, updatedAt := now } })
  else (.unchanged, e)

def completeAfterFatalError (e : TaskEntry) (result : Value) (now : ℕ) : TaskSettlement × TaskEntry :=
  if e.isRunning then { e with cancelRequested := none }.complete result now else (.unchanged, e)

def failAfterCleanupError (e : TaskEntry) (error : String) (now : ℕ) : TaskSettlement × TaskEntry :=
  if e.isRunning then
    (.failed, { e with
      cancelToken := none
      cancelRequested := none
      state := { e.state with status := .failed, message := error, updatedAt := now } })
  else (.unchanged, e)

def fail (e : TaskEntry) (error : String) (now : ℕ) : TaskSettlement × TaskEntry :=
  if e.isRunning then
    match e.cancelRequested with
    | some message => (.cancelled, e.transitionCancelled message now)
    | none =>
      (.failed, { e with
        cancelToken := none
        state := { e.state with status := .failed, message := error, updatedAt := now } })
  else (.unchanged, e)

def requestCancel (e : TaskEntry) (message : String) (now : ℕ) :
    (Bool × List CancellationToken) × TaskEntry :=
  if e.isRunning && e.cancelRequested.isNone then
    ((true, e.cancelToken.toList), { e with
      cancelRequested := some message
      state := { e.state with
        message := message ++ "; waiting for the operation to settle", updatedAt := now } })
  else ((false, []), e)

def finishCancelled (e : TaskEntry) (message : String) (now : ℕ) : Bool × TaskEntry :=
  if e.isRunning then (true, e.transitionCancelled message now) else (false, e)

def updateMessage (e : TaskEntry) (message : String) (now : ℕ) : TaskEntry :=
  if e.isRunning && e.cancelRequested.isNone then
    { e with state := { e.state with message, updatedAt := now } }
  else e

end TaskEntry

/-- The entries with what the operations read: how often the clock was read, which tokens are
cancelled, which UUIDs were drawn. -/
structure TaskRegistry where
  entries : List (String × TaskEntry)
  reads : ℕ
  cancelled : List CancellationToken
  drawn : List String

def nextTaskId (taskPrefix uuid : String) : String := taskPrefix ++ "-" ++ uuid

namespace TaskRegistry

def new : TaskRegistry := { entries := [], reads := 0, cancelled := [], drawn := [] }

variable (instant : ℕ → ℕ)

def now (r : TaskRegistry) : ℕ := instant r.reads

def retained (now : ℕ) (e : TaskEntry) : Bool :=
  e.isRunning || now - e.state.updatedAt < taskRetentionTtlMs

def pruneTerminalTasks (r : TaskRegistry) : TaskRegistry :=
  { r with entries := r.entries.filter fun p => retained (r.now instant) p.2, reads := r.reads + 1 }

def ageLe (p q : ℕ × String) : Bool := p.1 < q.1 || (p.1 == q.1 && p.2 ≤ q.2)

def terminalByAge (entries : List (String × TaskEntry)) : List (ℕ × String) :=
  ((entries.filter fun p => !p.2.isRunning).map fun p => (p.2.state.updatedAt, p.1)).mergeSort ageLe

def reclaimCapacityForAdmission (entries : List (String × TaskEntry)) : List (String × TaskEntry) :=
  if entries.length < maxTaskRegistryEntries then entries
  else
    let excess := entries.length - maxTaskRegistryEntries + 1
    ((terminalByAge entries).take excess).foldl (fun entries p => remove entries p.2) entries

def createKeyed (r : TaskRegistry) (owner : TaskOwner) (taskPrefix key message uuid : String) :
    Except TaskCreateError String × TaskRegistry :=
  let r := r.pruneTerminalTasks instant
  match r.entries.find? fun p => p.2.isRunning && p.2.state.key == some key with
  | some (_, existing) =>
    match owner with
    | .session _ =>
      if existing.owner = owner then (.error (.alreadyRunning existing.state.id), r)
      else (.error .existingTaskIdIsPrivate, r)
    | .runtime => (.error .existingTaskIdIsPrivate, r)
  | none =>
    let entries := reclaimCapacityForAdmission r.entries
    if maxTaskRegistryEntries ≤ entries.length then
      (.error (.capacityExceeded maxTaskRegistryEntries), { r with entries })
    else
      let id := nextTaskId taskPrefix uuid
      let now := r.now instant
      let state : TaskState := {
        id
        status := .running
        message
        result := none
        createdAt := now
        updatedAt := now
        key := some key }
      (.ok id, { r with
        entries := (id, .new owner state) :: entries
        reads := r.reads + 1
        drawn := uuid :: r.drawn })

/-- `get_mut` and what is done with the entry, before anything is pruned. -/
def update {α : Type} (r : TaskRegistry) (id : String) (absent : α) (f : TaskEntry → ℕ → α × TaskEntry) :
    α × TaskRegistry :=
  match r.entries.lookup id with
  | some e =>
    let (outcome, e) := f e (r.now instant)
    (outcome, { r with entries := replace r.entries id e, reads := r.reads + 1 })
  | none => (absent, r)

def setCancelToken (r : TaskRegistry) (id : String) (token : CancellationToken) : TaskRegistry :=
  let (tokens, r) := r.update instant id [] fun e _ => e.setCancelToken token
  { r with cancelled := tokens ++ r.cancelled }

def bindWorkspaceOpen (r : TaskRegistry) (id databaseId : String) : TaskRegistry :=
  (r.update instant id () fun e _ => ((), { e with workspaceDatabaseId := some databaseId })).2

def hasRunningWorkspaceOpen (r : TaskRegistry) (databaseId : String) : Bool × TaskRegistry :=
  let r := r.pruneTerminalTasks instant
  (r.entries.any fun p => p.2.isRunning && p.2.workspaceDatabaseId == some databaseId, r)

def get (r : TaskRegistry) (id : String) : Option TaskState × TaskRegistry :=
  let r := r.pruneTerminalTasks instant
  ((r.entries.lookup id).map TaskEntry.state, r)

def getForOwner (r : TaskRegistry) (owner : TaskOwner) (id : String) : Option TaskState × TaskRegistry :=
  let r := r.pruneTerminalTasks instant
  (((r.entries.lookup id).filter fun e => e.owner = owner).map TaskEntry.state, r)

def updateMessage (r : TaskRegistry) (id message : String) : TaskRegistry :=
  (r.update instant id () fun e now => ((), e.updateMessage message now)).2

def pruneIf (changed : Bool) (r : TaskRegistry) : TaskRegistry :=
  if changed then r.pruneTerminalTasks instant else r

def settle (r : TaskRegistry) (id : String) (f : TaskEntry → ℕ → TaskSettlement × TaskEntry) :
    TaskSettlement × TaskRegistry :=
  let (settlement, r) := r.update instant id .unchanged f
  (settlement, r.pruneIf instant (settlement != .unchanged))

def complete (r : TaskRegistry) (id : String) (result : Value) : TaskSettlement × TaskRegistry :=
  r.settle instant id fun e now => e.complete result now

def completeWithCancelToken (r : TaskRegistry) (id : String) (result : Value)
    (cancelToken : CancellationToken) (cancelMessage : String) : TaskSettlement × TaskRegistry :=
  r.settle instant id fun e now =>
    if cancelToken ∈ r.cancelled then
      let (finished, e) := e.finishCancelled cancelMessage now
      (if finished then .cancelled else .unchanged, e)
    else e.complete result now

def completeAfterFatalError (r : TaskRegistry) (id : String) (result : Value) :
    TaskSettlement × TaskRegistry :=
  r.settle instant id fun e now => e.completeAfterFatalError result now

def completeOrDeferCancellation (r : TaskRegistry) (id : String) (result : Value)
    (cancelToken : CancellationToken) : TaskCompletionDecision × TaskRegistry :=
  let (decision, r) := r.update instant id .unchanged fun e now =>
    if !e.isRunning then (.unchanged, e)
    else if cancelToken ∈ r.cancelled ∨ e.cancelRequested.isSome then (.cancellationPending, e)
    else
      match e.complete result now with
      | (.completed, e) => (.completed, e)
      | (_, e) => (.unchanged, e)
  (decision, r.pruneIf instant (decision == .completed))

def fail (r : TaskRegistry) (id error : String) : TaskSettlement × TaskRegistry :=
  r.settle instant id fun e now => e.fail error now

def failAfterCleanupError (r : TaskRegistry) (id error : String) : TaskSettlement × TaskRegistry :=
  r.settle instant id fun e now => e.failAfterCleanupError error now

def cancelForOwner (r : TaskRegistry) (owner : TaskOwner) (id : String) : Bool × TaskRegistry :=
  let ((accepted, tokens), r) := r.update instant id (false, []) fun e now =>
    if e.owner = owner then e.requestCancel "Cancelled by client" now else ((false, []), e)
  let r := { r with cancelled := tokens ++ r.cancelled }
  (accepted, r.pruneIf instant accepted)

def finishCancelled (r : TaskRegistry) (id message : String) : Bool × TaskRegistry :=
  let (finished, r) := r.update instant id false fun e now => e.finishCancelled message now
  (finished, r.pruneIf instant finished)

def requestEach (message : String) : ℕ → List (String × TaskEntry) →
    (ℕ × List CancellationToken) × List (String × TaskEntry)
  | _, [] => ((0, []), [])
  | reads, (id, e) :: entries =>
    let ((accepted, tokens), e) := e.requestCancel message (instant reads)
    let ((count, tokens'), entries) := requestEach message (reads + 1) entries
    ((accepted.toNat + count, tokens ++ tokens'), (id, e) :: entries)

def cancelAllRunning (r : TaskRegistry) (message : String) : ℕ × TaskRegistry :=
  let ((count, tokens), entries) := requestEach instant message r.reads r.entries
  let r := { r with
    entries
    reads := r.reads + r.entries.length
    cancelled := tokens ++ r.cancelled }
  (count, r.pruneIf instant (decide (0 < count)))

end TaskRegistry

/-- The operations, and what their surroundings do: a token may be cancelled by another of its
holders, and a hash map may list its entries in another order each time. -/
inductive Action
  | createKeyed (owner : TaskOwner) (taskPrefix key message uuid : String)
  | setCancelToken (id : String) (token : CancellationToken)
  | bindWorkspaceOpen (id databaseId : String)
  | hasRunningWorkspaceOpen (databaseId : String)
  | get (id : String)
  | getForOwner (owner : TaskOwner) (id : String)
  | updateMessage (id message : String)
  | complete (id : String) (result : Value)
  | completeWithCancelToken (id : String) (result : Value) (token : CancellationToken)
      (cancelMessage : String)
  | completeAfterFatalError (id : String) (result : Value)
  | completeOrDeferCancellation (id : String) (result : Value) (token : CancellationToken)
  | fail (id error : String)
  | failAfterCleanupError (id error : String)
  | cancelForOwner (owner : TaskOwner) (id : String)
  | finishCancelled (id message : String)
  | cancelAllRunning (message : String)
  | cancelToken (token : CancellationToken)
  | reorder (entries : List (String × TaskEntry))

inductive Outcome
  | created (result : Except TaskCreateError String)
  | settled (settlement : TaskSettlement)
  | decided (decision : TaskCompletionDecision)
  | accepted (accepted : Bool)
  | requested (count : ℕ)
  | read (state : Option TaskState)
  | found (running : Bool)
  | done

open TaskRegistry

def tag {α : Type} (outcome : α → Outcome) (done : α × TaskRegistry) : Outcome × TaskRegistry :=
  (outcome done.1, done.2)

def perform (instant : ℕ → ℕ) (r : TaskRegistry) : Action → Outcome × TaskRegistry
  | .createKeyed owner taskPrefix key message uuid =>
    tag .created (r.createKeyed instant owner taskPrefix key message uuid)
  | .setCancelToken id token => (.done, r.setCancelToken instant id token)
  | .bindWorkspaceOpen id databaseId => (.done, r.bindWorkspaceOpen instant id databaseId)
  | .hasRunningWorkspaceOpen databaseId => tag .found (r.hasRunningWorkspaceOpen instant databaseId)
  | .get id => tag .read (r.get instant id)
  | .getForOwner owner id => tag .read (r.getForOwner instant owner id)
  | .updateMessage id message => (.done, r.updateMessage instant id message)
  | .complete id result => tag .settled (r.complete instant id result)
  | .completeWithCancelToken id result token cancelMessage =>
    tag .settled (r.completeWithCancelToken instant id result token cancelMessage)
  | .completeAfterFatalError id result =>
    tag .settled (r.completeAfterFatalError instant id result)
  | .completeOrDeferCancellation id result token =>
    tag .decided (r.completeOrDeferCancellation instant id result token)
  | .fail id error => tag .settled (r.fail instant id error)
  | .failAfterCleanupError id error =>
    tag .settled (r.failAfterCleanupError instant id error)
  | .cancelForOwner owner id => tag .accepted (r.cancelForOwner instant owner id)
  | .finishCancelled id message => tag .accepted (r.finishCancelled instant id message)
  | .cancelAllRunning message => tag .requested (r.cancelAllRunning instant message)
  | .cancelToken token => (.done, { r with cancelled := token :: r.cancelled })
  | .reorder entries => (.done, { r with entries })

end IdaMcp.Tasks
