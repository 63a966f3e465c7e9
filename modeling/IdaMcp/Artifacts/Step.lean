import IdaMcp.Artifacts.Snapshot
import IdaMcp.Pool.Requests

namespace IdaMcp.Artifacts

open Foundation Pool

/-- The files as an open is sent to the child, and the tasks whose calls are over by then. -/
structure Dispatch where
  task : TaskId
  files : Files
  answered : List TaskId

/-- `pending_open_artifacts`, with the dispatch of the open that they are of. -/
structure PendingArtifacts where
  dispatch : Dispatch
  cleanup : RawOpenArtifactCleanup

/-- A file that the cleanup after the loss of a worker removes; `author` is the task whose request
the file was last written for. -/
structure Removal where
  dispatch : Dispatch
  path : Path
  identity : Identity
  author : Option TaskId

/-- The pool with the files that its children work on. -/
structure State where
  pool : Pool.State
  files : Files
  author : Path → Option TaskId
  /-- `OpenDispatch::artifacts` of the open of a task. -/
  artifacts : TaskId → Option RawOpenArtifactCleanup
  pending : WorkerId → Option PendingArtifacts
  /-- What `finish_dead_worker` has still to clean up. -/
  losses : List PendingArtifacts
  answered : List TaskId
  removed : List Removal

inductive Action
  | openIdb (handle : PooledWorkerHandle) (request : OpenRequest)
  | pool (action : Pool.Action)
  /-- A child writes or removes a file for a request that it has not answered yet. -/
  | childWrites (w : WorkerId) (request : Request) (path : Path) (identity : Option Identity)
  | otherWrites (path : Path) (identity : Option Identity)
  /-- `cleanup_after_worker_loss` goes on to its next artifact; the system may refuse to remove it. -/
  | clean (i : ℕ) (ok : Bool)
  /-- The lock of the killed worker is not reclaimed. -/
  | skip (i : ℕ)

inductive Effect
  | publish (t : TaskId)
  | clear
  | take
deriving DecidableEq

def effectAt (s : Pool.State) (t : TaskId) : Position → Option (WorkerId × Effect)
  | .callAdmission h tool true =>
    if (admissionError s h tool).isNone then some (h.workerId, .publish t) else none
  | .callSettle h _ _ =>
    if s.stateOf h.workerId = .dead ∨ (s.slot h.workerId).transportClosed then none
    else if (s.stateOf h.workerId).belongsToLease h.leaseId then some (h.workerId, .clear)
    else none
  | .releaseReset h _ =>
    if s.stateOf h.workerId = .dead then none else some (h.workerId, .clear)
  | .spawnSlot _ w => some (w, .clear)
  | .takeDead w lease _ _ =>
    if s.stateOf w ≠ .dead ∧ lease.all (s.stateOf w).belongsToLease then some (w, .take) else none
  | _ => none

/-- `take_stale_idle_worker_if_above_min` takes from an idle slot. -/
def reaps (cfg : WorkerPoolConfig) (s : Pool.State) : Position → Option WorkerId
  | .reapScan w sleepStarted [] liveCount =>
    if cfg.minWorkers < liveCount ∧ s.stateOf w = .idle ∧ (s.slot w).lastUsed ≤ sleepStarted then some w
    else none
  | _ => none

def effect (cfg : WorkerPoolConfig) (s : Pool.State) : Pool.Action → Option (WorkerId × Effect)
  | .run t .proceed =>
    (s.task t).bind fun task =>
      (effectAt s t task.position).or ((reaps cfg s task.position).map (·, .take))
  | _ => none

namespace State

variable (s : State)

def setPending (w : WorkerId) (pending : Option PendingArtifacts) : State :=
  { s with pending := Function.update s.pending w pending }

def dispatchOf (t : TaskId) : Dispatch := { task := t, files := s.files, answered := s.answered }

def apply (w : WorkerId) : Effect → State
  | .publish t => s.setPending w ((s.artifacts t).map fun cleanup => ⟨s.dispatchOf t, cleanup⟩)
  | .clear => s.setPending w none
  | .take => { s.setPending w none with losses := s.losses ++ (s.pending w).toList }

def write (author : Option TaskId) (path : Path) (identity : Option Identity) : State :=
  { s with
    files := Function.update s.files path identity
    author := Function.update s.author path author }

def remove (dispatch : Dispatch) (path : Path) (identity : Identity) : State :=
  { s.write none path none with
    removed := s.removed ++ [⟨dispatch, path, identity, s.author path⟩] }

def setLoss (i : ℕ) (loss : PendingArtifacts) : State := { s with losses := s.losses.set i loss }

def dropLoss (i : ℕ) : State := { s with losses := s.losses.eraseIdx i }

theorem write_self (author : Option TaskId) (path : Path) (identity : Option Identity) :
    (s.write author path identity).files path = identity ∧
      (s.write author path identity).author path = author :=
  ⟨Function.update_self .., Function.update_self ..⟩

theorem write_of_ne (author : Option TaskId) {path path' : Path} (identity : Option Identity)
    (h : path' ≠ path) : (s.write author path identity).files path' = s.files path' ∧
      (s.write author path identity).author path' = s.author path' :=
  ⟨Function.update_of_ne h .., Function.update_of_ne h ..⟩

theorem pending_setPending (w w' : WorkerId) (pending : Option PendingArtifacts) :
    (s.setPending w pending).pending w' = if w' = w then pending else s.pending w' :=
  Function.update_apply ..

end State

def removeArtifact (s : State) (dispatch : Dispatch) (artifact : ArtifactSnapshot) (ok : Bool) :
    State :=
  match s.files artifact.path with
  | some now =>
    if touchedByThisCall s.files artifact && ok then s.remove dispatch artifact.path now else s
  | none => s

def clean (s : State) (i : ℕ) (loss : PendingArtifacts) (ok : Bool) : State :=
  match loss.cleanup.artifacts with
  | [] => s.dropLoss i
  | artifact :: rest =>
    (removeArtifact s loss.dispatch artifact ok).setLoss i
      { loss with cleanup := { loss.cleanup with artifacts := rest } }

def tracksOpen : Pool.Action → Bool
  | .start (.call _ _ tracksOpen) => tracksOpen
  | _ => false

def step (cfg : WorkerPoolConfig) (home : Option String) (s : State) : Action → Option State
  | .openIdb h request =>
    (Pool.step cfg s.pool (.start (.call h "open_idb" true))).map fun pool =>
      { s with
        pool
        artifacts := Function.update s.artifacts s.pool.nextTask (forRequest home s.files request) }
  | .pool a =>
    if tracksOpen a then none
    else
      (Pool.step cfg s.pool a).map fun pool =>
        { (effect cfg s.pool a).elim s fun e => s.apply e.1 e.2 with
          pool
          answered := answeredBy s.answered a }
  | .childWrites w request path identity =>
    if request ∈ (s.pool.slot w).requests then some (s.write (some request.task) path identity)
    else none
  | .otherWrites path identity => some (s.write none path identity)
  | .clean i ok => s.losses[i]?.map fun loss => clean s i loss ok
  | .skip i => some (s.dropLoss i)

def initial (cfg : WorkerPoolConfig) (files : Files) : State where
  pool := warmed cfg
  files
  author := fun _ => none
  artifacts := fun _ => none
  pending := fun _ => none
  losses := []
  answered := []
  removed := []

end IdaMcp.Artifacts
