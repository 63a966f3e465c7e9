import IdaMcp.LockExclusion

namespace IdaMcp.RawOpen

open Foundation

abbrev Pid := LockFile.Pid

abbrev Sha256 := Vector UInt8 32

inductive ExistingRawIdbAction
  | reuse
  | rebuild
deriving DecidableEq, Repr

def existingRawIdbAction (rebuild : Bool) (recordedHash inputHash : Sha256)
    (recordedPathMatches : Bool) : Option ExistingRawIdbAction :=
  let recordedHashAvailable := recordedHash.any fun byte => byte != 0
  let hashMatches := recordedHashAvailable && recordedHash == inputHash
  if !rebuild && hashMatches then some .reuse
  else if rebuild && (hashMatches || recordedPathMatches) then some .rebuild
  else none

/-- A database file: the hash of the input that it records, and a number that changes with each write
of the file. -/
structure Database where
  inputFileSha256 : Sha256
  version : ℕ
deriving DecidableEq

/-- How a call has come by the database that it opens: it has created it, or it has read in `inspected`
that it belongs to an input with `inputHash`. -/
inductive Source
  | created
  | reused (inspected : Database) (inputHash : Sha256) (pathMatches : Bool)
deriving DecidableEq

inductive Position
  | idle
  | existingIdb (rebuild : Bool)
  | cleanStale (rebuild candidate : Bool)
  | acquire (rebuild candidate : Bool)
  | openExisting (rebuild : Bool)
  | inspect (rebuild : Bool) (inspected : Database)
  | create (rebuild : Bool)
  | finish (rebuild : Bool) (source : Source)
  | opened
  | release
deriving DecidableEq

structure State where
  lock : LockFile.State
  output : Option Database
  nextVersion : ℕ
  position : Pid → Position
  /-- Whether a database lay at the output when the process got the lock last. -/
  existed : Pid → Bool
  callers : List Pid

inductive Action
  | openIdb (p : Pid) (rebuild : Bool)
  | clean (p : Pid) (call : LockFile.Call)
  | lock (p : Pid) (ok : Bool)
  | advance (p : Pid)
  | inspect (p : Pid) (inputHash : Sha256) (pathMatches : Bool)
  | create (p : Pid) (inputHash : Sha256)
  /-- The step of the call fails; `touched` says that IDA had written to the output before. -/
  | fails (p : Pid) (touched : Bool)
  | save (p : Pid)
  | close (p : Pid)
  /-- The process ends; `partialOutput` is what a creation has left at the output by then. -/
  | exit (p : Pid) (partialOutput : Option Database)

def initial (output : Option Database) : State where
  lock := LockFile.init
  output
  nextVersion := 0
  position := fun _ => .idle
  existed := fun _ => false
  callers := []

namespace State

variable (s : State)

def goto (p : Pid) (position : Position) : State :=
  { s with position := Function.update s.position p position }

def setLock (lock : LockFile.State) : State := { s with lock }

def setOutput (output : Option Database) : State := { s with output }

def write (db : Database) : State :=
  { s with output := some { db with version := s.nextVersion }, nextVersion := s.nextVersion + 1 }

def save : State :=
  match s.output with
  | some db => s.write db
  | none => s

def holdsLock (p : Pid) : Bool :=
  match s.lock.phase p with
  | .held _ => true
  | _ => false

end State

/-- `acquire_mcp_lock` gives the lock to `p` with this step. -/
def gainsLock (s : State) (p : Pid) (ok : Bool) : Bool :=
  match s.lock.phase p with
  | .acquireLock file => ok && s.lock.canLock p file
  | _ => false

/-- A failed call puts the artifacts away that it has created or rewritten; a reused database is saved
as it is dropped. -/
def failed (s : State) (p : Pid) (touched : Bool) : Option State :=
  match s.position p with
  | .existingIdb _ => some (s.goto p .idle)
  | .openExisting _ | .inspect _ _ => some (s.goto p .release)
  | .create _ => some ((if touched then s.setOutput none else s).goto p .release)
  | .finish _ .created => some ((s.setOutput none).goto p .release)
  | .finish _ (.reused _ _ _) => some (s.save.goto p .release)
  | _ => none

def advance (s : State) (p : Pid) : Option State :=
  match s.position p with
  | .existingIdb rebuild => some (s.goto p (.cleanStale rebuild s.output.isSome))
  | .cleanStale rebuild candidate =>
    (LockFile.begin s.lock p .acquire).map fun lock => (s.setLock lock).goto p (.acquire rebuild candidate)
  | .acquire rebuild candidate =>
    match s.lock.phase p with
    | .held _ => some (s.goto p (if candidate then .openExisting rebuild else .create rebuild))
    | .idle => some (s.goto p .idle)
    | _ => none
  | .openExisting rebuild =>
    match s.output with
    | some db => some (s.goto p (.inspect rebuild db))
    | none => none
  | .finish _ _ => some (s.goto p .opened)
  | .release =>
    match s.lock.phase p with
    | .held _ => (LockFile.begin s.lock p .release).map s.setLock
    | .idle => some (s.goto p .idle)
    | _ => none
  | _ => none

def inspect (s : State) (p : Pid) (inputHash : Sha256) (pathMatches : Bool) : Option State :=
  match s.position p with
  | .inspect rebuild db =>
    match existingRawIdbAction rebuild db.inputFileSha256 inputHash pathMatches with
    | some .reuse => some (s.goto p (.finish rebuild (.reused db inputHash pathMatches)))
    | some .rebuild => some (s.goto p (.create rebuild))
    | none => some (s.goto p .release)
  | _ => none

def create (s : State) (p : Pid) (inputHash : Sha256) : Option State :=
  match s.position p with
  | .create rebuild =>
    some ((s.write { inputFileSha256 := inputHash, version := 0 }).goto p (.finish rebuild .created))
  | _ => none

/-- The processes take steps in any order. Of the calls to the lock only the cleaning ones are actions of
their own, before a process acquires the lock. -/
def step (s : State) : Action → Option State
  | .openIdb p rebuild =>
    if s.position p = .idle ∧ s.lock.phase p = .idle then
      some { s.goto p (.existingIdb rebuild) with callers := p :: s.callers }
    else none
  | .clean p call =>
    match s.position p, call with
    | .cleanStale _ _, .cleanStale | .cleanStale _ _, .removeForPid _ | .idle, .removeForPid _ =>
      (LockFile.begin s.lock p call).map s.setLock
    | _, _ => none
  | .lock p ok =>
    (LockFile.next s.lock p ok).map fun lock =>
      { s.setLock lock with
        existed := if gainsLock s p ok then Function.update s.existed p s.output.isSome else s.existed }
  | .advance p => advance s p
  | .inspect p inputHash pathMatches => inspect s p inputHash pathMatches
  | .create p inputHash => create s p inputHash
  | .fails p touched => failed s p touched
  | .save p => if s.position p = .opened then some s.save else none
  | .close p => if s.position p = .opened then some (s.save.goto p .release) else none
  | .exit p partialOutput =>
    (LockFile.step s.lock (.exit p)).map fun lock =>
      match s.position p with
      | .create _ => ((s.setOutput partialOutput).setLock lock).goto p .idle
      | _ => (s.setLock lock).goto p .idle

end IdaMcp.RawOpen
