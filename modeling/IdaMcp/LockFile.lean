import Mathlib.Logic.Function.Basic
import IdaMcp.Foundation.Machine

namespace IdaMcp.LockFile

open Foundation

abbrev Pid := ℕ

abbrev Inode := ℕ

/-- Where a process stands in the calls of `lock.rs` on one database path: each phase but `idle`,
`held` and `exited` is named after the file-system step that the process takes next. -/
inductive Phase
  | idle
  | acquireOpen
  | acquireLock (file : Inode)
  | setLen (file : Inode)
  | writeInfo (file : Inode)
  | held (file : Inode)
  | checkPath (file : Inode)
  | removeFile (file : Inode)
  | closeFile (file : Inode)
  | lockPathExists
  | readOpen
  | readPid (file : Inode)
  | readClose (file : Inode) (pid : Option Pid)
  | isProcessRunning (pid : Pid)
  | reclaimOpen (expectedPid : Option Pid)
  | reclaimLock (file : Inode) (expectedPid : Option Pid)
  | reclaimRead (file : Inode) (expectedPid : Option Pid)
  | reclaimCheck (file : Inode)
  | exited
deriving DecidableEq, Repr

structure State where
  /-- The inode that the lock path names. -/
  path : Option Inode
  nextInode : Inode
  /-- The process that holds the advisory lock on an inode. -/
  lock : Inode → Option Pid
  /-- The process id that the content of an inode records. -/
  content : Inode → Option Pid
  phase : Pid → Phase

inductive Call
  | acquire
  | release
  | cleanStale
  | removeForPid (pid : Pid)
deriving DecidableEq, Repr

/-- A process enters a call, takes the next step of its call (which the system may refuse), or
ends. -/
inductive Action
  | call (p : Pid) (c : Call)
  | sys (p : Pid) (ok : Bool)
  | exit (p : Pid)
deriving DecidableEq, Repr

def init : State where
  path := none
  nextInode := 0
  lock := fun _ => none
  content := fun _ => none
  phase := fun _ => .idle

namespace State

def goto (s : State) (p : Pid) (ph : Phase) : State :=
  { s with phase := Function.update s.phase p ph }

def setPath (s : State) (path : Option Inode) : State := { s with path := path }

/-- A process is never refused a lock that it holds itself. -/
def canLock (s : State) (p : Pid) (file : Inode) : Bool :=
  s.lock file = none || s.lock file = some p

def setLock (s : State) (p : Pid) (file : Inode) : State :=
  { s with lock := Function.update s.lock file (some p) }

/-- Closing any descriptor of an inode drops the lock that the process has on it. -/
def closeFd (s : State) (p : Pid) (file : Inode) : State :=
  { s with lock := fun i => if i = file ∧ s.lock i = some p then none else s.lock i }

def dropLocks (s : State) (p : Pid) : State :=
  { s with lock := fun i => if s.lock i = some p then none else s.lock i }

def setContent (s : State) (file : Inode) (pid : Option Pid) : State :=
  { s with content := Function.update s.content file pid }

def openExisting (s : State) (ok : Bool) : Option Inode := if ok then s.path else none

def readLockFilePid (s : State) (file : Inode) (ok : Bool) : Option Pid :=
  if ok then s.content file else none

def lockPathNamesFile (s : State) (file : Inode) (ok : Bool) : Bool :=
  ok && (s.path = some file)

def createFile (s : State) : State :=
  { s with path := some s.nextInode, nextInode := s.nextInode + 1 }

end State

def next (s : State) (p : Pid) (ok : Bool) : Option State :=
  match s.phase p with
  | .idle | .held _ | .exited => none
  -- acquire_mcp_lock
  | .acquireOpen =>
    if ok then
      match s.path with
      | some file => some (s.goto p (.acquireLock file))
      | none => some (s.createFile.goto p (.acquireLock s.nextInode))
    else some (s.goto p .idle)
  | .acquireLock file =>
    if ok && s.canLock p file then some ((s.setLock p file).goto p (.setLen file))
    else some (s.goto p (.closeFile file))
  | .setLen file =>
    some ((if ok then s.setContent file none else s).goto p (.writeInfo file))
  | .writeInfo file =>
    some ((if ok then s.setContent file (some p) else s).goto p (.held file))
  -- release_mcp_lock, remove_mcp_lock_file and the drop of an McpLock
  | .checkPath file =>
    some (s.goto p (if s.lockPathNamesFile file ok then .removeFile file else .closeFile file))
  | .removeFile file => some ((if ok then s.setPath none else s).goto p (.closeFile file))
  | .closeFile file => some ((s.closeFd p file).goto p .idle)
  -- clean_stale_mcp_lock
  | .lockPathExists => some (s.goto p (if ok && s.path.isSome then .readOpen else .idle))
  | .readOpen =>
    match s.openExisting ok with
    | some file => some (s.goto p (.readPid file))
    | none => some (s.goto p (.reclaimOpen none))
  | .readPid file => some (s.goto p (.readClose file (s.readLockFilePid file ok)))
  | .readClose file pid =>
    match pid with
    | some pid => some ((s.closeFd p file).goto p (.isProcessRunning pid))
    | none => some ((s.closeFd p file).goto p (.reclaimOpen none))
  | .isProcessRunning pid =>
    some (s.goto p (if s.phase pid = .exited then .reclaimOpen (some pid) else .idle))
  -- reclaim_mcp_lock_path
  | .reclaimOpen expectedPid =>
    match s.openExisting ok with
    | some file => some (s.goto p (.reclaimLock file expectedPid))
    | none => some (s.goto p .idle)
  | .reclaimLock file expectedPid =>
    if ok && s.canLock p file then
      some ((s.setLock p file).goto p (.reclaimRead file expectedPid))
    else some (s.goto p (.closeFile file))
  | .reclaimRead file expectedPid =>
    some (s.goto p
      (if s.readLockFilePid file ok = expectedPid then .reclaimCheck file else .closeFile file))
  | .reclaimCheck file =>
    some (s.goto p (if s.lockPathNamesFile file ok then .checkPath file else .closeFile file))

/-- A process that has a lock in hand releases it, or puts it aside (`Handles`) and then calls. -/
def begin (s : State) (p : Pid) (c : Call) : Option State :=
  match s.phase p, c with
  | .idle, .acquire => some (s.goto p .acquireOpen)
  | .idle, .cleanStale => some (s.goto p .lockPathExists)
  | .idle, .removeForPid pid => some (s.goto p (.reclaimOpen (some pid)))
  | .held file, .release => some (s.goto p (.checkPath file))
  | _, _ => none

def step (s : State) : Action → Option State
  | .call p c => begin s p c
  | .sys p ok => next s p ok
  | .exit p => if s.phase p = .exited then none else some ((s.dropLocks p).goto p .exited)

/-- The processes with the locks that each keeps while it makes other calls. -/
structure Handles where
  files : State
  kept : Pid → List Inode

inductive Move
  | own (a : Action)
  | keep (p : Pid)
  | resume (p : Pid) (file : Inode)
deriving DecidableEq, Repr

namespace Handles

def start : Handles where
  files := init
  kept := fun _ => []

def step (h : Handles) : Move → Option Handles
  | .own (.exit p) =>
    (LockFile.step h.files (.exit p)).map fun files => ⟨files, Function.update h.kept p []⟩
  | .own a => (LockFile.step h.files a).map fun files => ⟨files, h.kept⟩
  | .keep p =>
    match h.files.phase p with
    | .held file => some ⟨h.files.goto p .idle, Function.update h.kept p (file :: h.kept p)⟩
    | _ => none
  | .resume p file =>
    if h.files.phase p = .idle ∧ file ∈ h.kept p then
      some ⟨h.files.goto p (.held file), Function.update h.kept p ((h.kept p).erase file)⟩
    else none

end Handles

section Update

variable (s : State) (p : Pid) (ph : Phase)

@[simp] theorem State.goto_phase : (s.goto p ph).phase = Function.update s.phase p ph := rfl

@[simp] theorem State.goto_lock : (s.goto p ph).lock = s.lock := rfl

@[simp] theorem State.goto_path : (s.goto p ph).path = s.path := rfl

@[simp] theorem State.setPath_phase (path : Option Inode) : (s.setPath path).phase = s.phase := rfl

@[simp] theorem State.setContent_phase (file : Inode) (pid : Option Pid) :
    (s.setContent file pid).phase = s.phase := rfl

@[simp] theorem State.setLock_phase (file : Inode) : (s.setLock p file).phase = s.phase := rfl

@[simp] theorem State.closeFd_phase (file : Inode) : (s.closeFd p file).phase = s.phase := rfl

end Update

end IdaMcp.LockFile
