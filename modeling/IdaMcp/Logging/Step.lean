import IdaMcp.Foundation.Machine

/-! The log writer: lines of many threads, one thread that writes them out, and the end of the process. -/

namespace IdaMcp.Logging

def queuedEvents : ℕ := 256

def maxEventBytes : ℕ := 16 * 1024

def truncatedMark : List UInt8 := " [truncated]\n".toList.map fun c => UInt8.ofNat c.toNat

structure LogLine where
  bytes : List UInt8
  truncated : Bool
deriving DecidableEq

def LogLine.write (line : LogLine) (bytes : List UInt8) : LogLine :=
  let available := maxEventBytes - truncatedMark.length - line.bytes.length
  let kept := min bytes.length available
  { bytes := line.bytes ++ bytes.take kept
    truncated := line.truncated || kept ≠ bytes.length }

def LogLine.event (line : LogLine) : List UInt8 :=
  if line.truncated then line.bytes ++ truncatedMark else line.bytes

/-- A line is written to, then dropped; between its look at `closed` and its `try_send` others move. -/
inductive LineState
  | opened (line : LogLine)
  | sending (event : List UInt8)
  | dropped
deriving DecidableEq

inductive Outcome
  | ok
  | error (kind : String)
  | panicked
deriving DecidableEq

inductive WorkerState
  | receiving
  | timedOut
  | writing (rest : List UInt8)
  | flushing
  /-- The closure has returned, and has signalled it; the receiver is still there. -/
  | leaving (outcome : Outcome)
  | exited (outcome : Outcome)
deriving DecidableEq

inductive ShutdownResult
  | done (drained : Bool)
  | failed (outcome : Outcome)
deriving DecidableEq

inductive GuardState
  | idle
  | looking
  | waiting
  | lookingAgain
  | joining
  | returned (result : ShutdownResult)
deriving DecidableEq

structure State where
  lines : List LineState
  /-- Some clone of the `LogWriter` is alive. -/
  writer : Bool
  closed : Bool
  queue : List (List UInt8)
  output : List UInt8
  worker : WorkerState
  finished : Bool
  /-- The guard has not joined the thread. -/
  handle : Bool
  guard : GuardState
deriving DecidableEq

def start : State where
  lines := []
  writer := true
  closed := false
  queue := []
  output := []
  worker := .receiving
  finished := false
  handle := true
  guard := .idle

inductive Action
  | makeWriter
  | write (i : ℕ) (bytes : List UInt8)
  | dropLine (i : ℕ)
  | trySend (i : ℕ)
  | dropWriter
  | recv
  | timeout
  | disconnected
  | loadClosed
  /-- One `write` inside `write_all`. -/
  | put (n : ℕ)
  | flush
  | fail (outcome : Outcome)
  | exit
  | shutdown
  | look
  | finishedRecv
  | finishedTimeout
  | lookAgain
  | join
deriving DecidableEq

namespace State

variable (s : State)

def setLine (i : ℕ) (line : LineState) : State := { s with lines := s.lines.set i line }

/-- A `try_send` takes an event while the receiver is there and the channel has room. -/
def accepts : Bool :=
  s.queue.length < queuedEvents &&
    match s.worker with
    | .exited _ => false
    | _ => true

def connected : Bool := s.writer || s.lines.any (· ≠ .dropped)

def threadFinished : Bool :=
  match s.worker with
  | .exited _ => true
  | _ => false

end State

def writeAll : List UInt8 → WorkerState
  | [] => .receiving
  | b :: rest => .writing (b :: rest)

def joined : Outcome → ShutdownResult
  | .ok => .done true
  | outcome => .failed outcome

def sendTo (s : State) (event : List UInt8) : State :=
  if s.accepts then { s with queue := s.queue ++ [event] } else s

def stepLine (s : State) (i : ℕ) : Action → LineState → Option State
  | .write _ bytes, .opened line => some (s.setLine i (.opened (line.write bytes)))
  | .dropLine _, .opened line =>
    if line.bytes = [] ∨ s.closed = true then some (s.setLine i .dropped)
    else some (s.setLine i (.sending line.event))
  | .trySend _, .sending event => some ((sendTo s event).setLine i .dropped)
  | _, _ => none

def stepWorker (s : State) : Action → WorkerState → Option State
  | .recv, .receiving =>
    match s.queue with
    | event :: rest => some { s with queue := rest, worker := writeAll event }
    | [] => none
  | .timeout, .receiving =>
    if s.queue = [] ∧ s.connected = true then some { s with worker := .timedOut } else none
  | .disconnected, .receiving =>
    if s.queue = [] ∧ s.connected = false then some { s with worker := .flushing } else none
  | .loadClosed, .timedOut => some { s with worker := if s.closed then .flushing else .receiving }
  | .put n, .writing rest =>
    if 0 < n ∧ n ≤ rest.length then
      some { s with output := s.output ++ rest.take n, worker := writeAll (rest.drop n) }
    else none
  | .flush, .flushing => some { s with worker := .leaving .ok, finished := true }
  | .fail outcome, .writing _ | .fail outcome, .flushing =>
    if outcome = .ok then none else some { s with worker := .leaving outcome, finished := true }
  | .exit, .leaving outcome => some { s with worker := .exited outcome }
  | _, _ => none

def stepGuard (s : State) : Action → GuardState → Option State
  | .shutdown, .idle | .shutdown, .returned _ =>
    some { s with closed := true, guard := if s.handle then .looking else .returned (.done true) }
  | .look, .looking => some { s with guard := if s.threadFinished then .joining else .waiting }
  | .finishedRecv, .waiting =>
    if s.finished then some { s with finished := false, guard := .joining } else none
  | .finishedTimeout, .waiting => if s.finished then none else some { s with guard := .lookingAgain }
  | .lookAgain, .lookingAgain =>
    some { s with guard := if s.threadFinished then .joining else .returned (.done false) }
  | .join, .joining =>
    match s.worker with
    | .exited outcome => some { s with handle := false, guard := .returned (joined outcome) }
    | _ => none
  | _, _ => none

def step (s : State) (a : Action) : Option State :=
  match a with
  | .makeWriter => if s.writer then some { s with lines := s.lines ++ [.opened ⟨[], false⟩] } else none
  | .dropWriter => some { s with writer := false }
  | .write i _ | .dropLine i | .trySend i => (s.lines[i]?).bind (stepLine s i a)
  | .recv | .timeout | .disconnected | .loadClosed | .put _ | .flush | .fail _ | .exit => stepWorker s a s.worker
  | .shutdown | .look | .finishedRecv | .finishedTimeout | .lookAgain | .join => stepGuard s a s.guard

end IdaMcp.Logging
