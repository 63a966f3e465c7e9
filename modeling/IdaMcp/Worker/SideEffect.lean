import IdaMcp.Error
import IdaMcp.Foundation.Machine

namespace IdaMcp.Worker

open Foundation

inductive SideEffectAdmission
  | queued
  | started
  | cancelled
deriving DecidableEq, Repr

namespace SideEffectAdmission

def start : SideEffectAdmission → Except ToolError Unit × SideEffectAdmission
  | queued => (.ok (), started)
  | state =>
    (.error (.cancelled "request expired while queued; no side effects were started"), state)

def cancelIfQueued : SideEffectAdmission → Bool × SideEffectAdmission
  | queued => (true, cancelled)
  | state => (false, state)

end SideEffectAdmission

def defaultTimeoutSecs : UInt64 := 120

def maxTimeoutSecs : UInt64 := 600

def supervisedTimeoutSecs : UInt64 := 60 * 60 * 24 * 365

def clampedTimeout (supervised : Bool) (timeoutSecs : Option UInt64) : UInt64 :=
  if supervised then supervisedTimeoutSecs
  else min (timeoutSecs.getD defaultTimeoutSecs) maxTimeoutSecs

/-- Who waits for the answer: a caller of `recv_side_effect` holds a drop guard and a timer, an
observed one just awaits the channel. -/
structure Wait where
  observed : Bool
  supervised : Bool
  timeoutSecs : Option UInt64

variable {α : Type}

inductive Caller (α : Type)
  | sending
  /-- in `tokio::time::timeout(timeout, &mut rx)` -/
  | waiting
  | elapsed
  /-- in `Self::recv(rx)` -/
  | settling
  /-- about to drop what it holds and return -/
  | finishing (outcome : Except ToolError α)
  | dropping
  | returned (outcome : Except ToolError α)
  | gone

inductive Reply (α : Type)
  | none
  /-- refused before admission -/
  | rejected (error : ToolError)
  /-- refused by admission -/
  | expired (error : ToolError)
  /-- what the admitted operation came to -/
  | settled (result : Except ToolError α)
  | closed

def Reply.received : Reply α → Option (Except ToolError α)
  | none => Option.none
  | rejected error => some (.error error)
  | expired error => some (.error error)
  | settled result => some result
  | closed => some (.error .workerClosed)

inductive IdaThread
  | absent
  | queued
  | dequeued
  | admitted
  | mutating
  | done
deriving DecidableEq, Repr

structure Exchange (α : Type) where
  admission : SideEffectAdmission
  caller : Caller α
  ida : IdaThread
  reply : Reply α
  mutations : ℕ

def Exchange.initial : Exchange α :=
  { admission := .queued, caller := .sending, ida := .absent, reply := .none, mutations := 0 }

inductive Action (α : Type)
  | send
  | sendFails (error : ToolError)
  | receive
  | elapse
  | cancel
  | drop
  | finish
  | dequeue
  | reject (error : ToolError)
  | admission
  | decline (error : ToolError)
  | mutate
  | settle (result : Except ToolError α)
  | close

def Exchange.dropGuard (s : Exchange α) (wait : Wait) : Exchange α :=
  if wait.observed then s else { s with admission := s.admission.cancelIfQueued.2 }

def callerStep (wait : Wait) (s : Exchange α) : Action α → Option (Exchange α)
  | .send =>
    match s.caller with
    | .sending =>
      some { s with caller := if wait.observed then .settling else .waiting, ida := .queued }
    | _ => none
  | .sendFails error =>
    match s.caller with
    | .sending => some { s with caller := .returned (.error error), reply := .closed }
    | _ => none
  | .receive =>
    match s.caller with
    | .waiting | .settling => s.reply.received.map fun outcome => { s with caller := .finishing outcome }
    | _ => none
  | .elapse =>
    match s.caller with
    | .waiting => some { s with caller := .elapsed }
    | _ => none
  | .cancel =>
    match s.caller with
    | .elapsed =>
      let (cancelled, admission) := s.admission.cancelIfQueued
      some { s with
        admission
        caller := if cancelled then
            .finishing (.error (.timeout (clampedTimeout wait.supervised wait.timeoutSecs)))
          else .settling }
    | _ => none
  | .drop =>
    match s.caller with
    | .waiting | .settling => some { s with caller := .dropping }
    | _ => none
  | .finish =>
    match s.caller with
    | .finishing outcome => some { s.dropGuard wait with caller := .returned outcome }
    | .dropping => some { s.dropGuard wait with caller := .gone }
    | _ => none
  | _ => none

def idaStep (s : Exchange α) : Action α → Option (Exchange α)
  | .dequeue =>
    match s.ida with
    | .queued => some { s with ida := .dequeued }
    | _ => none
  | .reject error =>
    match s.ida with
    | .dequeued => some { s with ida := .done, reply := .rejected error }
    | _ => none
  | .admission =>
    match s.ida with
    | .dequeued =>
      match s.admission.start with
      | (.ok _, admission) => some { s with admission, ida := .admitted }
      | (.error error, admission) => some { s with admission, ida := .done, reply := .expired error }
    | _ => none
  -- `require_generation` and `ensure_not_cancelled` may still refuse the operation
  | .decline error =>
    match s.ida with
    | .admitted => some { s with ida := .done, reply := .settled (.error error) }
    | _ => none
  | .mutate =>
    match s.ida with
    | .admitted => some { s with ida := .mutating, mutations := s.mutations + 1 }
    | _ => none
  | .settle result =>
    match s.ida with
    | .mutating => some { s with ida := .done, reply := .settled result }
    | _ => none
  -- the loop ends or the process dies, and the sender is dropped with the request
  | .close =>
    match s.ida with
    | .queued | .dequeued | .admitted | .mutating => some { s with ida := .done, reply := .closed }
    | _ => none
  | _ => none

def step (wait : Wait) (s : Exchange α) (a : Action α) : Option (Exchange α) :=
  (callerStep wait s a).or (idaStep s a)

end IdaMcp.Worker
