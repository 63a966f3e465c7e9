import IdaMcp.Foundation.Machine

namespace IdaMcp.SaveFirst

open Foundation

inductive MessageKind
  | request
  | response
  | notification
  | error
deriving DecidableEq

structure Message where
  kind : MessageKind
  body : String
deriving DecidableEq

structure StdioShutdown where
  armed : Bool
  closed : Bool
  saved : Bool
  trackerClosed : Bool
  tokens : ℕ

inductive Terminal
  | cancelling
  | deciding
  | waiting
deriving DecidableEq

inductive Receive
  | idle
  | selecting
  | received (message : Message)
  | holding (message : Message)
  /-- The terminal flag was read and is not set. -/
  | checked (message : Message)
  | terminal (at' : Terminal)
deriving DecidableEq

inductive Send
  | writing
  | terminal (at' : Terminal)
  | done
deriving DecidableEq

inductive Drain
  | cancelling
  | closing
  | starting
  | waiting (notified : Bool)
  | returned
deriving DecidableEq

/-- The transport with its calls, the live guards by the number of their request, what `receive`
has handed out, and how often it yielded nothing or a send reported an error. -/
structure SaveFirstTransport where
  shutdown : StdioShutdown
  receive : Receive
  sends : List Send
  drains : List Drain
  guards : List ℕ
  handedOut : List Message
  ended : ℕ
  failed : ℕ

def init : SaveFirstTransport where
  shutdown := ⟨false, false, false, false, 0⟩
  receive := .idle
  sends := []
  drains := []
  guards := []
  handedOut := []
  ended := 0
  failed := 0

inductive Act
  | arm
  | release
  | startReceive
  | seeClosed
  /-- `inner.receive()` yields a message, or nothing at the end of input. -/
  | arrive (message : Option Message)
  | token
  | check
  | handOut
  | receiveTerminal
  | cancelReceive
  | startSend
  | written (send : ℕ) (ok : Bool)
  | sendTerminal (send : ℕ)
  | cancelSend (send : ℕ)
  | cloneGuard (guard : ℕ)
  | dropGuard (guard : ℕ)
  | startDrain
  | drain (drain : ℕ)
deriving DecidableEq

/-- One step of `after_terminal_event`; it is over when nothing is left of it. -/
def StdioShutdown.afterTerminalEvent (s : StdioShutdown) : Terminal → Option (StdioShutdown × Option Terminal)
  | .cancelling => some ({ s with closed := true }, some .deciding)
  | .deciding => some (s, if s.armed then some .waiting else none)
  | .waiting => if s.saved then some (s, none) else none

def StdioShutdown.isClosedAndEmpty (s : StdioShutdown) : Bool := s.trackerClosed && s.tokens = 0

/-- A tracker that is closed and empty wakes all that wait for it, even if it does not stay empty. -/
def Drain.notify : Drain → Drain
  | .waiting _ => .waiting true
  | drain => drain

namespace SaveFirstTransport

variable (s : SaveFirstTransport)

def notify : SaveFirstTransport :=
  if s.shutdown.isClosedAndEmpty then { s with drains := s.drains.map Drain.notify } else s

def takeToken : SaveFirstTransport :=
  { s with shutdown := { s.shutdown with tokens := s.shutdown.tokens + 1 } }

def dropToken : SaveFirstTransport :=
  notify { s with shutdown := { s.shutdown with tokens := s.shutdown.tokens - 1 } }

def stepDrain (i : ℕ) : Option SaveFirstTransport :=
  match s.drains[i]? with
  | some .cancelling =>
    some { s with
      shutdown := { s.shutdown with closed := true }, drains := s.drains.set i .closing }
  | some .closing =>
    some (notify { s with
      shutdown := { s.shutdown with trackerClosed := true }, drains := s.drains.set i .starting })
  | some .starting =>
    some { s with
      drains := s.drains.set i (if s.shutdown.isClosedAndEmpty then .returned else .waiting false) }
  | some (.waiting notified) =>
    if notified || s.shutdown.isClosedAndEmpty then some { s with drains := s.drains.set i .returned }
    else none
  | _ => none

/-- A request takes its guard along; any other message loses it in the return. -/
def handOut (message : Message) : SaveFirstTransport :=
  if message.kind = .request then
    { s with
      receive := .idle
      guards := s.guards ++ [s.handedOut.length]
      handedOut := s.handedOut ++ [message] }
  else
    { dropToken s with receive := .idle, handedOut := s.handedOut ++ [message] }

def step : Act → Option SaveFirstTransport
  | .arm => some { s with shutdown := { s.shutdown with armed := true } }
  | .release => some { s with shutdown := { s.shutdown with saved := true } }
  | .startReceive => if s.receive = .idle then some { s with receive := .selecting } else none
  | .seeClosed =>
    if s.receive = .selecting ∧ s.shutdown.closed = true then
      some { s with receive := .terminal .cancelling }
    else none
  | .arrive message =>
    if s.receive = .selecting then
      some { s with receive := message.elim (.terminal .cancelling) .received }
    else none
  | .token =>
    match s.receive with
    | .received message => some { takeToken s with receive := .holding message }
    | _ => none
  | .check =>
    match s.receive with
    | .holding message =>
      if s.shutdown.closed then some { dropToken s with receive := .terminal .cancelling }
      else some { s with receive := .checked message }
    | _ => none
  | .handOut =>
    match s.receive with
    | .checked message => some (handOut s message)
    | _ => none
  | .receiveTerminal =>
    match s.receive with
    | .terminal at' =>
      (s.shutdown.afterTerminalEvent at').map fun
        | (shutdown, some at') => { s with shutdown := shutdown, receive := .terminal at' }
        | (shutdown, none) => { s with shutdown := shutdown, receive := .idle, ended := s.ended + 1 }
    | _ => none
  | .cancelReceive =>
    if s.receive = .selecting ∨ s.receive = .terminal .waiting then some { s with receive := .idle }
    else none
  | .startSend => some { s with sends := s.sends ++ [.writing] }
  | .written i ok =>
    if s.sends[i]? = some .writing then
      some { s with sends := s.sends.set i (if ok then .done else .terminal .cancelling) }
    else none
  | .sendTerminal i =>
    match s.sends[i]? with
    | some (.terminal at') =>
      (s.shutdown.afterTerminalEvent at').map fun
        | (shutdown, some at') =>
          { s with shutdown := shutdown, sends := s.sends.set i (.terminal at') }
        | (shutdown, none) =>
          { s with shutdown := shutdown, sends := s.sends.set i .done, failed := s.failed + 1 }
    | _ => none
  | .cancelSend i => some { s with sends := s.sends.set i .done }
  | .cloneGuard i =>
    s.guards[i]?.map fun request => { takeToken s with guards := s.guards ++ [request] }
  | .dropGuard i =>
    if i < s.guards.length then some { dropToken s with guards := s.guards.eraseIdx i } else none
  | .startDrain => some { s with drains := s.drains ++ [.cancelling] }
  | .drain i => stepDrain s i

end SaveFirstTransport

end IdaMcp.SaveFirst
