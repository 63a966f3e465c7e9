import IdaMcp.Foundation.Machine
import Mathlib.Algebra.Ring.Nat

namespace IdaMcp.Sessions

open Foundation

abbrev SessionId := String

inductive StreamRequest
  | createStream
  | createStandaloneStream
  | resume (lastEventId : String)

/-- Request-scoped streams have a slash in their event ids, standalone streams have none. -/
def StreamRequest.closeOnDrop : StreamRequest → Bool
  | createStream => false
  | createStandaloneStream => true
  | resume lastEventId => !lastEventId.toList.contains '/'

structure DisconnectState where
  generation : ℕ
  activeStreams : ℕ
  abandonedGeneration : Option ℕ

namespace DisconnectState

def default : DisconnectState := ⟨0, 0, none⟩

def streamOpened (state : DisconnectState) : DisconnectState where
  generation := (state.generation + 1) % 2 ^ 64
  activeStreams := min (state.activeStreams + 1) (2 ^ 64 - 1)
  abandonedGeneration := none

def streamClosed (state : DisconnectState) (generation : ℕ) (abandoned : Bool) : DisconnectState where
  generation := state.generation
  activeStreams := state.activeStreams - 1
  abandonedGeneration := if abandoned then some generation else state.abandonedGeneration

def closeGeneration (state : DisconnectState) : Option ℕ :=
  if state.activeStreams = 0 then state.abandonedGeneration else none

def shouldClose (state : DisconnectState) (generation : ℕ) : Bool :=
  state.abandonedGeneration = some generation && state.activeStreams = 0

end DisconnectState

/-- The round and the time in which a stream ended, and whether it was dropped before its end. -/
structure Ending where
  round : ℕ
  time : ℕ
  dropped : Bool
deriving DecidableEq

inductive Guard
  /-- The stream exists in the inner manager and is not counted yet. -/
  | pending
  | live (generation : ℕ)
  | finished (ending : Ending)
deriving DecidableEq

structure TrackedStream where
  closeOnDrop : Bool
  created : ℕ
  guard : Guard

inductive Phase
  /-- `stream_closed` has read the generation and spawns the cleanup next. -/
  | spawning
  | sleeping (since : ℕ)
  /-- `should_close` has allowed the close. -/
  | closing
  | done
deriving DecidableEq

structure Cleanup where
  generation : ℕ
  phase : Phase

/-- What there is of one session: the streams and the cleanup tasks that it ever had, its entry in
the registry, whether the inner manager has closed it, and how many calls of `session_closed` are
on their way. -/
structure Session where
  streams : List TrackedStream
  cleanups : List Cleanup
  state : Option DisconnectState
  closed : Bool
  forgetting : ℕ

namespace Session

def fresh : Session := ⟨[], [], none, false, 0⟩

def setPhase (s : Session) (i : ℕ) (c : Cleanup) (phase : Phase) : Session :=
  { s with cleanups := s.cleanups.set i { c with phase := phase } }

end Session

inductive SessionAct
  | create (request : StreamRequest)
  | streamOpened (stream : ℕ)
  /-- The stream yields its end, or is dropped. -/
  | finish (stream : ℕ) (dropped : Bool)
  | spawn (cleanup : ℕ) (inRuntime : Bool)
  | check (cleanup : ℕ)
  /-- The cleanup's close takes effect in the inner manager, which forgets a session before the
  close can fail. -/
  | close (cleanup : ℕ)
  /-- An explicit close takes effect in the inner manager. -/
  | closeSession (ok : Bool)
  | sessionClosed

def Session.step (grace round now : ℕ) (s : Session) : SessionAct → Option Session
  | .create request =>
    some { s with streams := s.streams ++ [⟨request.closeOnDrop, round, .pending⟩] }
  | .streamOpened i =>
    match s.streams[i]? with
    | some ⟨closeOnDrop, created, .pending⟩ =>
      let state := (s.state.getD DisconnectState.default).streamOpened
      some { s with
        state := some state
        streams := s.streams.set i ⟨closeOnDrop, created, .live state.generation⟩ }
    | _ => none
  | .finish i dropped =>
    match s.streams[i]? with
    | some ⟨closeOnDrop, created, .live generation⟩ =>
      let streams := s.streams.set i ⟨closeOnDrop, created, .finished ⟨round, now, dropped⟩⟩
      match s.state with
      | none => some { s with streams := streams }
      | some state =>
        let state := state.streamClosed generation (dropped && closeOnDrop)
        some { s with
          streams := streams
          state := some state
          cleanups := s.cleanups ++ (state.closeGeneration.map fun g => ⟨g, .spawning⟩).toList }
    | some ⟨_, _, .finished _⟩ => some s
    | _ => none
  | .spawn i inRuntime =>
    match s.cleanups[i]? with
    | some ⟨generation, .spawning⟩ =>
      if inRuntime then some (s.setPhase i ⟨generation, .spawning⟩ (.sleeping now))
      else some { s.setPhase i ⟨generation, .spawning⟩ .done with forgetting := s.forgetting + 1 }
    | _ => none
  | .check i =>
    match s.cleanups[i]? with
    | some ⟨generation, .sleeping since⟩ =>
      if since + grace ≤ now then
        if s.state.any fun state => state.shouldClose generation then
          some (s.setPhase i ⟨generation, .sleeping since⟩ .closing)
        else some (s.setPhase i ⟨generation, .sleeping since⟩ .done)
      else none
    | _ => none
  | .close i =>
    match s.cleanups[i]? with
    | some ⟨generation, .closing⟩ =>
      some { s.setPhase i ⟨generation, .closing⟩ .done with
        closed := true, forgetting := s.forgetting + 1 }
    | _ => none
  | .closeSession ok =>
    some { s with closed := true, forgetting := if ok then s.forgetting + 1 else s.forgetting }
  | .sessionClosed =>
    if 0 < s.forgetting then some { s with state := none, forgetting := s.forgetting - 1 }
    else none

structure Manager where
  sessions : SessionId → Session
  round : ℕ
  now : ℕ

def Manager.init : Manager := ⟨fun _ => Session.fresh, 0, 0⟩

inductive Act
  | tick
  | session (id : SessionId) (a : SessionAct)

def Manager.step (grace : ℕ) (m : Manager) : Act → Option Manager
  | .tick => some { m with round := m.round + 1, now := m.now + 1 }
  | .session id a =>
    ((m.sessions id).step grace m.round m.now a).map fun s =>
      { m with sessions := Function.update m.sessions id s, round := m.round + 1 }

end IdaMcp.Sessions
