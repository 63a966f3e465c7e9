import Mathlib.Logic.Function.Basic
import Mathlib.Data.List.Basic
import IdaMcp.Foundation.Machine

namespace IdaMcp.Registry

open Foundation

abbrev DatabaseId := ℕ

structure Lease where
  workerId : ℕ
  generation : ℕ
  debugPinned : Bool
  workerUnavailable : Bool
deriving DecidableEq, Repr

inductive GuardKind
  | call
  | pin
deriving DecidableEq, Repr

structure Entry where
  legacy : Bool
  activeCalls : ℕ
  pins : ℕ
  lastUsed : ℕ
  lease : Option Lease
deriving DecidableEq, Repr

namespace Entry

def count (e : Entry) : GuardKind → ℕ
  | .call => e.activeCalls
  | .pin => e.pins

def setCount (e : Entry) (kind : GuardKind) (n : ℕ) : Entry :=
  match kind with
  | .call => { e with activeCalls := n }
  | .pin => { e with pins := n }

def touch (e : Entry) (now : ℕ) : Entry := { e with lastUsed := now }

def idleFor (e : Entry) (now : ℕ) : ℕ := now - e.lastUsed

def debugPinned (e : Entry) : Bool := e.lease.any Lease.debugPinned

def unguarded (e : Entry) : Bool := !e.legacy && e.activeCalls == 0 && e.pins == 0

end Entry

/-- A `WorkspaceLease` or `WorkspacePin` counts its entry, then touches it and is in use; its drop
touches the entry again before it gives the count back. -/
inductive GuardPhase
  | counted
  | inUse
  | touched
deriving DecidableEq, Repr

structure Guard where
  databaseId : DatabaseId
  kind : GuardKind
  phase : GuardPhase
deriving DecidableEq, Repr

inductive WorkspaceReapReason
  | idle
  | terminal
deriving DecidableEq, Repr

structure Reapable where
  databaseId : DatabaseId
  reason : WorkspaceReapReason
  probedAt : ℕ
deriving DecidableEq, Repr

/-- The position of `workspace_reaper`. It holds the registry lock while it collects and while it
takes. -/
inductive Reaper
  | sleeping
  | collecting (rest candidates : List DatabaseId)
  | probing (candidates : List DatabaseId) (reapable : List Reapable)
  | checkingIdle (databaseId : DatabaseId) (probedAt : ℕ) (candidates : List DatabaseId)
      (reapable : List Reapable)
  | retiring (databaseId : DatabaseId) (probedAt : ℕ) (candidates : List DatabaseId)
      (reapable : List Reapable)
  | taking (reapable : List Reapable) (expired : List DatabaseId)
  | closing (expired : List DatabaseId)
deriving DecidableEq, Repr

def Reaper.holdsLock : Reaper → Bool
  | .collecting _ _ | .taking _ _ => true
  | _ => false

structure State where
  now : ℕ
  registered : List DatabaseId
  entry : DatabaseId → Entry
  nextId : DatabaseId
  guards : List Guard
  reaper : Reaper

inductive Action
  | tick (duration : ℕ)
  | allocateDatabase
  | bindLegacy
  | remove (databaseId : DatabaseId)
  | acquire (databaseId : DatabaseId) (kind : GuardKind)
  | guardStep (guard : Guard)
  | installLease (databaseId : DatabaseId) (workerId generation : ℕ)
  | clearLease (databaseId : DatabaseId)
  | loseWorker (databaseId : DatabaseId)
  | setDebugPin (guard : Guard) (workerId generation : ℕ) (pinned : Bool)
  | wakeReaper (order : List DatabaseId)
  | reaperStep (contended : Bool)
deriving DecidableEq, Repr

def newEntry (legacy : Bool) (activeCalls now : ℕ) : Entry :=
  { legacy, activeCalls, pins := 0, lastUsed := now, lease := none }

def init : State where
  now := 0
  registered := []
  entry := fun _ => newEntry true 0 0
  nextId := 0
  guards := []
  reaper := .sleeping

namespace State

def setEntry (s : State) (id : DatabaseId) (e : Entry) : State :=
  { s with entry := Function.update s.entry id e }

def setLease (s : State) (id : DatabaseId) (lease : Option Lease) : State :=
  s.setEntry id { s.entry id with lease }

def setGuards (s : State) (guards : List Guard) : State := { s with guards }

def goto (s : State) (reaper : Reaper) : State := { s with reaper }

def unlocked (s : State) : Bool := !s.reaper.holdsLock

def insertEntry (s : State) (e : Entry) : State :=
  { s.setEntry s.nextId e with registered := s.nextId :: s.registered, nextId := s.nextId + 1 }

def unregister (s : State) (id : DatabaseId) : State :=
  { s with registered := s.registered.filter (· ≠ id) }

end State

inductive LeaseReapDecision
  | noLease
  | healthyUnpinned
  | healthyPinned
  | busy
  | deadWorker
deriving DecidableEq, Repr

def leaseReapDecision (lease : Option Lease) (contended : Bool) : LeaseReapDecision :=
  if contended then .busy
  else
    match lease with
    | none => .noLease
    | some lease =>
      if lease.workerUnavailable then .deadWorker
      else if lease.debugPinned then .healthyPinned
      else .healthyUnpinned

def idleExpired (idleTimeout : ℕ) (s : State) (id : DatabaseId) : Bool :=
  idleTimeout != 0 && decide (idleTimeout ≤ (s.entry id).idleFor s.now)

def stillReapable (idleTimeout : ℕ) (s : State) (r : Reapable) (contended : Bool) : Bool :=
  decide (r.databaseId ∈ s.registered) && (s.entry r.databaseId).unguarded &&
    match r.reason with
    | .idle => idleExpired idleTimeout s r.databaseId
    | .terminal => !contended && (s.entry r.databaseId).lease.isNone

def reaperStep (idleTimeout : ℕ) (s : State) (contended : Bool) : Option State :=
  match s.reaper with
  | .sleeping => none
  | .collecting [] candidates => some (s.goto (.probing candidates []))
  | .collecting (id :: rest) candidates =>
    some (s.goto (.collecting rest
      (if (s.entry id).unguarded then candidates ++ [id] else candidates)))
  | .probing [] reapable => some (s.goto (.taking reapable []))
  | .probing (id :: candidates) reapable =>
    match leaseReapDecision (s.entry id).lease contended with
    | .noLease => some (s.goto (.probing candidates (reapable ++ [⟨id, .terminal, s.now⟩])))
    | .healthyUnpinned => some (s.goto (.checkingIdle id s.now candidates reapable))
    | .healthyPinned | .busy => some (s.goto (.probing candidates reapable))
    | .deadWorker => some ((s.setLease id none).goto (.retiring id s.now candidates reapable))
  | .checkingIdle id probedAt candidates reapable =>
    some (s.goto (.probing candidates
      (if idleExpired idleTimeout s id then reapable ++ [⟨id, .idle, probedAt⟩] else reapable)))
  | .retiring id probedAt candidates reapable =>
    some (s.goto (.probing candidates (reapable ++ [⟨id, .terminal, probedAt⟩])))
  | .taking [] expired => some (s.goto (.closing expired))
  | .taking (r :: reapable) expired =>
    if stillReapable idleTimeout s r contended then
      some ((s.unregister r.databaseId).goto (.taking reapable (expired ++ [r.databaseId])))
    else some (s.goto (.taking reapable expired))
  | .closing [] => some (s.goto .sleeping)
  | .closing (id :: expired) => some ((s.setLease id none).goto (.closing expired))

def guardStep (s : State) (g : Guard) : Option State :=
  if g ∈ s.guards then
    match g.phase with
    | .counted =>
      some ((s.setEntry g.databaseId ((s.entry g.databaseId).touch s.now)).setGuards
        ({ g with phase := .inUse } :: s.guards.erase g))
    | .inUse =>
      some ((s.setEntry g.databaseId ((s.entry g.databaseId).touch s.now)).setGuards
        ({ g with phase := .touched } :: s.guards.erase g))
    | .touched =>
      some ((s.setEntry g.databaseId ((s.entry g.databaseId).setCount g.kind
        ((s.entry g.databaseId).count g.kind - 1))).setGuards (s.guards.erase g))
  else none

def step (idleTimeout : ℕ) (s : State) : Action → Option State
  | .tick duration => some { s with now := s.now + duration }
  | .allocateDatabase =>
    if s.unlocked then
      some ((s.insertEntry (newEntry false 1 s.now)).setGuards
        (⟨s.nextId, .call, .inUse⟩ :: s.guards))
    else none
  | .bindLegacy => if s.unlocked then some (s.insertEntry (newEntry true 0 s.now)) else none
  | .remove id => if s.unlocked then some (s.unregister id) else none
  | .acquire id kind =>
    if s.unlocked ∧ id ∈ s.registered then
      some ((s.setEntry id ((s.entry id).setCount kind ((s.entry id).count kind + 1))).setGuards
        (⟨id, kind, .counted⟩ :: s.guards))
    else none
  | .guardStep g => guardStep s g
  | .installLease id workerId generation =>
    some (s.setLease id (some ⟨workerId, generation, false, false⟩))
  | .clearLease id => some (s.setLease id none)
  | .loseWorker id =>
    some (s.setLease id ((s.entry id).lease.map fun l => { l with workerUnavailable := true }))
  -- a debugger call runs while its guard is in use
  | .setDebugPin g workerId generation pinned =>
    if g ∈ s.guards ∧ g.phase = .inUse then
      some (s.setLease g.databaseId ((s.entry g.databaseId).lease.map fun l =>
        if l.workerId = workerId ∧ l.generation = generation then { l with debugPinned := pinned }
        else l))
    else none
  | .wakeReaper order =>
    if s.reaper = .sleeping ∧ order.isPerm s.registered then some (s.goto (.collecting order []))
    else none
  | .reaperStep contended => reaperStep idleTimeout s contended

def removal (idleTimeout : ℕ) (s : State) : Action → Option Reapable
  | .reaperStep contended =>
    match s.reaper with
    | .taking (r :: _) _ => if stillReapable idleTimeout s r contended then some r else none
    | _ => none
  | _ => none

end IdaMcp.Registry
