import IdaMcp.Foundation.Delimited
import IdaMcp.Foundation.Radix
import Mathlib.Logic.Function.Basic

namespace IdaMcp.Trail

open Foundation Radix

def recentEventCap : ℕ := 20

def maxRecentLimit : ℕ := 50

inductive OperationStatus
  | queued
  | running
  | completed
  | failed
  | timedOut
  | cancelled
deriving DecidableEq, Repr

def OperationStatus.isTerminal : OperationStatus → Bool
  | queued | running => false
  | _ => true

structure Clock where
  nowMs : ℕ
  instant : ℕ

structure OperationState where
  opId : String
  tool : String
  targetSummary : String
  phase : String
  status : OperationStatus
  message : String
  startedAt : ℕ
  startedAtMs : ℕ
  lastUpdateMs : ℕ

structure OperationSnapshot where
  opId : String
  tool : String
  targetSummary : String
  phase : String
  status : OperationStatus
  message : String
  startedAtMs : ℕ
  lastUpdateMs : ℕ
  elapsedMs : ℕ

structure OperationEvent where
  opId : String
  tool : String
  targetSummary : String
  phase : String
  status : OperationStatus
  message : String
  timestampMs : ℕ
  elapsedMs : ℕ

structure RecentOperations where
  activeOperation : Option OperationSnapshot
  recentEvents : List OperationEvent

namespace OperationState

def elapsedMs (state : OperationState) (clock : Clock) : ℕ :=
  (clock.instant - state.startedAt) / 1000000 % 18446744073709551616

def snapshot (state : OperationState) (clock : Clock) : OperationSnapshot where
  opId := state.opId
  tool := state.tool
  targetSummary := state.targetSummary
  phase := state.phase
  status := state.status
  message := state.message
  startedAtMs := state.startedAtMs
  lastUpdateMs := state.lastUpdateMs
  elapsedMs := state.elapsedMs clock

def event (state : OperationState) (clock : Clock) : OperationEvent where
  opId := state.opId
  tool := state.tool
  targetSummary := state.targetSummary
  phase := state.phase
  status := state.status
  message := state.message
  timestampMs := state.lastUpdateMs
  elapsedMs := state.elapsedMs clock

def progressed (state : OperationState) (phase message : String) (clock : Clock) : OperationState :=
  { state with
    phase
    status := if phase = "queued" then .queued else .running
    message
    lastUpdateMs := clock.nowMs }

def finishedPhase (phase : String) (status : OperationStatus) : String :=
  if phase = "queued" then
    match status with
    | .completed => "completed"
    | .failed => "failed"
    | .timedOut => "timed_out"
    | .cancelled => "cancelled"
    | .queued | .running => phase
  else phase

def finished (state : OperationState) (status : OperationStatus) (message : String) (clock : Clock) :
    OperationState :=
  { state with
    phase := finishedPhase state.phase status
    status
    message
    lastUpdateMs := clock.nowMs }

theorem progressed_status (state : OperationState) (phase message : String) (clock : Clock) :
    (state.progressed phase message clock).status.isTerminal = false := by
  unfold progressed
  split_ifs <;> rfl

end OperationState

structure OperationRegistry where
  activeOpId : Option String
  current : String → Option OperationState
  /-- The oldest event first. -/
  events : List OperationEvent

def pushEvent (events : List OperationEvent) (event : OperationEvent) : List OperationEvent :=
  (if events.length = recentEventCap then events.tail else events) ++ [event]

namespace OperationRegistry

def new : OperationRegistry where
  activeOpId := none
  current := fun _ => none
  events := []

def queued (opId tool targetSummary : String) (clock : Clock) : OperationState where
  opId := opId
  tool := tool
  targetSummary := targetSummary
  phase := "queued"
  status := .queued
  message := "Queued for IDA worker execution"
  startedAt := clock.instant
  startedAtMs := clock.nowMs
  lastUpdateMs := clock.nowMs

variable (r : OperationRegistry)

def start (state : OperationState) (clock : Clock) : OperationRegistry where
  activeOpId := some state.opId
  current := Function.update r.current state.opId (some state)
  events := pushEvent r.events (state.event clock)

def recordProgress (opId phase message : String) (clock : Clock) :
    Option (OperationRegistry × OperationState) :=
  (r.current opId).map fun state =>
    let state := state.progressed phase message clock
    ({ activeOpId := some opId
       current := Function.update r.current opId (some state)
       events := pushEvent r.events (state.event clock) }, state)

def finish (opId : String) (status : OperationStatus) (message : String) (clock : Clock) :
    Option (OperationRegistry × OperationState) :=
  (r.current opId).map fun state =>
    let state := state.finished status message clock
    ({ activeOpId := if r.activeOpId = some opId then none else r.activeOpId
       current := Function.update r.current opId none
       events := pushEvent r.events (state.event clock) }, state)

def requestedLimit (limit : Option ℕ) : ℕ := min (max (limit.getD recentEventCap) 1) maxRecentLimit

def recent (limit : Option ℕ) (clock : Clock) : RecentOperations where
  activeOperation := (r.activeOpId.bind r.current).map (·.snapshot clock)
  recentEvents := r.events.reverse.take (requestedLimit limit)

end OperationRegistry

def nextOperationId (now nonce : ℕ) : String :=
  "fg-" ++ String.ofList (padded 16 16 now) ++ "-" ++ String.ofList (padded 16 8 nonce)

theorem nextOperationId_injective {now now' nonce nonce' : ℕ}
    (h : nextOperationId now nonce = nextOperationId now' nonce') : nonce = nonce' := by
  have hdash (width n : ℕ) : '-' ∉ padded 16 width n := by
    intro hmem
    obtain ⟨k, hk, hchar⟩ := exists_digit_of_mem_padded (by decide) hmem
    have hnone : ∀ k < 16, '-' ≠ Nat.digitChar k := by decide
    exact hnone k hk hchar
  have hchars := congrArg String.toList h
  simp only [nextOperationId, String.toList_append, String.toList_ofList] at hchars
  have hsplit (m n : ℕ) : "fg-".toList ++ padded 16 16 m ++ "-".toList ++ padded 16 8 n =
      ("fg-".toList ++ padded 16 16 m) ++ '-' :: padded 16 8 n := by
    simp
  rw [hsplit, hsplit] at hchars
  exact padded_injective (by decide) (by decide) 8
    (Delimited.split_last (hdash 8 nonce) (hdash 8 nonce') hchars).2

theorem pushEvent_eq (recorded : List OperationEvent) (event : OperationEvent) :
    pushEvent (recorded.drop (recorded.length - recentEventCap)) event =
      (recorded ++ [event]).drop ((recorded ++ [event]).length - recentEventCap) := by
  rw [pushEvent, List.length_drop, List.length_append, List.length_singleton]
  by_cases hfull : recentEventCap ≤ recorded.length
  · have hone : recorded.length + 1 - recentEventCap = recorded.length - recentEventCap + 1 := by omega
    rw [if_pos (by omega), List.tail_drop, hone, List.drop_append_of_le_length]
    unfold recentEventCap at *
    omega
  · have hnone : recorded.length - recentEventCap = 0 ∧ recorded.length + 1 - recentEventCap = 0 := by
      omega
    rw [if_neg (by omega), hnone.1, hnone.2, List.drop_zero, List.drop_zero]

theorem reverse_kept (recorded : List OperationEvent) :
    (recorded.drop (recorded.length - recentEventCap)).reverse =
      recorded.reverse.take recentEventCap := by
  rw [List.take_reverse]

end IdaMcp.Trail
