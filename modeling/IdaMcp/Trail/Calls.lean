import IdaMcp.Foreground.Operation
import IdaMcp.Trail.Registry

namespace IdaMcp.Trail

open Foundation Foreground

structure Update where
  phase : String
  message : String

inductive Outcome
  | finished (result : Except ToolError Unit)
  | givenUp (givenUp : GivenUp) (fatal : Option ToolError)

inductive Position
  | running
  | cleanup (givenUp : GivenUp)
  | draining (outcome : Outcome)
  | returned
  | dropped

structure Call where
  opId : String
  toolName : String
  timeoutSecs : ℕ
  position : Position
  /-- The updates that have been sent and not received. -/
  progress : List Update
  hungUp : Bool
  operationFinished : Bool
  aborted : Bool
  drained : Bool

structure State where
  registry : OperationRegistry
  nonce : ℕ
  call : ℕ → Option Call
  /-- Every event since the start, the oldest first. -/
  recorded : List OperationEvent

inductive Turn
  | send (update : Update)
  | hangUp
  | drain (clock : Clock)
  | settle (result : Except ToolError Unit)
  | giveUp (givenUp : GivenUp)
  | cleaned (settled : Option (Except ToolError Unit))
  | abort
  | finish (clock : Clock)
  | drop

inductive Action
  | begin (toolName targetSummary : String) (timeoutSecs : ℕ) (clock : Clock)
  | run (u : ℕ) (turn : Turn)

def initial : State where
  registry := .new
  nonce := 0
  call := fun _ => none
  recorded := []

def finishCancelledForeground : Option (Except ToolError Unit) → Option ToolError
  | some (.error error) => if error.isFatal then some error else none
  | _ => none

def Outcome.terminal (toolName : String) (timeoutSecs : ℕ) : Outcome → OperationStatus × String
  | finished (.ok _) => (.completed, toolName ++ " completed successfully")
  | finished (.error (.cancelled _)) => (.cancelled, toolName ++ " cancelled")
  | finished (.error error) => (.failed, toolName ++ " failed: " ++ error.display)
  | givenUp _ (some error) => (.failed, toolName ++ " failed: " ++ error.display)
  | givenUp .timedOut none =>
    (.timedOut, toolName ++ " timed out after " ++ toString timeoutSecs ++ "s")
  | givenUp .cancelled none => (.cancelled, toolName ++ " cancelled by client")

namespace State

def setCall (s : State) (u : ℕ) (c : Call) : State :=
  { s with call := Function.update s.call u (some c) }

def push (s : State) (clock : Clock) : Option (OperationRegistry × OperationState) → State
  | none => s
  | some (registry, state) => { s with registry, recorded := s.recorded ++ [state.event clock] }

def begin (s : State) (toolName targetSummary : String) (timeoutSecs : ℕ) (clock : Clock) : State :=
  let opId := nextOperationId clock.nowMs s.nonce
  let state := OperationRegistry.queued opId toolName targetSummary clock
  { (s.push clock (some (s.registry.start state clock, state))).setCall s.nonce
      { opId, toolName, timeoutSecs
        position := .running
        progress := []
        hungUp := false
        operationFinished := false
        aborted := false
        drained := false } with
    nonce := s.nonce + 1 }

def drain (s : State) (u : ℕ) (c : Call) (clock : Clock) : Option State :=
  if c.drained then none
  else
    match c.progress with
    | update :: progress =>
      some ((s.push clock (s.registry.recordProgress c.opId update.phase update.message clock)).setCall
        u { c with progress })
    | [] =>
      if c.operationFinished || c.hungUp then some (s.setCall u { c with drained := true })
      else none

def finish (s : State) (u : ℕ) (c : Call) (outcome : Outcome) (clock : Clock) : State :=
  let terminal := outcome.terminal c.toolName c.timeoutSecs
  (s.push clock (s.registry.finish c.opId terminal.1 terminal.2 clock)).setCall u
    { c with position := .returned }

end State

/-- One step of a call or of its drain task. The drain goes on when its call is dropped; what is sent
after its end is lost. -/
def next (s : State) (u : ℕ) (c : Call) : Turn → Option State
  | .send update =>
    if c.hungUp then none
    else some (s.setCall u (if c.drained then c else { c with progress := c.progress ++ [update] }))
  | .hangUp => some (s.setCall u { c with hungUp := true })
  | .drain clock => s.drain u c clock
  | .settle result =>
    match c.position with
    | .running =>
      some (s.setCall u { c with position := .draining (.finished result), operationFinished := true })
    | _ => none
  | .giveUp givenUp =>
    match c.position with
    | .running => some (s.setCall u { c with position := .cleanup givenUp })
    | _ => none
  | .cleaned settled =>
    match c.position with
    | .cleanup givenUp =>
      some (s.setCall u { c with
        position := .draining (.givenUp givenUp (finishCancelledForeground settled))
        aborted := true })
    | _ => none
  | .abort =>
    if c.aborted && !c.drained then some (s.setCall u { c with drained := true }) else none
  | .finish clock =>
    match c.position with
    | .draining outcome => if c.drained then some (s.finish u c outcome clock) else none
    | _ => none
  | .drop =>
    match c.position with
    | .returned | .dropped => none
    | _ => some (s.setCall u { c with position := .dropped })

def step (s : State) : Action → Option State
  | .begin toolName targetSummary timeoutSecs clock =>
    some (s.begin toolName targetSummary timeoutSecs clock)
  | .run u turn => (s.call u).bind fun c => next s u c turn

structure Keeps (turn : Turn) (c c' : Call) : Prop where
  opId : c'.opId = c.opId
  returned : c'.position = .returned ↔ c.position = .returned
  dropped : c'.position = .dropped → c.position = .dropped ∨ turn = .drop
  stays : c.position = .dropped → c'.position = .dropped

variable {s t : State} {u v : ℕ} {c c' : Call} {turn : Turn}

theorem exists_keeps (h : s.setCall u c' = t) (hkeeps : Keeps turn c c') :
    ∃ c', Keeps turn c c' ∧ t = s.setCall u c' := ⟨c', hkeeps, h.symm⟩

theorem next_cases (h : next s u c turn = some t) :
    (∃ c', Keeps turn c c' ∧ t = s.setCall u c') ∨
      (∃ clock, ∃ update : Update, ∃ progress, turn = .drain clock ∧
        t = (s.push clock (s.registry.recordProgress c.opId update.phase update.message clock)).setCall
          u { c with progress }) ∨
      ∃ clock outcome, turn = .finish clock ∧ c.position = .draining outcome ∧
        t = s.finish u c outcome clock := by
  cases turn with
  | send update =>
    rw [next, Option.ite_none_left_eq_some, Option.some_inj] at h
    refine .inl (exists_keeps h.2 ?_)
    split_ifs <;> exact ⟨rfl, .rfl, .inl, id⟩
  | hangUp => exact .inl (exists_keeps (Option.some_inj.mp h) ⟨rfl, .rfl, .inl, id⟩)
  | drain clock =>
    rw [next, State.drain, Option.ite_none_left_eq_some] at h
    obtain ⟨-, h⟩ := h
    split at h
    · next update progress _ =>
      exact .inr (.inl ⟨clock, update, progress, rfl, (Option.some_inj.mp h).symm⟩)
    · rw [Option.ite_none_right_eq_some, Option.some_inj] at h
      exact .inl (exists_keeps h.2 ⟨rfl, .rfl, .inl, id⟩)
  | settle result =>
    cases hposition : c.position with
    | running =>
      simp only [next, hposition, Option.some_inj] at h
      exact .inl (exists_keeps h ⟨rfl, by simp [hposition], by simp, by simp [hposition]⟩)
    | _ => simp [next, hposition] at h
  | giveUp givenUp =>
    cases hposition : c.position with
    | running =>
      simp only [next, hposition, Option.some_inj] at h
      exact .inl (exists_keeps h ⟨rfl, by simp [hposition], by simp, by simp [hposition]⟩)
    | _ => simp [next, hposition] at h
  | cleaned settled =>
    cases hposition : c.position with
    | cleanup givenUp =>
      simp only [next, hposition, Option.some_inj] at h
      exact .inl (exists_keeps h ⟨rfl, by simp [hposition], by simp, by simp [hposition]⟩)
    | _ => simp [next, hposition] at h
  | abort =>
    rw [next, Option.ite_none_right_eq_some, Option.some_inj] at h
    exact .inl (exists_keeps h.2 ⟨rfl, .rfl, .inl, id⟩)
  | finish clock =>
    cases hposition : c.position with
    | draining outcome =>
      simp only [next, hposition, Option.ite_none_right_eq_some, Option.some_inj] at h
      exact .inr (.inr ⟨clock, outcome, rfl, rfl, h.2.symm⟩)
    | _ => simp [next, hposition] at h
  | drop =>
    cases hposition : c.position with
    | returned | dropped => simp [next, hposition] at h
    | _ =>
      simp only [next, hposition, Option.some_inj] at h
      exact .inl (exists_keeps h ⟨rfl, by simp [hposition], fun _ => .inr rfl, fun _ => rfl⟩)

end IdaMcp.Trail
