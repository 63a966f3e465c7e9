import IdaMcp.Error
import IdaMcp.Foundation.Machine

namespace IdaMcp.Foreground

open Foundation

inductive GivenUp
  | cancelled
  | timedOut
deriving DecidableEq, Repr

inductive Reply
  | ok
  | cancelled
  | timedOut
  | tool (error : ToolError)
deriving DecidableEq, Repr

def Reply.discards : Reply → Bool
  | cancelled | timedOut | tool (.cancelled _) | tool (.timeout _) | tool (.timeoutDetailed _) => true
  | _ => false

def GivenUp.reply : GivenUp → Reply
  | cancelled => .cancelled
  | timedOut => .timedOut

def finished : Except ToolError ℕ → Reply
  | .ok _ => .ok
  | .error (.cancelled _) => .cancelled
  | .error error => .tool error

def finishCancelledForeground (givenUp : GivenUp) : Option (Except ToolError ℕ) → Reply
  | some (.error error) => if error.isFatal then .tool error else givenUp.reply
  | _ => givenUp.reply

inductive Phase
  | running
  | cleanup (givenUp : GivenUp)
  | replied (reply : Reply)
deriving DecidableEq, Repr

variable {β α : Type}

/-- What runs an operation: its steps, what the operation has returned, its cancellation token and the drop
of its future. -/
structure Backend (β α : Type) where
  step : β → α → Option β
  result : β → Option (Except ToolError ℕ)
  cancel : β → β
  drop : β → β

structure State (β : Type) where
  backend : β
  phase : Phase

inductive Action (α : Type)
  | backend (a : α)
  | giveUp (givenUp : GivenUp)
  | poll
  | expire

variable (b : Backend β α)

/-- `run_foreground_operation`, which polls the operation before it looks at anything else. -/
def step (s : State β) : Action α → Option (State β)
  | .backend a => (b.step s.backend a).map fun backend => { s with backend }
  | .giveUp givenUp =>
    if s.phase = .running ∧ (b.result s.backend).isNone then
      some { backend := b.cancel s.backend, phase := .cleanup givenUp }
    else none
  | .poll =>
    match s.phase, b.result s.backend with
    | .running, some result => some { s with phase := .replied (finished result) }
    | .cleanup givenUp, some result =>
      some { s with phase := .replied (finishCancelledForeground givenUp (some result)) }
    | _, _ => none
  | .expire =>
    match s.phase, b.result s.backend with
    | .cleanup givenUp, none =>
      some { backend := b.drop s.backend, phase := .replied (finishCancelledForeground givenUp none) }
    | _, _ => none

def begin (start : β) : State β := { backend := start, phase := .running }

/-- When the server may give up an operation, what may happen to one that it has given up, and when the
cleanup window may end. -/
structure Condition (β α : Type) where
  giveUp : β → Bool
  given : β → α → Bool
  expire : β → Bool

variable (condition : Condition β α)

def Permits (s : State β) : Action α → Prop
  | .giveUp _ => condition.giveUp s.backend = true
  | .expire => condition.expire s.backend = true
  | .backend a => s.phase ≠ .running → condition.given s.backend a = true
  | .poll => True

instance (s : State β) (a : Action α) : Decidable (Permits condition s a) := by
  unfold Permits
  split <;> infer_instance

/-- `I` holds of a backend while its operation runs, `K` when it is given up, and `J` when it has ended and
left nothing. -/
structure Lawful (I K J : β → Prop) : Prop where
  step : ∀ s a t, I s → b.step s a = some t → I t
  finished : ∀ s error, I s → b.result s = some (.error error) → error.wasNeverDispatched = false → J s
  giveUp : ∀ s, I s → b.result s = none → condition.giveUp s = true → K (b.cancel s)
  given : ∀ s a t, K s → b.step s a = some t → condition.given s a = true → K t
  settled : ∀ s result, K s → b.result s = some result → J s
  dropped : ∀ s, K s → b.result s = none → condition.expire s = true → J (b.drop s)
  after : ∀ s a t, J s → b.step s a = some t → condition.given s a = true → J t

def Holds (I K J : β → Prop) (s : State β) : Prop :=
  match s.phase with
  | .running => I s.backend
  | .cleanup _ => K s.backend
  | .replied reply => reply.discards = true → J s.backend

variable {b condition} {I K J : β → Prop} {s t : State β} {start : β}

theorem error_of_finished {result : Except ToolError ℕ} (h : (finished result).discards = true) :
    ∃ error, result = .error error ∧ error.wasNeverDispatched = false := by
  cases result with
  | ok generation => cases h
  | error error =>
    refine ⟨error, rfl, ?_⟩
    cases error with
    | neverDispatched | busy => cases h
    | _ => rfl

theorem holds_step {a : Action α} (hb : Lawful b condition I K J) (hs : Holds I K J s)
    (hok : Permits condition s a) (h : step b s a = some t) : Holds I K J t := by
  unfold Holds at hs
  cases a with
  | backend a =>
    obtain ⟨backend, hstep, rfl⟩ := Option.map_eq_some_iff.mp h
    unfold Holds
    dsimp only
    cases hphase : s.phase with
    | running =>
      rw [hphase] at hs
      exact hb.step _ a _ hs hstep
    | cleanup givenUp =>
      rw [hphase] at hs
      exact hb.given _ a _ hs hstep (hok (by simp [hphase]))
    | replied reply =>
      rw [hphase] at hs
      intro hdiscards
      exact hb.after _ a _ (hs hdiscards) hstep (hok (by simp [hphase]))
  | giveUp givenUp =>
    simp only [step] at h
    rw [Option.ite_none_right_eq_some] at h
    obtain ⟨⟨hphase, hresult⟩, h⟩ := h
    cases h
    rw [hphase] at hs
    exact hb.giveUp _ hs (Option.isNone_iff_eq_none.mp hresult) hok
  | poll =>
    simp only [step] at h
    split at h
    · next result hphase hresult =>
      cases h
      rw [hphase] at hs
      intro hdiscards
      obtain ⟨error, rfl, hdispatched⟩ := error_of_finished hdiscards
      exact hb.finished _ error hs hresult hdispatched
    · next givenUp result hphase hresult =>
      cases h
      rw [hphase] at hs
      exact fun _ => hb.settled _ _ hs hresult
    · cases h
  | expire =>
    simp only [step] at h
    split at h
    · next givenUp hphase hresult =>
      cases h
      rw [hphase] at hs
      exact fun _ => hb.dropped _ hs hresult hok
    · cases h

theorem settled_of_discards (hb : Lawful b condition I K J) (hstart : I start)
    (h : ReachableBy (step b) (Permits condition) (begin start) s) {reply : Reply}
    (hphase : s.phase = .replied reply) (hdiscards : reply.discards = true) : J s.backend := by
  have hs : Holds I K J s := by
    refine invariant_of_meets ?_ ?_ h
    · intro s a t hs hok hstep
      exact holds_step hb hs hok hstep
    · exact hstart
  rw [Holds, hphase] at hs
  exact hs hdiscards

end IdaMcp.Foreground
