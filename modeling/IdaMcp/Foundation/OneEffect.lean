import Mathlib.Tactic.TypeStar

namespace IdaMcp.Foundation

def Prog (ε σ α : Type) : Type := σ → Except ε α × σ

structure World (ε σ E : Type) (Out : E → Type) where
  perform : (effect : E) → Prog ε σ (Out effect)

namespace Prog

variable {ε σ α β E : Type} {Out : E → Type} (world : World ε σ E Out)

def bind (prog : Prog ε σ α) (next : α → Prog ε σ β) : Prog ε σ β := fun s =>
  match prog s with
  | (.ok value, s) => next value s
  | (.error e, s) => (.error e, s)

instance : Monad (Prog ε σ) where
  pure value := fun s => (.ok value, s)
  bind := bind

instance : MonadLift (Except ε) (Prog ε σ) where
  monadLift result := fun s => (result, s)

def look (view : σ → Except ε α) : Prog ε σ α := fun s => (view s, s)

theorem lift_bind_run (result : Except ε α) (next : α → Prog ε σ β) (s : σ) :
    ((liftM result : Prog ε σ α) >>= next) s =
      match result with
      | .ok value => next value s
      | .error e => (.error e, s) := by
  cases result <;> rfl

theorem lift_ok_bind (value : α) (next : α → Prog ε σ β) :
    ((liftM (.ok value : Except ε α) : Prog ε σ α) >>= next) = next value :=
  rfl

theorem lift_bind_state {result : Except ε α} {next : α → Prog ε σ β} {s : σ} (h : ∀ value, (next value s).2 = s) :
    (((liftM result : Prog ε σ α) >>= next) s).2 = s := by
  rw [lift_bind_run]
  cases result with
  | error e => rfl
  | ok value => exact h value

theorem look_bind_run (view : σ → Except ε α) (next : α → Prog ε σ β) (s : σ) :
    (look view >>= next) s =
      match view s with
      | .ok value => next value s
      | .error e => (.error e, s) := by
  change bind (look view) next s = _
  unfold bind look
  cases view s <;> rfl

/-- The program performs the effect that is aimed at, and returns what is due or the effect's own error. Where
nothing is aimed at, it fails and changes nothing. -/
def Performs {ρ : Type} (Due : (effect : E) → ρ → Out effect → α → Prop) (prog : Prog ε σ α) (s : σ)
    (aim : E → ρ → Prop) : Prop :=
  (∃ effect record, aim effect record ∧ (prog s).2 = (world.perform effect s).2 ∧
    match (world.perform effect s).1 with
    | .ok out => ∃ value, (prog s).1 = .ok value ∧ Due effect record out value
    | .error e => (prog s).1 = .error e) ∨
  (∀ effect record, ¬ aim effect record) ∧ ∃ e, prog s = (.error e, s)

namespace Performs

variable {world} {ρ : Type} {Due : (effect : E) → ρ → Out effect → α → Prop} {s : σ}

theorem congr {prog : Prog ε σ α} {aim aim' : E → ρ → Prop} (h : Performs world Due prog s aim)
    (haim : ∀ effect record, aim effect record ↔ aim' effect record) : Performs world Due prog s aim' := by
  obtain rfl : aim = aim' := by
    funext effect record
    exact propext (haim effect record)
  exact h

theorem fails {prog : Prog ε σ α} {aim : E → ρ → Prop} (hprog : ∃ e, prog s = (.error e, s))
    (haim : ∀ effect record, ¬ aim effect record) : Performs world Due prog s aim :=
  .inr ⟨haim, hprog⟩

theorem lift {result : Except ε β} {next : β → Prog ε σ α} {aim : β → E → ρ → Prop}
    (h : ∀ value, result = .ok value → Performs world Due (next value) s (aim value)) :
    Performs world Due (liftM result >>= next) s
      fun effect record => ∃ value, result = .ok value ∧ aim value effect record := by
  unfold Performs
  rw [lift_bind_run]
  cases result with
  | error e =>
    right
    exact ⟨fun effect record h => (nomatch h.choose_spec.1), e, rfl⟩
  | ok value =>
    simp only [Except.ok.injEq, exists_eq_left']
    exact h value rfl

theorem look {view : σ → Except ε β} {next : β → Prog ε σ α} {aim : β → E → ρ → Prop}
    (h : ∀ value, view s = .ok value → Performs world Due (next value) s (aim value)) :
    Performs world Due (Prog.look view >>= next) s
      fun effect record => ∃ value, view s = .ok value ∧ aim value effect record := by
  unfold Performs
  rw [look_bind_run]
  cases hview : view s with
  | error e =>
    right
    exact ⟨fun effect record h => (nomatch h.choose_spec.1), e, rfl⟩
  | ok value =>
    simp only [Except.ok.injEq, exists_eq_left']
    exact h value hview

theorem act {effect : E} {record : ρ} {next : Out effect → Prog ε σ α}
    (h : ∀ out s, ∃ value, next out s = (.ok value, s) ∧ Due effect record out value) :
    Performs world Due (world.perform effect >>= next) s
      fun effect' record' => effect' = effect ∧ record' = record := by
  left
  refine ⟨effect, record, ⟨rfl, rfl⟩, ?_⟩
  have hrun : (world.perform effect >>= next) s = bind (world.perform effect) next s := rfl
  rw [hrun, bind]
  cases hperform : world.perform effect s with
  | mk result s =>
    cases result with
    | error e => exact ⟨rfl, rfl⟩
    | ok out =>
      obtain ⟨value, hnext, hdue⟩ := h out s
      exact ⟨congrArg Prod.snd hnext, value, congrArg Prod.fst hnext, hdue⟩

end Performs

end Prog

end IdaMcp.Foundation
