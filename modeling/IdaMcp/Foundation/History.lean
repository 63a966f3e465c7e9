import Mathlib.Data.List.Induction
import IdaMcp.Foundation.Machine

/-! Runs taken apart at their end, and what is observed of them. -/

namespace IdaMcp.Foundation

variable {σ α β : Type*} {step : σ → α → Option σ} {obs : σ → α → Option β} {s t u : σ} {as bs : List α}

theorem observed_append (h : run step s as = some t) :
    observed step obs s (as ++ bs) = observed step obs s as ++ observed step obs t bs := by
  induction as generalizing s with
  | nil =>
    cases h
    rfl
  | cons a as ih =>
    obtain ⟨u, hu, hrest⟩ := run_cons_eq_some.mp h
    rw [List.cons_append, observed, observed, hu]
    dsimp only
    rw [ih hrest, List.append_assoc]

theorem observed_snoc {a : α} (h : run step s as = some t) (ha : step t a = some u) :
    observed step obs s (as ++ [a]) = observed step obs s as ++ (obs t a).toList := by
  rw [observed_append h, observed, ha]
  dsimp only
  rw [observed, List.append_nil]

theorem run_snoc_eq_some {a : α} :
    run step s (as ++ [a]) = some u ↔ ∃ t, run step s as = some t ∧ step t a = some u := by
  rw [run_append, Option.bind_eq_some_iff]
  simp [run]

theorem run_induction {P : List α → σ → Prop} (hstart : P [] s)
    (hsnoc : ∀ as a t u, run step s as = some t → P as t → step t a = some u → P (as ++ [a]) u)
    (h : run step s as = some t) : P as t := by
  induction as using List.reverseRecOn generalizing t with
  | nil =>
    cases h
    exact hstart
  | append_singleton as a ih =>
    obtain ⟨v, hv, hstep⟩ := run_snoc_eq_some.mp h
    exact hsnoc as a v t hv (ih hv) hstep

end IdaMcp.Foundation
