import Mathlib.Logic.Function.Basic
import Mathlib.Data.List.Basic

namespace IdaMcp.Foundation

variable {σ α β : Type*}

/-- The state a partial step function reaches by a list of actions, if every action is enabled. -/
def run (step : σ → α → Option σ) : σ → List α → Option σ
  | s, [] => some s
  | s, a :: as => (step s a).bind fun t => run step t as

/-- Every action of the run is taken from a state in which `ok` allows it. -/
def Meets (step : σ → α → Option σ) (ok : σ → α → Prop) : σ → List α → Prop
  | _, [] => True
  | s, a :: as => ok s a ∧ ∀ t, step s a = some t → Meets step ok t as

def Reachable (step : σ → α → Option σ) (s t : σ) : Prop :=
  ∃ as, run step s as = some t

def ReachableBy (step : σ → α → Option σ) (ok : σ → α → Prop) (s t : σ) : Prop :=
  ∃ as, Meets step ok s as ∧ run step s as = some t

variable {step : σ → α → Option σ} {ok : σ → α → Prop}

@[simp] theorem run_nil (s : σ) : run step s [] = some s := rfl

theorem run_cons_eq_some {s u : σ} {a : α} {as : List α} :
    run step s (a :: as) = some u ↔ ∃ t, step s a = some t ∧ run step t as = some u :=
  Option.bind_eq_some_iff

theorem run_append {s : σ} {as bs : List α} :
    run step s (as ++ bs) = (run step s as).bind fun t => run step t bs := by
  induction as generalizing s with
  | nil => rfl
  | cons a as ih =>
    rw [List.cons_append, run, run]
    cases step s a with
    | none => rfl
    | some t => exact ih

theorem meets_true (s : σ) (as : List α) : Meets step (fun _ _ => True) s as := by
  induction as generalizing s with
  | nil => trivial
  | cons a as ih => exact ⟨trivial, fun t _ => ih t⟩

theorem run_append_cons {s t : σ} {as bs : List α} {a : α} :
    run step s (as ++ a :: bs) = some t ↔
      ∃ u v, run step s as = some u ∧ step u a = some v ∧ run step v bs = some t := by
  rw [run_append, Option.bind_eq_some_iff]
  constructor
  · rintro ⟨u, hu, h⟩
    obtain ⟨v, hv, h⟩ := run_cons_eq_some.mp h
    exact ⟨u, v, hu, hv, h⟩
  · rintro ⟨u, v, hu, hv, h⟩
    exact ⟨u, hu, run_cons_eq_some.mpr ⟨v, hv, h⟩⟩

theorem meets_iff {s : σ} {as : List α} : Meets step ok s as ↔
    ∀ before a after t, as = before ++ a :: after → run step s before = some t → ok t a := by
  induction as generalizing s with
  | nil => simp [Meets]
  | cons a as ih =>
    constructor
    · rintro ⟨ha, hrest⟩ before b after t heq hrun
      cases before with
      | nil =>
        obtain ⟨rfl, rfl⟩ := List.cons.inj heq
        cases hrun
        exact ha
      | cons c before =>
        obtain ⟨rfl, rfl⟩ := List.cons.inj heq
        obtain ⟨u, hu, hrun⟩ := run_cons_eq_some.mp hrun
        exact ih.mp (hrest u hu) before b after t rfl hrun
    · intro h
      refine ⟨h [] a as s rfl rfl, fun u hu => ih.mpr ?_⟩
      rintro before b after t rfl hrun
      exact h (a :: before) b after t rfl (run_cons_eq_some.mpr ⟨u, hu, hrun⟩)

theorem exists_not_ok {s : σ} {as : List α} (h : ¬Meets step ok s as) :
    ∃ before a after t, as = before ++ a :: after ∧ Meets step ok s before ∧
      run step s before = some t ∧ ¬ok t a := by
  induction as generalizing s with
  | nil => exact absurd trivial h
  | cons a as ih =>
    by_cases ha : ok s a
    · obtain ⟨u, hu, hrest⟩ : ∃ u, step s a = some u ∧ ¬Meets step ok u as := by
        by_contra hnone
        refine h ⟨ha, fun u hu => ?_⟩
        by_contra hrest
        exact hnone ⟨u, hu, hrest⟩
      obtain ⟨before, b, after, t, rfl, hmeets, hrun, hb⟩ := ih hrest
      refine ⟨a :: before, b, after, t, rfl, ⟨ha, ?_⟩, run_cons_eq_some.mpr ⟨u, hu, hrun⟩, hb⟩
      intro w hw
      obtain rfl := Option.some.inj (hu.symm.trans hw)
      exact hmeets
    · exact ⟨[], a, as, s, rfl, trivial, rfl, ha⟩

def decidableMeets [∀ s a, Decidable (ok s a)] : ∀ s as, Decidable (Meets step ok s as)
  | _, [] => isTrue trivial
  | s, a :: as =>
    match h : step s a with
    | none => decidable_of_iff (ok s a) (by simp [Meets, h])
    | some t =>
      haveI := decidableMeets t as
      decidable_of_iff (ok s a ∧ Meets step ok t as) (by simp [Meets, h])

instance [∀ s a, Decidable (ok s a)] (s : σ) (as : List α) : Decidable (Meets step ok s as) :=
  decidableMeets s as

theorem Reachable.refl (s : σ) : Reachable step s s := ⟨[], rfl⟩

theorem Reachable.tail {s t u : σ} {a : α} (h : Reachable step s t) (ha : step t a = some u) :
    Reachable step s u := by
  obtain ⟨as, has⟩ := h
  refine ⟨as ++ [a], ?_⟩
  rw [run_append, has]
  simp [run, ha]

theorem invariant_of_meets {I : σ → Prop}
    (hstep : ∀ s a t, I s → ok s a → step s a = some t → I t)
    {s t : σ} (hs : I s) (h : ReachableBy step ok s t) : I t := by
  obtain ⟨as, hm, hr⟩ := h
  induction as generalizing s with
  | nil => cases hr; exact hs
  | cons a as ih =>
    obtain ⟨u, hu, hrest⟩ := run_cons_eq_some.mp hr
    exact ih (hstep s a u hs hm.1 hu) (hm.2 u hu) hrest

theorem invariant_of_reachable {I : σ → Prop} (hstep : ∀ s a t, I s → step s a = some t → I t)
    {s t : σ} (hs : I s) (h : Reachable step s t) : I t := by
  obtain ⟨as, hr⟩ := h
  have hmeets : ReachableBy step (fun _ _ => True) s t := ⟨as, meets_true s as, hr⟩
  exact invariant_of_meets (fun s a t hi _ => hstep s a t hi) hs hmeets

def observed (step : σ → α → Option σ) (obs : σ → α → Option β) : σ → List α → List β
  | _, [] => []
  | s, a :: as =>
    match step s a with
    | none => []
    | some t => (obs s a).toList ++ observed step obs t as

/-- If no step lowers a counter, and a step shows the observer only values above the counter before
it and not above the counter after it, then no value is shown twice. -/
theorem observed_pairwise_lt {I : σ → Prop} {obs : σ → α → Option ℕ} {counter : σ → ℕ}
    (hkeep : ∀ s a t, I s → step s a = some t → I t)
    (hmono : ∀ s a t, I s → step s a = some t → counter s ≤ counter t)
    (hobs : ∀ s a t n, step s a = some t → obs s a = some n → counter s < n ∧ n ≤ counter t)
    (as : List α) {s : σ} (hs : I s) :
    (observed step obs s as).Pairwise (· < ·) ∧ ∀ n ∈ observed step obs s as, counter s < n := by
  induction as generalizing s with
  | nil => simp [observed]
  | cons a as ih =>
    rw [observed]
    cases ht : step s a with
    | none => simp
    | some t =>
      obtain ⟨hpair, hlow⟩ := ih (hkeep s a t hs ht)
      cases ho : obs s a with
      | none =>
        refine ⟨by simpa using hpair, ?_⟩
        intro n hn
        exact Nat.lt_of_le_of_lt (hmono s a t hs ht) (hlow n (by simpa using hn))
      | some m =>
        obtain ⟨hm, hm'⟩ := hobs s a t m ht ho
        have habove : ∀ n ∈ observed step obs t as, m < n :=
          fun n hn => Nat.lt_of_le_of_lt hm' (hlow n hn)
        simp only [Option.toList_some, List.cons_append, List.nil_append, List.pairwise_cons,
          List.mem_cons, forall_eq_or_imp]
        exact ⟨⟨habove, hpair⟩, hm, fun n hn => Nat.lt_trans hm (habove n hn)⟩

end IdaMcp.Foundation
