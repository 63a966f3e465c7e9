import Mathlib.Data.Multiset.DershowitzManna
import Mathlib.Data.Multiset.Range
import IdaMcp.Foundation.Machine

namespace IdaMcp.Foundation

variable {σ α : Type*} {step : σ → α → Option σ} {ok : σ → α → Prop} {s s' u : σ}

theorem reachableBy_cons {a : α} (ha : ok s a) (hstep : step s a = some u)
    (h : ReachableBy step ok u s') : ReachableBy step ok s s' := by
  obtain ⟨as, hmeets, hrun⟩ := h
  refine ⟨a :: as, ⟨ha, ?_⟩, run_cons_eq_some.mpr ⟨u, hstep, hrun⟩⟩
  intro v hv
  obtain rfl := Option.some.inj (hstep.symm.trans hv)
  exact hmeets

theorem ReachableBy.trans (h : ReachableBy step ok s u) (h' : ReachableBy step ok u s') :
    ReachableBy step ok s s' := by
  obtain ⟨as, hmeets, hrun⟩ := h
  induction as generalizing s with
  | nil =>
    cases hrun
    exact h'
  | cons a as ih =>
    obtain ⟨v, hv, hrest⟩ := run_cons_eq_some.mp hrun
    exact reachableBy_cons hmeets.1 hv (ih (hmeets.2 v hv) hrest)

/-- What a machine says of the agents that it runs: how many it has started, and how far each of them
is from its end. -/
structure Agents (σ : Type*) where
  started : σ → ℕ
  rank : σ → ℕ → ℕ

namespace Agents

structure Frame (A : Agents σ) (t r : ℕ) (s s' : σ) : Prop where
  others : ∀ t' < A.started s, t' ≠ t → A.rank s' t' = A.rank s t'
  started_le : A.started s ≤ A.started s'
  begun : ∀ t', A.started s ≤ t' → A.rank s' t' < r

/-- Left to itself from `s`, by actions that `solo` allows, agent `t` comes down below `r`. -/
inductive Settles (step : σ → α → Option σ) (solo : α → Prop) (A : Agents σ) (t r : ℕ) : σ → Prop
  | settled {s : σ} (hrank : A.rank s t < r) (hbelow : ∀ t', A.started s ≤ t' → A.rank s t' < r) :
    Settles step solo A t r s
  | go {s s' : σ} {a : α} (ha : solo a) (hstep : step s a = some s') (hframe : Frame A t r s s')
    (hrest : Settles step solo A t r s') : Settles step solo A t r s

variable {A : Agents σ} {t r : ℕ}

theorem Frame.trans (h : A.Frame t r s u) (h' : A.Frame t r u s') (ht : t < A.started s) :
    A.Frame t r s s' where
  others t' hlt hne := by
    rw [h'.others t' (Nat.lt_of_lt_of_le hlt h.started_le) hne, h.others t' hlt hne]
  started_le := Nat.le_trans h.started_le h'.started_le
  begun t' hle := by
    by_cases hlt : t' < A.started u
    · have hne : t' ≠ t := by omega
      rw [h'.others t' hlt hne]
      exact h.begun t' hle
    · exact h'.begun t' (Nat.le_of_not_lt hlt)

def ranks (A : Agents σ) (s : σ) : Multiset ℕ := (Multiset.range (A.started s)).map (A.rank s)

theorem ranks_lt (hframe : A.Frame t (A.rank s t) s s') (ht : t < A.started s)
    (hless : A.rank s' t < A.rank s t) : (A.ranks s').IsDershowitzMannaLT (A.ranks s) := by
  obtain ⟨n, hn⟩ := Nat.exists_eq_add_of_le hframe.started_le
  have hmem : t ∈ Multiset.range (A.started s) := Multiset.mem_range.mpr ht
  have hsplit := Multiset.cons_erase hmem
  have hsame : ((Multiset.range (A.started s)).erase t).map (A.rank s') =
      ((Multiset.range (A.started s)).erase t).map (A.rank s) := by
    apply Multiset.map_congr rfl
    intro t' ht'
    rw [(Multiset.nodup_range _).mem_erase_iff, Multiset.mem_range] at ht'
    exact hframe.others t' ht'.2 ht'.1
  refine ⟨((Multiset.range (A.started s)).erase t).map (A.rank s),
    A.rank s' t ::ₘ ((Multiset.range n).map (A.started s + ·)).map (A.rank s'), {A.rank s t}, by simp, ?_, ?_, ?_⟩
  · rw [ranks, hn, Multiset.range_add, Multiset.map_add, ← hsplit, Multiset.map_cons, hsame]
    simp
  · rw [ranks, ← hsplit, Multiset.map_cons, Multiset.erase_cons_head, ← Multiset.singleton_add, add_comm]
  · intro r hr
    refine ⟨A.rank s t, Multiset.mem_singleton_self _, ?_⟩
    rcases Multiset.mem_cons.mp hr with rfl | hr
    · exact hless
    · simp only [Multiset.map_map, Multiset.mem_map, Function.comp_apply] at hr
      obtain ⟨i, -, rfl⟩ := hr
      exact hframe.begun _ (Nat.le_add_right _ _)

variable {solo : α → Prop}

theorem Settles.reaches (h : Settles step solo A t r s) (ht : t < A.started s) :
    ∃ s', ReachableBy step (fun _ a => solo a) s s' ∧ A.Frame t r s s' ∧ A.rank s' t < r := by
  induction h with
  | settled hrank hbelow =>
    exact ⟨_, ⟨[], trivial, rfl⟩, ⟨fun _ _ _ => rfl, Nat.le_refl _, hbelow⟩, hrank⟩
  | go ha hstep hframe _ ih =>
    obtain ⟨s', hreach, hframe', hrank⟩ := ih (Nat.lt_of_lt_of_le ht hframe.started_le)
    exact ⟨s', reachableBy_cons ha hstep hreach, hframe.trans hframe' ht, hrank⟩

/-- Where some agent can always be brought down by itself, all of them can be brought to their end. -/
theorem drains {I : σ → Prop} (hkeep : ∀ s a s', I s → solo a → step s a = some s' → I s')
    (hsettles : ∀ s, I s → (∃ t, A.rank s t ≠ 0) →
      ∃ t < A.started s, Settles step solo A t (A.rank s t) s) (hs : I s) :
    ∃ s', ReachableBy step (fun _ a => solo a) s s' ∧ ∀ t, A.rank s' t = 0 := by
  have hwf : WellFounded (Multiset.IsDershowitzMannaLT : Multiset ℕ → Multiset ℕ → Prop) :=
    Multiset.wellFounded_isDershowitzMannaLT
  induction hranks : A.ranks s using hwf.induction generalizing s with
  | _ ranks ih =>
    by_cases hdone : ∃ t, A.rank s t ≠ 0
    · obtain ⟨t, ht, hsettle⟩ := hsettles s hs hdone
      obtain ⟨u, hreach, hframe, hless⟩ := hsettle.reaches ht
      have hu : I u := invariant_of_meets (fun s a s' hs ha => hkeep s a s' hs ha) hs hreach
      obtain ⟨s', hrest, hend⟩ := ih _ (hranks ▸ ranks_lt hframe ht hless) hu rfl
      exact ⟨s', ReachableBy.trans hreach hrest, hend⟩
    · refine ⟨s, ⟨[], trivial, rfl⟩, fun t => ?_⟩
      by_contra hne
      exact hdone ⟨t, hne⟩

end Agents

end IdaMcp.Foundation
