import Mathlib.Order.Nat
import Mathlib.Data.Nat.Init
import Mathlib.Tactic.Tauto

/-! Breadth-first search of a graph from a root, up to a depth. -/

namespace IdaMcp.Foundation.BreadthFirst

variable {α : Type*} (next : α → α → Prop) (root : α)

def Within : ℕ → α → Prop
  | 0, a => a = root
  | n + 1, a => Within n a ∨ ∃ b, Within n b ∧ next b a

variable {next root} {limit k m n : ℕ} {a b : α}

theorem Within.mono (h : Within next root m a) (hmn : m ≤ n) : Within next root n a := by
  induction n, hmn using Nat.le_induction with
  | base => exact h
  | succ n _ ih => exact Or.inl ih

theorem within_root (n : ℕ) : Within next root n root :=
  Within.mono (m := 0) rfl (Nat.zero_le n)

theorem Within.step (h : Within next root n a) (hab : next a b) : Within next root (n + 1) b :=
  Or.inr ⟨a, h, hab⟩

theorem Within.of_closed (hclosed : ∀ a b, Within next root k a → next a b → Within next root k b)
    (h : Within next root n a) : Within next root k a := by
  induction n generalizing a with
  | zero => exact Within.mono (m := 0) h (Nat.zero_le k)
  | succ n ih =>
    rcases h with h | ⟨b, hb, hba⟩
    · exact ih h
    · exact hclosed b a (ih hb) hba

variable (next root limit)

/-- The search has come to depth `k`: `now` is left of that depth and `later` is found of the
next; `seen` are the nodes that were found and `done` those whose edges were followed. -/
structure Sweep (k : ℕ) (seen done : α → Prop) (now later : List α) : Prop where
  depth_le : k ≤ limit
  now_within : ∀ a ∈ now, Within next root k a
  later_within : ∀ a ∈ later, Within next root (k + 1) a
  later_depth : later ≠ [] → k < limit
  seen_of_within : ∀ a, Within next root k a → seen a
  of_seen : ∀ a, seen a → Within next root k a ∨ a ∈ later
  done_below : ∀ j a, j < k → Within next root j a → done a
  done_here : ∀ a, k < limit → Within next root k a → a ∈ now ∨ done a

variable {next root limit} {seen seen' done done' : α → Prop} {now later new : List α}

theorem Sweep.start (done : α → Prop) :
    Sweep next root limit 0 (· = root) done [root] [] where
  depth_le := Nat.zero_le limit
  now_within := fun _ ha => List.mem_singleton.mp ha
  later_within := fun _ ha => absurd ha List.not_mem_nil
  later_depth := fun h => absurd rfl h
  seen_of_within := fun _ ha => ha
  of_seen := fun _ ha => Or.inl ha
  done_below := fun _ _ hj _ => absurd hj (Nat.not_lt_zero _)
  done_here := fun _ _ ha => Or.inl (List.mem_singleton.mpr ha)

theorem Sweep.later_seen (h : Sweep next root limit k seen done [] later)
    (hclosed : ∀ a, done a → ∀ b, next a b → seen b) (hk : k < limit) :
    ∀ a, Within next root (k + 1) a → seen a := by
  rintro a (ha | ⟨b, hb, hba⟩)
  · exact h.seen_of_within a ha
  · have hdone : done b := (h.done_here b hk hb).resolve_left List.not_mem_nil
    exact hclosed b hdone a hba

theorem Sweep.turn (h : Sweep next root limit k seen done [] later)
    (hclosed : ∀ a, done a → ∀ b, next a b → seen b) (hne : later ≠ []) :
    Sweep next root limit (k + 1) seen done later [] := by
  have hk : k < limit := h.later_depth hne
  have hhere (a : α) (ha : Within next root k a) : done a :=
    (h.done_here a hk ha).resolve_left List.not_mem_nil
  refine ⟨hk, h.later_within, fun _ ha => absurd ha List.not_mem_nil, fun h => absurd rfl h,
    h.later_seen hclosed hk, ?_, ?_, ?_⟩
  · intro a ha
    rcases h.of_seen a ha with ha | ha
    · exact Or.inl (ha.mono (Nat.le_succ k))
    · exact Or.inl (h.later_within a ha)
  · intro j a hj ha
    exact hhere a (ha.mono (Nat.le_of_lt_succ hj))
  · intro a _ ha
    rcases h.of_seen a (h.later_seen hclosed hk a ha) with ha | ha
    · exact Or.inr (hhere a ha)
    · exact Or.inl ha

theorem Sweep.skip (h : Sweep next root limit k seen done (a :: now) later) (hk : limit ≤ k) :
    Sweep next root limit k seen done now later where
  depth_le := h.depth_le
  now_within := fun b hb => h.now_within b (List.mem_cons_of_mem _ hb)
  later_within := h.later_within
  later_depth := h.later_depth
  seen_of_within := h.seen_of_within
  of_seen := h.of_seen
  done_below := h.done_below
  done_here := fun _ hlt => absurd hlt (Nat.not_lt_of_le hk)

theorem Sweep.expand (h : Sweep next root limit k seen done (a :: now) later) (hk : k < limit)
    (hnew : ∀ b ∈ new, next a b) (hseen : ∀ b, seen' b ↔ seen b ∨ b ∈ new)
    (hdone : ∀ b, done b → done' b) (ha : done' a) :
    Sweep next root limit k seen' done' now (later ++ new) where
  depth_le := h.depth_le
  now_within := fun b hb => h.now_within b (List.mem_cons_of_mem _ hb)
  later_within := by
    intro b hb
    rcases List.mem_append.mp hb with hb | hb
    · exact h.later_within b hb
    · exact (h.now_within a List.mem_cons_self).step (hnew b hb)
  later_depth := fun _ => hk
  seen_of_within := fun b hb => (hseen b).mpr (Or.inl (h.seen_of_within b hb))
  of_seen := by
    intro b hb
    rcases (hseen b).mp hb with hb | hb
    · exact (h.of_seen b hb).imp id (List.mem_append_left _)
    · exact Or.inr (List.mem_append_right _ hb)
  done_below := fun j b hj hb => hdone b (h.done_below j b hj hb)
  done_here := by
    intro b hlt hb
    rcases h.done_here b hlt hb with hb | hb
    · rcases List.mem_cons.mp hb with rfl | hb
      · exact Or.inr ha
      · exact Or.inl hb
    · exact Or.inr (hdone b hb)

/-- When nothing is left, exactly the nodes within the limit are seen, and the edges of all
that are nearer were followed. -/
theorem Sweep.finish (h : Sweep next root limit k seen done [] [])
    (hclosed : ∀ a, done a → ∀ b, next a b → seen b) :
    (∀ a, seen a ↔ Within next root limit a) ∧
      ∀ j a, j < limit → Within next root j a → done a := by
  have hwithin (a : α) (ha : seen a) : Within next root k a :=
    (h.of_seen a ha).resolve_right List.not_mem_nil
  by_cases hk : k < limit
  · have hstop (a b : α) (ha : Within next root k a) (hab : next a b) : Within next root k b :=
      hwithin b (h.later_seen hclosed hk b (ha.step hab))
    constructor
    · intro a
      exact ⟨fun ha => (hwithin a ha).mono h.depth_le,
        fun ha => h.seen_of_within a (ha.of_closed hstop)⟩
    · intro j a _ ha
      exact (h.done_here a hk (ha.of_closed hstop)).resolve_left List.not_mem_nil
  · obtain rfl : k = limit := Nat.le_antisymm h.depth_le (not_lt.mp hk)
    exact ⟨fun a => ⟨hwithin a, h.seen_of_within a⟩, h.done_below⟩

end IdaMcp.Foundation.BreadthFirst
