import Mathlib.Data.List.Chain
import Mathlib.Data.List.Nodup
import Mathlib.Tactic.Tauto

/-! The simple paths of a graph that is given by successor lists. -/

namespace IdaMcp.Foundation.SimplePaths

variable {α : Type*} (succ : α → List α) (goal : α)

structure IsSimplePath (start : α) (maxEdges : ℕ) (path : List α) : Prop where
  head : path.head? = some start
  last : path.getLast? = some goal
  chain : path.IsChain fun a b => b ∈ succ a
  simple : path.Nodup
  first : goal ∉ path.dropLast
  length : path.length ≤ maxEdges + 1

def Before (p q : List α) : Prop :=
  ∃ common cur x y p' q', p = common ++ cur :: x :: p' ∧ q = common ++ cur :: y :: q' ∧
    [x, y].Sublist (succ cur)

variable {succ goal} {n : ℕ} {cur : α} {p q : List α}

theorem isSimplePath_goal (n : ℕ) : IsSimplePath succ goal goal n [goal] :=
  ⟨rfl, rfl, List.isChain_singleton _, List.nodup_singleton _, List.not_mem_nil, by simp⟩

theorem IsSimplePath.eq_of_start (h : IsSimplePath succ goal goal n p) : p = [goal] := by
  obtain ⟨q, rfl⟩ := List.head?_eq_some_iff.mp h.head
  cases q with
  | nil => rfl
  | cons x q => exact absurd List.mem_cons_self h.first

theorem IsSimplePath.exists_cons (h : IsSimplePath succ goal cur n p) (hcur : cur ≠ goal) :
    ∃ next q, p = cur :: next :: q := by
  obtain ⟨q, rfl⟩ := List.head?_eq_some_iff.mp h.head
  cases q with
  | nil => exact absurd (Option.some_inj.mp h.last) hcur
  | cons next q => exact ⟨next, q, rfl⟩

theorem isSimplePath_cons (hcur : cur ≠ goal) : IsSimplePath succ goal cur (n + 1) (cur :: q) ↔
    ∃ next ∈ succ cur, IsSimplePath succ goal next n q ∧ cur ∉ q := by
  constructor
  · intro h
    obtain ⟨next, q', hq⟩ := h.exists_cons hcur
    obtain rfl : q = next :: q' := (List.cons.inj hq).2
    obtain ⟨hnext, hchain⟩ := List.isChain_cons_cons.mp h.chain
    obtain ⟨hnotin, hsimple⟩ := List.nodup_cons.mp h.simple
    refine ⟨next, hnext, ⟨rfl, ?_, hchain, hsimple, ?_, Nat.le_of_succ_le_succ h.length⟩, hnotin⟩
    · rw [← h.last, List.getLast?_cons_cons]
    · exact fun hmem => h.first (List.mem_cons_of_mem _ hmem)
  · rintro ⟨next, hnext, h, hnotin⟩
    obtain ⟨q', rfl⟩ := List.head?_eq_some_iff.mp h.head
    refine ⟨rfl, ?_, List.isChain_cons_cons.mpr ⟨hnext, h.chain⟩,
      List.nodup_cons.mpr ⟨hnotin, h.simple⟩, ?_, Nat.succ_le_succ h.length⟩
    · rw [List.getLast?_cons_cons, h.last]
    · intro hmem
      rcases List.mem_cons.mp hmem with rfl | hmem
      · exact hcur rfl
      · exact h.first hmem

theorem Before.cons (h : Before succ p q) (cur : α) : Before succ (cur :: p) (cur :: q) := by
  obtain ⟨common, fork, x, y, p', q', rfl, rfl, hsub⟩ := h
  exact ⟨cur :: common, fork, x, y, p', q', rfl, rfl, hsub⟩

theorem Before.ne (hsucc : ∀ a, (succ a).Nodup) (h : Before succ p q) : p ≠ q := by
  obtain ⟨common, cur, x, y, p', q', rfl, rfl, hsub⟩ := h
  intro heq
  have hxy : x = y := by
    have hrest := List.append_cancel_left heq
    rw [List.cons.injEq, List.cons.injEq] at hrest
    exact hrest.2.1
  have htwice := (hsucc cur).sublist hsub
  simp [hxy] at htwice

variable [DecidableEq α] (succ goal)

/-- Paths to the goal of at most `n` edges that stay off the `visited` vertices, depth first. -/
def enumerate : ℕ → List α → α → List (List α)
  | n, visited, cur =>
    if cur = goal then [[cur]]
    else
      match n with
      | 0 => []
      | n + 1 =>
        ((succ cur).flatMap fun next =>
          if next ∈ visited ++ [cur] then [] else enumerate n (visited ++ [cur]) next).map (cur :: ·)

variable {succ goal}

theorem enumerate_goal (n : ℕ) (visited : List α) : enumerate succ goal n visited goal = [[goal]] := by
  cases n <;> simp [enumerate]

theorem enumerate_zero (visited : List α) (h : cur ≠ goal) :
    enumerate succ goal 0 visited cur = [] := by
  simp [enumerate, h]

theorem enumerate_succ (n : ℕ) (visited : List α) (h : cur ≠ goal) :
    enumerate succ goal (n + 1) visited cur = ((succ cur).flatMap fun next =>
      if next ∈ visited ++ [cur] then [] else enumerate succ goal n (visited ++ [cur]) next).map
        (cur :: ·) := by
  rw [enumerate, if_neg h]

theorem mem_enumerate_goal (n : ℕ) (visited : List α) (hgoal : goal ∉ visited) :
    p ∈ enumerate succ goal n visited goal ↔
      IsSimplePath succ goal goal n p ∧ ∀ x ∈ p, x ∉ visited := by
  rw [enumerate_goal, List.mem_singleton]
  constructor
  · rintro rfl
    exact ⟨isSimplePath_goal n, by simpa using hgoal⟩
  · exact fun h => h.1.eq_of_start

theorem mem_enumerate (n : ℕ) (visited : List α) (cur : α) (hcur : cur ∉ visited) (p : List α) :
    p ∈ enumerate succ goal n visited cur ↔
      IsSimplePath succ goal cur n p ∧ ∀ x ∈ p, x ∉ visited := by
  induction n generalizing visited cur p with
  | zero =>
    by_cases hgoal : cur = goal
    · subst hgoal
      exact mem_enumerate_goal 0 visited hcur
    · rw [enumerate_zero visited hgoal]
      constructor
      · exact fun h => absurd h List.not_mem_nil
      · rintro ⟨h, -⟩
        obtain ⟨next, q, rfl⟩ := h.exists_cons hgoal
        have hlength := h.length
        simp at hlength
  | succ n ih =>
    by_cases hgoal : cur = goal
    · subst hgoal
      exact mem_enumerate_goal (n + 1) visited hcur
    have hbranch (next : α) (q : List α) :
        q ∈ (if next ∈ visited ++ [cur] then [] else enumerate succ goal n (visited ++ [cur]) next) ↔
          IsSimplePath succ goal next n q ∧ ∀ x ∈ q, x ∉ visited ++ [cur] := by
      split_ifs with hseen
      · constructor
        · exact fun h => absurd h List.not_mem_nil
        · rintro ⟨h, hoff⟩
          exact absurd hseen (hoff next (List.mem_of_mem_head? h.head))
      · exact ih _ next hseen q
    rw [enumerate_succ n visited hgoal, List.mem_map]
    constructor
    · rintro ⟨q, hq, rfl⟩
      obtain ⟨next, hnext, hq⟩ := List.mem_flatMap.mp hq
      obtain ⟨hpath, hoff⟩ := (hbranch next q).mp hq
      have hoff (x : α) (hx : x ∈ q) : x ∉ visited ∧ x ≠ cur := by
        simpa only [List.mem_append, List.mem_singleton, not_or] using hoff x hx
      refine ⟨(isSimplePath_cons hgoal).mpr
        ⟨next, hnext, hpath, fun hmem => (hoff cur hmem).2 rfl⟩, ?_⟩
      intro x hx
      rcases List.mem_cons.mp hx with rfl | hx
      · exact hcur
      · exact (hoff x hx).1
    · rintro ⟨hpath, hoff⟩
      obtain ⟨next', q', rfl⟩ := hpath.exists_cons hgoal
      obtain ⟨next, hnext, hrest, hnotin⟩ := (isSimplePath_cons hgoal).mp hpath
      refine ⟨next' :: q', List.mem_flatMap.mpr ⟨next, hnext, (hbranch next _).mpr ⟨hrest, ?_⟩⟩, rfl⟩
      intro x hx
      simp only [List.mem_append, List.mem_singleton, not_or]
      refine ⟨hoff x (List.mem_cons_of_mem _ hx), ?_⟩
      rintro rfl
      exact hnotin hx

theorem enumerate_before (n : ℕ) (visited : List α) (cur : α) (hcur : cur ∉ visited) :
    (enumerate succ goal n visited cur).Pairwise (Before succ) := by
  induction n generalizing visited cur with
  | zero =>
    by_cases hgoal : cur = goal
    · subst hgoal
      rw [enumerate_goal]
      exact List.pairwise_singleton _ _
    · rw [enumerate_zero visited hgoal]
      exact List.Pairwise.nil
  | succ n ih =>
    by_cases hgoal : cur = goal
    · subst hgoal
      rw [enumerate_goal]
      exact List.pairwise_singleton _ _
    have hstart (next : α) (q : List α)
        (hq : q ∈ if next ∈ visited ++ [cur] then [] else
          enumerate succ goal n (visited ++ [cur]) next) : ∃ q', q = next :: q' := by
      split_ifs at hq with hseen
      · exact absurd hq List.not_mem_nil
      · exact List.head?_eq_some_iff.mp ((mem_enumerate n _ next hseen q).mp hq).1.head
    rw [enumerate_succ n visited hgoal, List.pairwise_map, List.pairwise_flatMap]
    constructor
    · intro next _
      split_ifs with hseen
      · exact List.Pairwise.nil
      · exact (ih _ next hseen).imp fun h => h.cons cur
    · rw [List.pairwise_iff_forall_sublist]
      intro x y hxy p hp q hq
      obtain ⟨p', rfl⟩ := hstart x p hp
      obtain ⟨q', rfl⟩ := hstart y q hq
      exact ⟨[], cur, x, y, p', q', rfl, rfl, hxy⟩

end IdaMcp.Foundation.SimplePaths
