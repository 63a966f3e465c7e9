import Mathlib.Data.List.Count
import Mathlib.Data.List.Nodup
import Mathlib.Logic.Function.Basic
import Mathlib.Logic.Relation

namespace IdaMcp.Foundation

/-- Capacity kept in two places: items installed, of which only the live ones count, and ids reserved
for items to come. Each reservation has one owner among the agents `τ`, and an agent counts the
installed items one by one under a lock while they may die. -/
structure Ledger (τ : Type*) where
  installed : List ℕ
  reserved : List ℕ
  nextId : ℕ
  live : ℕ → Bool
  owner : τ → Option ℕ
  lock : Option τ
  scan : τ → Option (List ℕ × ℕ)

namespace Ledger

variable {τ : Type*} [DecidableEq τ] {cap : ℕ} {l l' : Ledger τ} {t : τ} {i : ℕ}

def total (l : Ledger τ) : ℕ := l.reserved.length + l.installed.countP l.live

inductive Step (cap : ℕ) (l : Ledger τ) : Ledger τ → Prop
  | lose (live' : ℕ → Bool) (h : ∀ i, live' i = true → l.live i = true) :
    Step cap l { l with live := live' }
  | forget (keep : ℕ → Bool) (hlock : l.lock = none) :
    Step cap l { l with installed := l.installed.filter keep }
  | beginScan (t : τ) (hlock : l.lock = none) :
    Step cap l { l with
      lock := some t
      scan := Function.update l.scan t (some (l.installed, l.reserved.length)) }
  | count {t : τ} {i : ℕ} {rest : List ℕ} {n : ℕ} (hscan : l.scan t = some (i :: rest, n)) :
    Step cap l { l with
      scan := Function.update l.scan t (some (rest, if l.live i then n + 1 else n)) }
  | endScan {t : τ} {x : List ℕ × ℕ} (hscan : l.scan t = some x) (keep : ℕ → Bool) :
    Step cap l { l with
      installed := l.installed.filter keep, lock := none, scan := Function.update l.scan t none }
  | reserveScanned {t : τ} {n : ℕ} (hscan : l.scan t = some ([], n)) (hn : n < cap)
    (hfree : l.owner t = none) (keep : ℕ → Bool) :
    Step cap l { l with
      installed := l.installed.filter keep, lock := none, scan := Function.update l.scan t none
      reserved := l.reserved ++ [l.nextId], nextId := l.nextId + 1
      owner := Function.update l.owner t (some l.nextId) }
  | reserve {t : τ} (hlock : l.lock = none) (hn : l.reserved.length + l.installed.length < cap)
    (hfree : l.owner t = none) :
    Step cap l { l with
      reserved := l.reserved ++ [l.nextId], nextId := l.nextId + 1
      owner := Function.update l.owner t (some l.nextId) }
  | build {t : τ} {i : ℕ} (howner : l.owner t = some i) (alive : Bool) :
    Step cap l { l with live := Function.update l.live i alive }
  | install {t : τ} {i : ℕ} (howner : l.owner t = some i) (hlock : l.lock = none) :
    Step cap l { l with
      installed := l.installed ++ [i], reserved := l.reserved.filter (· ≠ i)
      owner := Function.update l.owner t none }
  | cancel {t : τ} {i : ℕ} (howner : l.owner t = some i) (hlock : l.lock = none) :
    Step cap l { l with
      reserved := l.reserved.filter (· ≠ i), owner := Function.update l.owner t none }
  | transfer (t : τ) {t' : τ} (hfree : l.owner t' = none) :
    Step cap l { l with owner := Function.update (Function.update l.owner t none) t' (l.owner t) }

structure Sound (cap : ℕ) (l : Ledger τ) : Prop where
  mem : ∀ t i, l.owner t = some i → i ∈ l.reserved ∧ i ∉ l.installed
  unique : ∀ t t' i, l.owner t = some i → l.owner t' = some i → t = t'
  owned : ∀ i ∈ l.reserved, ∃ t, l.owner t = some i
  installed_nodup : l.installed.Nodup
  reserved_nodup : l.reserved.Nodup
  installed_lt : ∀ i ∈ l.installed, i < l.nextId
  reserved_lt : ∀ i ∈ l.reserved, i < l.nextId
  scan_lock : ∀ t x, l.scan t = some x → l.lock = some t
  scan_visited : ∀ t x, l.scan t = some x → ∃ visited, l.installed = visited ++ x.1 ∧
    l.reserved.length + visited.countP l.live ≤ x.2
  total_le : l.total ≤ cap

theorem countP_filter_le (keep live : ℕ → Bool) (items : List ℕ) :
    (items.filter keep).countP live ≤ items.countP live :=
  List.Sublist.countP_le List.filter_sublist

theorem countP_update {items : List ℕ} (hi : i ∉ items) (live : ℕ → Bool) (alive : Bool) :
    items.countP (Function.update live i alive) = items.countP live := by
  apply List.countP_congr
  intro j hj
  rw [Function.update_of_ne]
  rintro rfl
  exact hi hj

theorem length_filter_ne_lt {items : List ℕ} (hi : i ∈ items) :
    (items.filter (· ≠ i)).length < items.length :=
  List.length_filter_lt_length_iff_exists.mpr ⟨i, hi, by simp⟩

omit [DecidableEq τ] in
theorem Sound.scan_eq_none (h : l.Sound cap) (hlock : l.lock = none) (t : τ) : l.scan t = none := by
  cases hscan : l.scan t with
  | none => rfl
  | some x =>
    have hheld := h.scan_lock t x hscan
    rw [hlock] at hheld
    cases hheld

omit [DecidableEq τ] in
theorem Sound.eq_of_scan (h : l.Sound cap) {t' : τ} {x y : List ℕ × ℕ} (hx : l.scan t = some x)
    (hy : l.scan t' = some y) : t' = t := by
  have hlock := h.scan_lock t' y hy
  rw [h.scan_lock t x hx] at hlock
  exact (Option.some.inj hlock).symm

theorem Sound.scan_update (h : l.Sound cap) {x : List ℕ × ℕ} (hscan : l.scan t = some x) (t' : τ) :
    Function.update l.scan t none t' = none := by
  rw [Function.update_apply]
  split_ifs with htt
  · rfl
  · cases hscan' : l.scan t' with
    | none => rfl
    | some y => exact (htt (h.eq_of_scan hscan hscan')).elim

omit [DecidableEq τ] in
theorem Sound.shrink (h : l.Sound cap) {installed reserved : List ℕ} {owner : τ → Option ℕ}
    {lock : Option τ} {scan : τ → Option (List ℕ × ℕ)}
    (hinstalled : installed.Sublist l.installed) (hreserved : reserved.Sublist l.reserved)
    (howner : ∀ t i, owner t = some i ↔ l.owner t = some i ∧ i ∈ reserved)
    (hscan : ∀ t, scan t = none) :
    Sound cap { l with installed, reserved, owner, lock, scan } where
  mem t i ht :=
    ⟨((howner t i).mp ht).2, fun hi => (h.mem t i ((howner t i).mp ht).1).2 (hinstalled.subset hi)⟩
  unique t t' i ht ht' := h.unique t t' i ((howner t i).mp ht).1 ((howner t' i).mp ht').1
  owned i hi := by
    obtain ⟨t, ht⟩ := h.owned i (hreserved.subset hi)
    exact ⟨t, (howner t i).mpr ⟨ht, hi⟩⟩
  installed_nodup := h.installed_nodup.sublist hinstalled
  reserved_nodup := h.reserved_nodup.sublist hreserved
  installed_lt i hi := h.installed_lt i (hinstalled.subset hi)
  reserved_lt i hi := h.reserved_lt i (hreserved.subset hi)
  scan_lock t x hx := by simp [hscan] at hx
  scan_visited t x hx := by simp [hscan] at hx
  total_le := by
    have hlength := hreserved.length_le
    have hcount := hinstalled.countP_le (p := l.live)
    have htotal := h.total_le
    simp only [total] at htotal ⊢
    omega

theorem Sound.reserve (h : l.Sound cap) (hroom : l.total < cap) (hscan : ∀ t, l.scan t = none)
    (hfree : l.owner t = none) :
    Sound cap { l with
      reserved := l.reserved ++ [l.nextId], nextId := l.nextId + 1
      owner := Function.update l.owner t (some l.nextId) } where
  mem t' i hi := by
    simp only [Function.update_apply] at hi
    split_ifs at hi
    · cases hi
      exact ⟨by simp, fun hmem => Nat.lt_irrefl _ (h.installed_lt _ hmem)⟩
    · obtain ⟨hres, hins⟩ := h.mem t' i hi
      exact ⟨List.mem_append_left _ hres, hins⟩
  unique t₁ t₂ i h₁ h₂ := by
    have hold (t' : τ) (hi : l.owner t' = some l.nextId) : False :=
      Nat.lt_irrefl _ (h.reserved_lt _ (h.mem t' _ hi).1)
    simp only [Function.update_apply] at h₁ h₂
    split_ifs at h₁ h₂ with ht₁ ht₂
    · rw [ht₁, ht₂]
    · cases h₁
      exact (hold t₂ h₂).elim
    · cases h₂
      exact (hold t₁ h₁).elim
    · exact h.unique t₁ t₂ i h₁ h₂
  owned i hi := by
    rcases List.mem_append.mp hi with hi | hi
    · obtain ⟨t', ht'⟩ := h.owned i hi
      have hne : t' ≠ t := by
        rintro rfl
        rw [hfree] at ht'
        cases ht'
      exact ⟨t', (Function.update_of_ne hne _ _).trans ht'⟩
    · rw [List.mem_singleton] at hi
      subst hi
      exact ⟨t, Function.update_self ..⟩
  installed_nodup := h.installed_nodup
  reserved_nodup := by
    rw [List.nodup_append]
    refine ⟨h.reserved_nodup, List.nodup_singleton _, ?_⟩
    intro i hi j hj
    obtain rfl := List.mem_singleton.mp hj
    exact Nat.ne_of_lt (h.reserved_lt i hi)
  installed_lt i hi := Nat.lt_succ_of_lt (h.installed_lt i hi)
  reserved_lt i hi := by
    rcases List.mem_append.mp hi with hi | hi
    · exact Nat.lt_succ_of_lt (h.reserved_lt i hi)
    · rw [List.mem_singleton] at hi
      subst hi
      exact Nat.lt_succ_self _
  scan_lock t x hx := by simp [hscan] at hx
  scan_visited t x hx := by simp [hscan] at hx
  total_le := by
    simp only [total, List.length_append, List.length_singleton] at hroom ⊢
    omega

omit [DecidableEq τ] in
theorem Sound.lose (h : l.Sound cap) {live' : ℕ → Bool}
    (hlive : ∀ i, live' i = true → l.live i = true) : Sound cap { l with live := live' } where
  mem := h.mem
  unique := h.unique
  owned := h.owned
  installed_nodup := h.installed_nodup
  reserved_nodup := h.reserved_nodup
  installed_lt := h.installed_lt
  reserved_lt := h.reserved_lt
  scan_lock := h.scan_lock
  scan_visited t x hx := by
    obtain ⟨visited, hinstalled, hcount⟩ := h.scan_visited t x hx
    -- a death after its visit only makes the count too high
    have hvisited : visited.countP live' ≤ visited.countP l.live :=
      List.countP_mono_left fun i _ => hlive i
    exact ⟨visited, hinstalled, Nat.le_trans (Nat.add_le_add_left hvisited _) hcount⟩
  total_le := by
    have hinstalled : l.installed.countP live' ≤ l.installed.countP l.live :=
      List.countP_mono_left fun i _ => hlive i
    have htotal := h.total_le
    simp only [total] at htotal ⊢
    omega

theorem Sound.beginScan (h : l.Sound cap) (t : τ) (hlock : l.lock = none) :
    Sound cap { l with
      lock := some t
      scan := Function.update l.scan t (some (l.installed, l.reserved.length)) } where
  mem := h.mem
  unique := h.unique
  owned := h.owned
  installed_nodup := h.installed_nodup
  reserved_nodup := h.reserved_nodup
  installed_lt := h.installed_lt
  reserved_lt := h.reserved_lt
  scan_lock t' x hx := by
    simp only [Function.update_apply] at hx
    split_ifs at hx with htt
    · rw [htt]
    · rw [h.scan_eq_none hlock] at hx
      cases hx
  scan_visited t' x hx := by
    simp only [Function.update_apply] at hx
    split_ifs at hx
    · cases hx
      exact ⟨[], rfl, by simp⟩
    · rw [h.scan_eq_none hlock] at hx
      cases hx
  total_le := h.total_le

theorem Sound.count (h : l.Sound cap) {rest : List ℕ} {n : ℕ} (hscan : l.scan t = some (i :: rest, n)) :
    Sound cap { l with
      scan := Function.update l.scan t (some (rest, if l.live i then n + 1 else n)) } where
  mem := h.mem
  unique := h.unique
  owned := h.owned
  installed_nodup := h.installed_nodup
  reserved_nodup := h.reserved_nodup
  installed_lt := h.installed_lt
  reserved_lt := h.reserved_lt
  scan_lock t' x hx := by
    by_cases htt : t' = t
    · rw [htt]
      exact h.scan_lock t _ hscan
    · simp only [Function.update_of_ne htt] at hx
      exact h.scan_lock t' x hx
  scan_visited t' x hx := by
    by_cases htt : t' = t
    · subst htt
      obtain ⟨visited, hinstalled, hcount⟩ := h.scan_visited t' _ hscan
      simp only [Function.update_self, Option.some.injEq] at hx
      subst hx
      refine ⟨visited ++ [i], by simp [hinstalled], ?_⟩
      rw [List.countP_append, List.countP_singleton]
      simp only at hcount ⊢
      split_ifs <;> omega
    · simp only [Function.update_of_ne htt] at hx
      exact h.scan_visited t' x hx
  total_le := h.total_le

omit [DecidableEq τ] in
theorem Sound.build (h : l.Sound cap) (howner : l.owner t = some i) (alive : Bool) :
    Sound cap { l with live := Function.update l.live i alive } where
  mem := h.mem
  unique := h.unique
  owned := h.owned
  installed_nodup := h.installed_nodup
  reserved_nodup := h.reserved_nodup
  installed_lt := h.installed_lt
  reserved_lt := h.reserved_lt
  scan_lock := h.scan_lock
  scan_visited t' x hx := by
    obtain ⟨visited, hinstalled, hcount⟩ := h.scan_visited t' x hx
    have hi : i ∉ visited := fun hmem =>
      (h.mem t i howner).2 (by rw [hinstalled]; exact List.mem_append_left _ hmem)
    exact ⟨visited, hinstalled, by simp only [countP_update hi]; exact hcount⟩
  total_le := by
    have htotal := h.total_le
    simp only [total, countP_update (h.mem t i howner).2] at htotal ⊢
    exact htotal

/-- The reservation pays for the item. -/
theorem Sound.install (h : l.Sound cap) (howner : l.owner t = some i) (hlock : l.lock = none) :
    Sound cap { l with
      installed := l.installed ++ [i], reserved := l.reserved.filter (· ≠ i)
      owner := Function.update l.owner t none } where
  mem t' j hj := by
    simp only [Function.update_apply] at hj
    split_ifs at hj with htt
    have hne : j ≠ i := by
      rintro rfl
      exact htt (h.unique t' t j hj howner)
    obtain ⟨hres, hins⟩ := h.mem t' j hj
    simp [hres, hins, hne]
  unique t₁ t₂ j h₁ h₂ := by
    simp only [Function.update_apply] at h₁ h₂
    split_ifs at h₁ h₂
    exact h.unique t₁ t₂ j h₁ h₂
  owned j hj := by
    obtain ⟨hres, hne⟩ := List.mem_filter.mp hj
    obtain ⟨t', ht'⟩ := h.owned j hres
    have htt : t' ≠ t := by
      rintro rfl
      rw [howner] at ht'
      cases ht'
      simp at hne
    exact ⟨t', (Function.update_of_ne htt _ _).trans ht'⟩
  installed_nodup := by
    rw [List.nodup_append]
    refine ⟨h.installed_nodup, List.nodup_singleton i, ?_⟩
    intro j hj k hk
    obtain rfl := List.mem_singleton.mp hk
    rintro rfl
    exact (h.mem t j howner).2 hj
  reserved_nodup := h.reserved_nodup.sublist List.filter_sublist
  installed_lt j hj := by
    rcases List.mem_append.mp hj with hj | hj
    · exact h.installed_lt j hj
    · rw [List.mem_singleton] at hj
      subst hj
      exact h.reserved_lt j (h.mem t j howner).1
  reserved_lt j hj := h.reserved_lt j (List.mem_filter.mp hj).1
  scan_lock t' x hx := by simp [h.scan_eq_none hlock] at hx
  scan_visited t' x hx := by simp [h.scan_eq_none hlock] at hx
  total_le := by
    have hlength := length_filter_ne_lt (h.mem t i howner).1
    have htotal := h.total_le
    simp only [total, List.countP_append, List.countP_singleton] at htotal ⊢
    split_ifs <;> omega

theorem Sound.cancel (h : l.Sound cap) (howner : l.owner t = some i) (hlock : l.lock = none) :
    Sound cap { l with
      reserved := l.reserved.filter (· ≠ i), owner := Function.update l.owner t none } := by
  refine h.shrink (List.Sublist.refl _) List.filter_sublist (fun t' j => ?_) (h.scan_eq_none hlock)
  by_cases htt : t' = t
  · subst htt
    simp [howner]
    intro hij
    exact fun _ => hij.symm
  · rw [Function.update_of_ne htt]
    constructor
    · intro hj
      have hne : j ≠ i := by
        rintro rfl
        exact htt (h.unique t' t j hj howner)
      exact ⟨hj, by simp [(h.mem t' j hj).1, hne]⟩
    · exact And.left

theorem Sound.transfer (h : l.Sound cap) (t : τ) {t' : τ} (hfree : l.owner t' = none) :
    Sound cap
      { l with owner := Function.update (Function.update l.owner t none) t' (l.owner t) } := by
  have howner (t₁ : τ) (j : ℕ)
      (hj : Function.update (Function.update l.owner t none) t' (l.owner t) t₁ = some j) :
      t₁ = t' ∧ l.owner t = some j ∨ t₁ ≠ t' ∧ t₁ ≠ t ∧ l.owner t₁ = some j := by
    simp only [Function.update_apply] at hj
    split_ifs at hj with h₁ h₂
    · exact .inl ⟨h₁, hj⟩
    · exact .inr ⟨h₁, h₂, hj⟩
  refine ⟨fun t₁ j hj => ?_, fun t₁ t₂ j h₁ h₂ => ?_, fun j hj => ?_, h.installed_nodup,
    h.reserved_nodup, h.installed_lt, h.reserved_lt, h.scan_lock, h.scan_visited, h.total_le⟩
  · rcases howner t₁ j hj with ⟨-, hj⟩ | ⟨-, -, hj⟩
    · exact h.mem t j hj
    · exact h.mem t₁ j hj
  · rcases howner t₁ j h₁ with ⟨heq₁, h₁⟩ | ⟨-, hne₁, h₁⟩ <;>
      rcases howner t₂ j h₂ with ⟨heq₂, h₂⟩ | ⟨-, hne₂, h₂⟩
    · rw [heq₁, heq₂]
    · exact (hne₂ (h.unique t₂ t j h₂ h₁)).elim
    · exact (hne₁ (h.unique t₁ t j h₁ h₂)).elim
    · exact h.unique t₁ t₂ j h₁ h₂
  · obtain ⟨t₁, ht₁⟩ := h.owned j hj
    by_cases htt : t₁ = t
    · subst htt
      exact ⟨t', (Function.update_self ..).trans ht₁⟩
    · have hne : t₁ ≠ t' := by
        rintro rfl
        rw [hfree] at ht₁
        cases ht₁
      exact ⟨t₁, (Function.update_of_ne hne _ _).trans ((Function.update_of_ne htt _ _).trans ht₁)⟩

theorem Sound.step (h : l.Sound cap) (hstep : Step cap l l') : l'.Sound cap := by
  cases hstep with
  | lose live' hlive => exact h.lose hlive
  | forget keep hlock =>
    exact h.shrink List.filter_sublist (List.Sublist.refl _)
      (fun t i => (and_iff_left_of_imp fun ht => (h.mem t i ht).1).symm) (h.scan_eq_none hlock)
  | beginScan t hlock => exact h.beginScan t hlock
  | count hscan => exact h.count hscan
  | endScan hscan keep =>
    exact h.shrink List.filter_sublist (List.Sublist.refl _)
      (fun t i => (and_iff_left_of_imp fun ht => (h.mem t i ht).1).symm) (h.scan_update hscan)
  | @reserveScanned t n hscan hn hfree keep =>
    have hend : Sound cap { l with
        installed := l.installed.filter keep, lock := none
        scan := Function.update l.scan t none } :=
      h.shrink List.filter_sublist (List.Sublist.refl _)
        (fun t i => (and_iff_left_of_imp fun ht => (h.mem t i ht).1).symm) (h.scan_update hscan)
    refine hend.reserve ?_ (h.scan_update hscan) hfree
    obtain ⟨visited, hinstalled, hcount⟩ := h.scan_visited t _ hscan
    rw [List.append_nil] at hinstalled
    have hkept := countP_filter_le keep l.live l.installed
    rw [← hinstalled] at hcount
    simp only [total] at hcount ⊢
    omega
  | reserve hlock hn hfree =>
    refine h.reserve ?_ (h.scan_eq_none hlock) hfree
    have hcount : l.installed.countP l.live ≤ l.installed.length := List.countP_le_length
    simp only [total]
    omega
  | build howner alive => exact h.build howner alive
  | install howner hlock => exact h.install howner hlock
  | cancel howner hlock => exact h.cancel howner hlock
  | transfer t hfree => exact h.transfer t hfree

theorem Sound.steps (h : l.Sound cap) (hsteps : Relation.ReflTransGen (Step cap) l l') :
    l'.Sound cap := by
  induction hsteps with
  | refl => exact h
  | tail _ hstep ih => exact ih.step hstep

end Ledger

end IdaMcp.Foundation
