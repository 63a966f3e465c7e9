import Mathlib.Data.List.Nodup
import Mathlib.Data.List.Sort

namespace IdaMcp.Foundation.Assoc

variable {κ α : Type}

def Keyed (m : List (κ × α)) : Prop := (m.map Prod.fst).Nodup

variable {m : List (κ × α)} {k k' : κ} {v v' : α}

theorem Keyed.cons (hm : Keyed m) (hk : ∀ v, (k, v) ∉ m) : Keyed ((k, v) :: m) := by
  refine List.nodup_cons.mpr ⟨?_, hm⟩
  intro hmem
  obtain ⟨⟨_, w⟩, hw, rfl⟩ := List.mem_map.mp hmem
  exact hk w hw

theorem Keyed.filter (hm : Keyed m) (p : κ × α → Bool) : Keyed (m.filter p) :=
  List.Nodup.sublist (List.filter_sublist.map _) hm

theorem Keyed.perm {m' : List (κ × α)} (hm : Keyed m) (h : m'.Perm m) : Keyed m' :=
  (h.map _).nodup_iff.mpr hm

theorem Keyed.map (hm : Keyed m) {f : κ × α → κ × α} (hf : ∀ p, (f p).1 = p.1) : Keyed (m.map f) := by
  unfold Keyed
  rw [List.map_map]
  have hfst : Prod.fst ∘ f = Prod.fst := funext hf
  rwa [hfst]

theorem Keyed.unique (hm : Keyed m) (h : (k, v) ∈ m) (h' : (k, v') ∈ m) : v = v' := by
  have hp := List.inj_on_of_nodup_map hm h h' rfl
  exact (Prod.mk.inj hp).2

variable [DecidableEq κ]

def replace (m : List (κ × α)) (k : κ) (v : α) : List (κ × α) :=
  m.map fun p => if p.1 = k then (k, v) else p

def remove (m : List (κ × α)) (k : κ) : List (κ × α) := m.filter fun p => p.1 ≠ k

theorem mem_of_lookup (h : m.lookup k = some v) : (k, v) ∈ m := by
  induction m with
  | nil => cases h
  | cons p m ih =>
    rw [List.lookup_cons] at h
    split at h
    · next hkey =>
      cases h
      rw [eq_of_beq hkey]
      exact List.mem_cons_self
    · exact List.mem_cons_of_mem _ (ih h)

theorem lookup_eq_none (h : m.lookup k = none) (v : α) : (k, v) ∉ m := by
  intro hmem
  have hne := List.lookup_eq_none_iff.mp h (k, v) hmem
  simp at hne

theorem mem_replace : (k', v') ∈ replace m k v ↔
    k' ≠ k ∧ (k', v') ∈ m ∨ k' = k ∧ v' = v ∧ ∃ w, (k, w) ∈ m := by
  unfold replace
  rw [List.mem_map]
  constructor
  · rintro ⟨⟨k₁, w⟩, hmem, heq⟩
    split_ifs at heq with hkey
    · cases heq
      exact .inr ⟨rfl, rfl, w, (hkey : k₁ = k) ▸ hmem⟩
    · cases heq
      exact .inl ⟨hkey, hmem⟩
  · rintro (⟨hkey, hmem⟩ | ⟨rfl, rfl, w, hmem⟩)
    · exact ⟨_, hmem, if_neg hkey⟩
    · exact ⟨_, hmem, if_pos rfl⟩

theorem Keyed.replace (hm : Keyed m) : Keyed (replace m k v) := by
  apply hm.map
  intro p
  split_ifs with h
  · exact h.symm
  · rfl

theorem length_replace : (replace m k v).length = m.length := List.length_map _

theorem mem_remove : (k', v') ∈ remove m k ↔ (k', v') ∈ m ∧ k' ≠ k := by
  simp [remove]

theorem length_remove (hm : Keyed m) (h : (k, v) ∈ m) : (remove m k).length + 1 = m.length := by
  induction m with
  | nil => cases h
  | cons p m ih =>
    obtain ⟨hp, hrest⟩ := List.nodup_cons.mp hm
    rw [remove, List.filter_cons]
    rcases List.mem_cons.mp h with rfl | hmem
    · have hall : m.filter (fun p => decide (p.1 ≠ k)) = m := by
        apply List.filter_eq_self.mpr
        intro q hq
        apply decide_eq_true
        rintro rfl
        exact hp (List.mem_map.mpr ⟨q, hq, rfl⟩)
      rw [if_neg (by simp), hall, List.length_cons]
    · have hne : p.1 ≠ k := by
        intro hkey
        exact hp (List.mem_map.mpr ⟨_, hmem, hkey.symm⟩)
      rw [if_pos (decide_eq_true hne), List.length_cons, List.length_cons]
      exact congrArg (· + 1) (ih hrest hmem)

end IdaMcp.Foundation.Assoc
