import IdaMcp.Foundation.SortedSet

namespace IdaMcp.Foundation

variable {κ : Type*} [LinearOrder κ] {β : Type*}

structure SortedMap (κ : Type*) [LinearOrder κ] (β : Type*) where
  entries : List (κ × β)
  sorted : (entries.map Prod.fst).Pairwise (· < ·)

namespace SortedMap

def insertEntry (k : κ) (v : β) : List (κ × β) → List (κ × β)
  | [] => [(k, v)]
  | e :: es =>
    if k < e.1 then (k, v) :: e :: es
    else if k = e.1 then (k, v) :: es
    else e :: insertEntry k v es

theorem keys_insertEntry (k : κ) (v : β) (es : List (κ × β)) :
    (insertEntry k v es).map Prod.fst = SortedSet.insertSorted k (es.map Prod.fst) := by
  induction es with
  | nil => rfl
  | cons e es ih =>
    rw [insertEntry, List.map_cons, SortedSet.insertSorted]
    split_ifs with hlt heq
    · rfl
    · rw [List.map_cons, heq]
    · rw [List.map_cons, ih]

theorem mem_insertEntry {k : κ} {v : β} {es : List (κ × β)} {e : κ × β}
    (h : e ∈ insertEntry k v es) : e = (k, v) ∨ e ∈ es := by
  induction es with
  | nil => exact Or.inl (List.mem_singleton.mp h)
  | cons e' es ih =>
    rw [insertEntry] at h
    split_ifs at h with hlt heq
    · exact List.mem_cons.mp h
    · rcases List.mem_cons.mp h with rfl | h
      · exact Or.inl rfl
      · exact Or.inr (List.mem_cons_of_mem _ h)
    · rcases List.mem_cons.mp h with rfl | h
      · exact Or.inr List.mem_cons_self
      · exact (ih h).imp id (List.mem_cons_of_mem _)

def empty : SortedMap κ β := ⟨[], by simp⟩

def insert (m : SortedMap κ β) (k : κ) (v : β) : SortedMap κ β where
  entries := insertEntry k v m.entries
  sorted := by
    rw [keys_insertEntry]
    exact SortedSet.pairwise_insertSorted m.sorted

def keys (m : SortedMap κ β) : SortedSet κ := ⟨m.entries.map Prod.fst, m.sorted⟩

def values (m : SortedMap κ β) : List β := m.entries.map Prod.snd

instance : Membership κ (SortedMap κ β) := ⟨fun m k => k ∈ m.entries.map Prod.fst⟩

instance (k : κ) (m : SortedMap κ β) : Decidable (k ∈ m) :=
  inferInstanceAs (Decidable (k ∈ m.entries.map Prod.fst))

def length (m : SortedMap κ β) : ℕ := m.entries.length

theorem mem_insert {m : SortedMap κ β} {k k' : κ} {v : β} : k' ∈ m.insert k v ↔ k' = k ∨ k' ∈ m := by
  change k' ∈ (insertEntry k v m.entries).map Prod.fst ↔ _
  rw [keys_insertEntry]
  exact SortedSet.mem_insertSorted

theorem length_insert {m : SortedMap κ β} {k : κ} (v : β) (h : k ∉ m) :
    (m.insert k v).length = m.length + 1 := by
  have hperm : (SortedSet.insertSorted k (m.entries.map Prod.fst)).Perm (k :: m.entries.map Prod.fst) := by
    apply (List.perm_ext_iff_of_nodup ?_ ?_).mpr
    · exact fun x => SortedSet.mem_insertSorted.trans List.mem_cons.symm
    · exact (SortedSet.pairwise_insertSorted m.sorted).imp ne_of_lt
    · exact List.nodup_cons.mpr ⟨h, m.sorted.imp ne_of_lt⟩
  have hlength := hperm.length_eq
  rw [← keys_insertEntry k v, List.length_map, List.length_cons, List.length_map] at hlength
  exact hlength

theorem mem_entries_insert {m : SortedMap κ β} {k : κ} {v : β} {e : κ × β}
    (h : e ∈ (m.insert k v).entries) : e = (k, v) ∨ e ∈ m.entries := mem_insertEntry h

end SortedMap

end IdaMcp.Foundation
