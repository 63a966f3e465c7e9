import IdaMcp.Foundation.Assoc

/-! Lists of pairs as maps: what is found under a key. -/

namespace IdaMcp.Foundation.Assoc

variable {κ α β : Type} [DecidableEq κ] {m l : List (κ × α)} {k k' : κ} {v v' : α}

def insert (m : List (κ × α)) (k : κ) (v : α) : List (κ × α) :=
  if (m.lookup k).isSome then replace m k v else m ++ [(k, v)]

def extend (m l : List (κ × α)) : List (κ × α) := l.foldl (fun m p => insert m p.1 p.2) m

theorem lookup_cons_eq (p : κ × α) (m : List (κ × α)) (k : κ) :
    (p :: m).lookup k = if k = p.1 then some p.2 else m.lookup k := by
  rw [List.lookup_cons]
  by_cases h : k = p.1
  · simp [h]
  · rw [if_neg h, beq_eq_false_iff_ne.mpr h]

theorem mem_iff_lookup (hm : Keyed m) : (k, v) ∈ m ↔ m.lookup k = some v := by
  constructor
  · intro h
    cases hlookup : m.lookup k with
    | none => exact absurd h (lookup_eq_none hlookup v)
    | some w => rw [hm.unique h (mem_of_lookup hlookup)]
  · exact mem_of_lookup

theorem lookup_remove : (remove m k).lookup k' = if k' = k then none else m.lookup k' := by
  induction m with
  | nil => simp [remove]
  | cons p m ih =>
    rw [remove, List.filter_cons, lookup_cons_eq]
    by_cases hp : p.1 = k
    · rw [if_neg (by simpa using hp)]
      refine ih.trans ?_
      split_ifs with hk hk'
      · rfl
      · exact absurd (hk'.trans hp) hk
      · rfl
    · rw [if_pos (by simpa using hp), lookup_cons_eq]
      split_ifs with hk hk' hk'
      · exact absurd (hk.symm.trans hk') hp
      · rfl
      · rw [← if_pos (c := k' = k) hk' (t := none)]
        exact ih
      · exact ih.trans (if_neg hk')

theorem lookup_replace : (replace m k v).lookup k' =
    if k' = k then (m.lookup k).map (fun _ => v) else m.lookup k' := by
  induction m with
  | nil => simp [replace]
  | cons p m ih =>
    have hhead : replace (p :: m) k v = (if p.1 = k then (k, v) else p) :: replace m k v := rfl
    rw [hhead, lookup_cons_eq, lookup_cons_eq, lookup_cons_eq, ih]
    by_cases hp : p.1 = k <;> by_cases hk : k' = k <;> simp [hp, hk, Ne.symm]

theorem lookup_insert : (insert m k v).lookup k' = if k' = k then some v else m.lookup k' := by
  unfold insert
  split_ifs with hsome hk hk
  · rw [lookup_replace, if_pos hk]
    obtain ⟨w, hw⟩ := Option.isSome_iff_exists.mp hsome
    rw [hw, Option.map_some]
  · rw [lookup_replace, if_neg hk]
  · have hnone : m.lookup k' = none := by rwa [hk, ← Option.not_isSome_iff_eq_none]
    rw [List.lookup_append, hnone, Option.none_or, lookup_cons_eq, if_pos hk]
  · rw [List.lookup_append, lookup_cons_eq, if_neg hk, List.lookup_nil, Option.or_none]

theorem lookup_map {f : α → β} : (m.map fun p => (p.1, f p.2)).lookup k = (m.lookup k).map f := by
  induction m with
  | nil => rfl
  | cons p m ih =>
    rw [List.map_cons, lookup_cons_eq, lookup_cons_eq, ih]
    split_ifs <;> rfl

theorem Keyed.insert (hm : Keyed m) : Keyed (insert m k v) := by
  unfold Assoc.insert
  split_ifs with hsome
  · exact hm.replace
  · have hnone : ∀ w, (k, w) ∉ m := lookup_eq_none (Option.not_isSome_iff_eq_none.mp hsome)
    exact (hm.cons hnone).perm (List.perm_append_singleton ..)

theorem Keyed.extend (hm : Keyed m) : Keyed (extend m l) := by
  induction l generalizing m with
  | nil => exact hm
  | cons p l ih => exact ih hm.insert

omit [DecidableEq κ] in
theorem Keyed.tail {p : κ × α} (h : Keyed (p :: m)) : Keyed m := (List.nodup_cons.mp h).2

theorem Keyed.lookup_tail {p : κ × α} (h : Keyed (p :: m)) : m.lookup p.1 = none := by
  rw [List.lookup_eq_none_iff]
  intro q hq
  have hne : p.1 ≠ q.1 := by
    intro heq
    exact (List.nodup_cons.mp h).1 (List.mem_map.mpr ⟨q, hq, heq.symm⟩)
  simpa using hne

theorem lookup_extend (hl : Keyed l) : (extend m l).lookup k = (l.lookup k).or (m.lookup k) := by
  induction l generalizing m with
  | nil => rfl
  | cons p l ih =>
    have hhead : extend m (p :: l) = extend (insert m p.1 p.2) l := rfl
    rw [hhead, ih hl.tail, lookup_insert, lookup_cons_eq]
    split_ifs with hk
    · rw [hk, hl.lookup_tail]
      rfl
    · rfl

section Values

variable {P : α → Prop}

theorem forall_insert (hm : ∀ p ∈ m, P p.2) (hv : P v) : ∀ p ∈ insert m k v, P p.2 := by
  intro p hp
  unfold insert at hp
  split_ifs at hp
  · rcases mem_replace.mp hp with ⟨-, hmem⟩ | ⟨-, heq, -⟩
    · exact hm p hmem
    · rwa [heq]
  · rcases List.mem_append.mp hp with hmem | hmem
    · exact hm p hmem
    · rwa [List.mem_singleton.mp hmem]

theorem forall_remove (hm : ∀ p ∈ m, P p.2) : ∀ p ∈ remove m k, P p.2 :=
  fun p hp => hm p (mem_remove.mp hp).1

theorem forall_extend (hm : ∀ p ∈ m, P p.2) (hl : ∀ p ∈ l, P p.2) : ∀ p ∈ extend m l, P p.2 := by
  induction l generalizing m with
  | nil => exact hm
  | cons q l ih =>
    rw [List.forall_mem_cons] at hl
    exact ih (forall_insert hm hl.1) hl.2

end Values

end IdaMcp.Foundation.Assoc
