import Mathlib.Data.List.Sort

/-! What a stable sort does with the items that a filter keeps. -/

namespace IdaMcp.Foundation

variable {α : Type*} (r : α → α → Prop)

theorem rel_of_mem_drop {l : List α} (hl : l.Pairwise r) {n : ℕ} {a b : α} (ha : a ∈ l.take n)
    (hb : b ∈ l.drop n) : r a b := by
  rw [← List.take_append_drop n l, List.pairwise_append] at hl
  exact hl.2.2 a ha b hb

variable [DecidableRel r]

theorem orderedInsert_of_forall {a : α} {l : List α} (h : ∀ b ∈ l, r a b) :
    l.orderedInsert r a = a :: l := by
  cases l with
  | nil => rfl
  | cons b l => exact List.orderedInsert_cons_of_le r l (h b List.mem_cons_self)

variable [IsTrans α r]

theorem filter_orderedInsert (p : α → Bool) (a : α) {l : List α} (hl : l.Pairwise r) :
    (l.orderedInsert r a).filter p =
      if p a then (l.filter p).orderedInsert r a else l.filter p := by
  induction l with
  | nil => cases hp : p a <;> simp [hp]
  | cons b l ih =>
    obtain ⟨hb, hl⟩ := List.pairwise_cons.mp hl
    by_cases hab : r a b
    · have hall : ∀ c ∈ (b :: l).filter p, r a c := by
        intro c hc
        rcases List.mem_cons.mp (List.mem_of_mem_filter hc) with rfl | hc
        · exact hab
        · exact IsTrans.trans _ _ _ hab (hb c hc)
      rw [List.orderedInsert_cons_of_le r l hab, orderedInsert_of_forall r hall]
      cases hp : p a <;> simp [hp]
    · rw [List.orderedInsert_of_not_le r l hab, List.filter_cons, ih hl, List.filter_cons]
      cases hpa : p a <;> cases hpb : p b <;> simp [hab]

variable [Std.Total r]

theorem filter_insertionSort (p : α → Bool) (l : List α) :
    (l.insertionSort r).filter p = (l.filter p).insertionSort r := by
  induction l with
  | nil => rfl
  | cons a l ih =>
    rw [List.insertionSort_cons, filter_orderedInsert r p a (List.pairwise_insertionSort r l), ih,
      List.filter_cons]
    cases p a <;> rfl

end IdaMcp.Foundation
