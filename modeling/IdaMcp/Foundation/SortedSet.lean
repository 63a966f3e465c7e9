import Mathlib.Data.Finset.Sort

namespace IdaMcp.Foundation

variable {α : Type*} [LinearOrder α]

structure SortedSet (α : Type*) [LinearOrder α] where
  elems : List α
  sorted : elems.Pairwise (· < ·)

namespace SortedSet

def insertSorted (x : α) : List α → List α
  | [] => [x]
  | y :: ys => if x < y then x :: y :: ys else if x = y then y :: ys else y :: insertSorted x ys

theorem mem_insertSorted {x y : α} {xs : List α} : y ∈ insertSorted x xs ↔ y = x ∨ y ∈ xs := by
  induction xs with
  | nil => simp [insertSorted]
  | cons z xs ih =>
    rw [insertSorted]
    split_ifs with hlt heq
    · simp
    · simp [heq]
    · simp only [List.mem_cons, ih, or_left_comm]

theorem pairwise_insertSorted {x : α} {xs : List α} (h : xs.Pairwise (· < ·)) :
    (insertSorted x xs).Pairwise (· < ·) := by
  induction xs with
  | nil => exact List.pairwise_singleton _ _
  | cons z xs ih =>
    obtain ⟨hz, hxs⟩ := List.pairwise_cons.mp h
    rw [insertSorted]
    split_ifs with hlt heq
    · refine List.pairwise_cons.mpr ⟨?_, h⟩
      intro y hy
      rcases List.mem_cons.mp hy with rfl | hy
      · exact hlt
      · exact hlt.trans (hz y hy)
    · exact h
    · refine List.pairwise_cons.mpr ⟨?_, ih hxs⟩
      intro y hy
      rcases mem_insertSorted.mp hy with rfl | hy
      · exact lt_of_le_of_ne (not_lt.mp hlt) (Ne.symm heq)
      · exact hz y hy

theorem insertSorted_take (x : α) (xs : List α) (n : ℕ) :
    (insertSorted x (xs.take n)).take n = (insertSorted x xs).take n := by
  induction xs generalizing n with
  | nil => rw [List.take_nil]
  | cons y xs ih =>
    cases n with
    | zero => rw [List.take_zero, List.take_zero]
    | succ n =>
      rw [List.take_succ_cons, insertSorted, insertSorted]
      split_ifs with hlt heq
      · cases n with
        | zero => rfl
        | succ n => simp [List.take_take]
      · simp [List.take_take]
      · rw [List.take_succ_cons, List.take_succ_cons, ih]

theorem length_insertSorted_le (x : α) (xs : List α) :
    (insertSorted x xs).length ≤ xs.length + 1 ∧ xs.length ≤ (insertSorted x xs).length := by
  induction xs with
  | nil => simp [insertSorted]
  | cons y xs ih =>
    rw [insertSorted]
    split_ifs <;> simp only [List.length_cons] <;> omega

instance : Membership α (SortedSet α) := ⟨fun s x => x ∈ s.elems⟩

theorem ext_elems {s t : SortedSet α} (h : s.elems = t.elems) : s = t := by
  obtain ⟨xs, hxs⟩ := s
  obtain ⟨ys, hys⟩ := t
  have hsame : xs = ys := h
  subst hsame
  rfl

theorem ext_of_mem {s t : SortedSet α} (h : ∀ x, x ∈ s ↔ x ∈ t) : s = t := by
  have hperm : s.elems.Perm t.elems :=
    (List.perm_ext_iff_of_nodup (s.sorted.imp ne_of_lt) (t.sorted.imp ne_of_lt)).mpr h
  exact ext_elems
    (hperm.eq_of_pairwise (fun a b _ _ hab hba => absurd hab hba.asymm) s.sorted t.sorted)

def empty : SortedSet α := ⟨[], List.Pairwise.nil⟩

def length (s : SortedSet α) : ℕ := s.elems.length

def insert (s : SortedSet α) (x : α) : SortedSet α :=
  ⟨insertSorted x s.elems, pairwise_insertSorted s.sorted⟩

theorem mem_insert {s : SortedSet α} {x y : α} : y ∈ s.insert x ↔ y = x ∨ y ∈ s :=
  mem_insertSorted

def popLast (s : SortedSet α) : Option α × SortedSet α :=
  (s.elems.getLast?, ⟨s.elems.dropLast, s.sorted.sublist (List.dropLast_sublist _)⟩)

def popFirst (s : SortedSet α) : Option α := s.elems.head?

def smallest (s : SortedSet α) (limit : ℕ) : SortedSet α :=
  ⟨s.elems.take limit, s.sorted.sublist (List.take_sublist _ _)⟩

theorem elems_smallest (s : SortedSet α) (limit : ℕ) :
    (s.smallest limit).elems = s.elems.take limit := rfl

/-- The smallest elements tell whether the set is larger than their number. -/
theorem lt_length_insert (s : SortedSet α) (x : α) (limit : ℕ) : limit < (s.insert x).length ↔
    limit < s.length ∨ limit < ((s.smallest limit).insert x).length := by
  by_cases hlarge : limit < s.length
  · have hle : s.length ≤ (s.insert x).length := (length_insertSorted_le x s.elems).2
    simp only [hlarge, true_or, iff_true]
    omega
  · have hall : s.smallest limit = s := ext_elems (List.take_of_length_le (not_lt.mp hlarge))
    rw [hall]
    simp only [hlarge, false_or]

def ofList (items : List α) : SortedSet α := items.foldl insert empty

theorem mem_foldl_insert (items : List α) (s : SortedSet α) (x : α) :
    x ∈ items.foldl insert s ↔ x ∈ items ∨ x ∈ s := by
  induction items generalizing s with
  | nil => simp
  | cons y items ih => rw [List.foldl_cons, ih, mem_insert, List.mem_cons]; tauto

theorem mem_ofList {items : List α} {x : α} : x ∈ ofList items ↔ x ∈ items := by
  rw [ofList, mem_foldl_insert]
  exact or_iff_left List.not_mem_nil

theorem ofList_append_singleton (items : List α) (x : α) :
    ofList (items ++ [x]) = (ofList items).insert x := by
  rw [ofList, List.foldl_append]
  rfl

theorem elems_ofList (items : List α) : (ofList items).elems = items.toFinset.sort (· ≤ ·) := by
  have hsorted := (ofList items).sorted
  have hset : (ofList items).elems.toFinset = items.toFinset := by
    ext x
    rw [List.mem_toFinset, List.mem_toFinset]
    exact mem_ofList
  rw [← hset]
  exact ((List.toFinset_sort (· ≤ ·) (hsorted.imp ne_of_lt)).mpr (hsorted.imp le_of_lt)).symm

end SortedSet

end IdaMcp.Foundation
