import Mathlib.Data.List.Basic

/-! Readers that hand over less than there is. -/

namespace IdaMcp.Foundation.ShortReads

variable {α : Type}

/-- A read into a buffer with `room`: where there is something left and room for it, at least one
entry, and beyond that as much as the source likes. -/
def read (wish room : ℕ) (rest : List α) : List α := rest.take (min (wish + 1) room)

def readExact (wish : ℕ → ℕ) (k want : ℕ) (rest : List α) : Option (List α) :=
  if _hwant : want = 0 then some []
  else if _hrest : rest = [] then none
  else
    let got := read (wish k) want rest
    (readExact wish (k + 1) (want - got.length) (rest.drop got.length)).map (got ++ ·)
termination_by want
decreasing_by
  have hpos := List.length_pos_iff.mpr _hrest
  simp only [read, List.length_take]
  omega

variable {wish room : ℕ} {rest : List α}

theorem length_read : (read wish room rest).length = min (min (wish + 1) room) rest.length := by
  rw [read, List.length_take]

theorem read_eq_take : rest.take (read wish room rest).length = read wish room rest := by
  rw [length_read, ← List.take_eq_take_min, read]

theorem read_append_drop : read wish room rest ++ rest.drop (read wish room rest).length = rest := by
  conv_lhs => arg 1; rw [← read_eq_take]
  exact List.take_append_drop _ rest

theorem read_eq_nil (hroom : 0 < room) : read wish room rest = [] ↔ rest = [] := by
  rw [← List.length_eq_zero_iff, ← List.length_eq_zero_iff, length_read]
  omega

theorem append_begins_iff {a b t : List α} :
    a ++ b <+: t ↔ t.take a.length = a ∧ b <+: t.drop a.length := by
  constructor
  · rintro ⟨c, rfl⟩
    simp
  · rintro ⟨ha, c, hc⟩
    refine ⟨c, ?_⟩
    rw [List.append_assoc, hc]
    conv_lhs => arg 1; rw [← ha]
    exact List.take_append_drop _ t

theorem begins_iff_read {t : List α} : rest <+: t ↔
    t.take (read wish room rest).length = read wish room rest ∧
      rest.drop (read wish room rest).length <+: t.drop (read wish room rest).length := by
  rw [← append_begins_iff, read_append_drop]

theorem drop_read_lt (h : read wish room rest ≠ []) :
    (rest.drop (read wish room rest).length).length < rest.length := by
  have hpos := List.length_pos_iff.mpr h
  have hlength : (read wish room rest).length = _ := length_read
  rw [List.length_drop]
  omega

/-- However short its reads are, a full read gives what the source has first. -/
theorem readExact_eq (wish : ℕ → ℕ) (k want : ℕ) (rest : List α) :
    readExact wish k want rest = if want ≤ rest.length then some (rest.take want) else none := by
  fun_induction readExact wish k want rest with
  | case1 k rest => simp
  | case2 k want hwant => simp [hwant]
  | case3 k want rest hwant hrest got ih =>
    have hgot : got.length ≤ want ∧ got.length ≤ rest.length := by
      have hlength : got.length = min (min (wish k + 1) want) rest.length := length_read
      omega
    rw [ih, List.length_drop]
    by_cases hlong : want ≤ rest.length
    · rw [if_pos (by omega), if_pos hlong, Option.map_some, Option.some_inj]
      have hsplit : rest.take want = rest.take (got.length + (want - got.length)) := by
        rw [Nat.add_sub_cancel' hgot.1]
      rw [hsplit, List.take_add, read_eq_take]
    · rw [if_neg (by omega), if_neg hlong, Option.map_none]

end IdaMcp.Foundation.ShortReads
