import Mathlib.Data.List.Infix

namespace IdaMcp.Foundation

variable {α : Type*} {p a b : List α}

/-- No occurrence of a list without `c` reaches across a `c`. -/
theorem infix_append_cons_iff {c : α} (hc : c ∉ p) :
    p <:+: a ++ c :: b ↔ p <:+: a ∨ p <:+: b := by
  constructor
  · intro h
    rcases List.infix_append_iff.mp h with h | h | ⟨l, r, rfl, hl, hr⟩
    · exact .inl h
    · rcases List.infix_cons_iff.mp h with h | h
      · rcases List.prefix_cons_iff.mp h with rfl | ⟨t, rfl, -⟩
        · exact .inl List.nil_infix
        · simp at hc
      · exact .inr h
    · rcases List.prefix_cons_iff.mp hr with rfl | ⟨t, rfl, -⟩
      · exact .inl (by simpa using hl.isInfix)
      · simp at hc
  · rintro (h | h)
    · exact h.trans List.infix_append_left
    · exact h.trans ((List.suffix_cons c b).isInfix.trans List.infix_append_right)

section Clear

variable [BEq α] [LawfulBEq α]

/-- No occurrence of `p` lies in the list, and none starts in it and runs on behind it. -/
def clearOf (p : List α) : List α → Bool
  | [] => true
  | c :: l => !p.isPrefixOf (c :: l) && !(c :: l).isPrefixOf p && clearOf p l

theorem clearOf_iff :
    clearOf p a = true ↔ ∀ t, t <:+ a → t ≠ [] → ¬ p <+: t ∧ ¬ t <+: p := by
  induction a with
  | nil =>
    simp only [clearOf, List.suffix_nil, true_iff]
    intro t ht hne
    exact (hne ht).elim
  | cons c l ih =>
    simp only [clearOf, Bool.and_eq_true, Bool.not_eq_true', ih, List.suffix_cons_iff]
    constructor
    · rintro ⟨⟨hp, hl⟩, h⟩ t (rfl | ht) hne
      · simp only [← List.isPrefixOf_iff_prefix, hp, hl]
        simp
      · exact h t ht hne
    · intro h
      obtain ⟨hp, hl⟩ := h (c :: l) (.inl rfl) (by simp)
      rw [← List.isPrefixOf_iff_prefix, Bool.not_eq_true] at hp hl
      exact ⟨⟨hp, hl⟩, fun t ht => h t (.inr ht)⟩

theorem clearOf_of_map {β : Type*} [BEq β] [LawfulBEq β] (f : α → β)
    (h : clearOf (p.map f) (a.map f) = true) : clearOf p a = true := by
  rw [clearOf_iff] at h ⊢
  intro t ht hne
  obtain ⟨hp, hl⟩ := h (t.map f) (ht.map f) (by simpa using hne)
  exact ⟨fun hpt => hp (hpt.map f), fun htp => hl (htp.map f)⟩

theorem infix_append_iff_of_clearOf (h : clearOf p a = true) (hp : p ≠ []) :
    p <:+: a ++ b ↔ p <:+: b := by
  refine ⟨fun hi => ?_, fun hi => hi.trans List.infix_append_right⟩
  rw [clearOf_iff] at h
  rcases List.infix_append_iff.mp hi with hi | hi | ⟨l, r, rfl, hl, hr⟩
  · obtain ⟨t, hpt, hta⟩ := List.infix_iff_prefix_suffix.mp hi
    have hne : t ≠ [] := fun ht => hp (by simpa [ht] using hpt)
    exact ((h t hta hne).1 hpt).elim
  · exact hi
  · by_cases hn : l = []
    · subst hn; exact hr.isInfix
    · exact ((h l hl hn).2 (List.prefix_append l r)).elim

theorem infix_append_iff_of_clearOf_reverse (h : clearOf p.reverse b.reverse = true)
    (hp : p ≠ []) : p <:+: a ++ b ↔ p <:+: a := by
  rw [← List.reverse_infix, List.reverse_append, infix_append_iff_of_clearOf h (by simpa using hp),
    List.reverse_infix]

theorem not_infix_of_clearOf (h : clearOf p a = true) (hp : p ≠ []) : ¬ p <:+: a := by
  intro hi
  have hnil : p <:+: ([] : List α) := (infix_append_iff_of_clearOf h hp).mp (by simpa using hi)
  exact hp (by simpa using hnil)

end Clear

theorem not_infix_of_forall {P : α → Prop} {c : α} (hc : c ∈ p) (hP : ¬ P c) (ha : ∀ x ∈ a, P x) :
    ¬ p <:+: a := fun h => hP (ha c (h.subset hc))

end IdaMcp.Foundation
