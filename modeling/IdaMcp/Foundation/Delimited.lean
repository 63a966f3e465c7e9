import Mathlib.Data.List.Basic

/-! Fields that a separator keeps apart. -/

namespace IdaMcp.Foundation.Delimited

variable {α : Type*} {sep : α} {a a' b b' : List α}

theorem split_first (ha : sep ∉ a) (ha' : sep ∉ a') (h : a ++ sep :: b = a' ++ sep :: b') :
    a = a' ∧ b = b' := by
  induction a generalizing a' with
  | nil =>
    cases a' with
    | nil => exact ⟨rfl, (List.cons.inj h).2⟩
    | cons y a' =>
      have hsep : sep = y := (List.cons.inj h).1
      exact absurd (hsep ▸ List.mem_cons_self) ha'
  | cons x a ih =>
    cases a' with
    | nil =>
      have hsep : x = sep := (List.cons.inj h).1
      exact absurd (hsep ▸ List.mem_cons_self) ha
    | cons y a' =>
      obtain ⟨rfl, hrest⟩ := List.cons.inj h
      obtain ⟨rfl, rfl⟩ := ih (fun hmem => ha (List.mem_cons_of_mem _ hmem))
        (fun hmem => ha' (List.mem_cons_of_mem _ hmem)) hrest
      exact ⟨rfl, rfl⟩

theorem split_last (hb : sep ∉ b) (hb' : sep ∉ b') (h : a ++ sep :: b = a' ++ sep :: b') :
    a = a' ∧ b = b' := by
  have hreverse : b.reverse ++ sep :: a.reverse = b'.reverse ++ sep :: a'.reverse := by
    simpa using congrArg List.reverse h
  obtain ⟨hright, hleft⟩ := split_first (by simpa using hb) (by simpa using hb') hreverse
  exact ⟨List.reverse_injective hleft, List.reverse_injective hright⟩

theorem not_mem_intercalate {c : α} {fields : List (List α)} (hc : c ≠ sep)
    (h : ∀ f ∈ fields, c ∉ f) : c ∉ [sep].intercalate fields := by
  induction fields with
  | nil => simp
  | cons f rest ih =>
    have hf := h f List.mem_cons_self
    cases rest with
    | nil => rwa [List.intercalate_singleton]
    | cons g rest =>
      rw [List.intercalate_cons_cons]
      simp only [List.mem_append, List.mem_singleton, not_or]
      exact ⟨⟨hf, hc⟩, ih fun f hmem => h f (List.mem_cons_of_mem _ hmem)⟩

theorem intercalate_injective {fields fields' : List (List α)}
    (hsep : ∀ f ∈ fields, sep ∉ f) (hsep' : ∀ f ∈ fields', sep ∉ f)
    (hne : ∀ f ∈ fields, f ≠ []) (hne' : ∀ f ∈ fields', f ≠ [])
    (h : [sep].intercalate fields = [sep].intercalate fields') : fields = fields' := by
  have hcons (f : List α) (rest : List (List α)) (hf : f ≠ []) :
      [sep].intercalate (f :: rest) ≠ [] := by
    cases rest with
    | nil => rwa [List.intercalate_singleton]
    | cons g rest =>
      rw [List.intercalate_cons_cons]
      intro hnil
      exact hf (List.append_eq_nil_iff.mp (List.append_eq_nil_iff.mp hnil).1).1
  induction fields generalizing fields' with
  | nil =>
    cases fields' with
    | nil => rfl
    | cons f' rest' => exact absurd h.symm (hcons f' rest' (hne' f' List.mem_cons_self))
  | cons f rest ih =>
    cases fields' with
    | nil => exact absurd h (hcons f rest (hne f List.mem_cons_self))
    | cons f' rest' =>
      have hf := hsep f List.mem_cons_self
      have hf' := hsep' f' List.mem_cons_self
      cases rest with
      | nil =>
        cases rest' with
        | nil => simpa using h
        | cons g' rest' =>
          rw [List.intercalate_singleton, List.intercalate_cons_cons] at h
          exact absurd (by rw [h]; simp) hf
      | cons g rest =>
        cases rest' with
        | nil =>
          rw [List.intercalate_singleton, List.intercalate_cons_cons] at h
          exact absurd (by rw [← h]; simp) hf'
        | cons g' rest' =>
          rw [List.intercalate_cons_cons, List.intercalate_cons_cons, List.append_assoc,
            List.append_assoc, List.singleton_append, List.singleton_append] at h
          obtain ⟨rfl, hrest⟩ := split_first hf hf' h
          have hih := ih (fun f hmem => hsep f (List.mem_cons_of_mem _ hmem))
            (fun f hmem => hsep' f (List.mem_cons_of_mem _ hmem))
            (fun f hmem => hne f (List.mem_cons_of_mem _ hmem))
            (fun f hmem => hne' f (List.mem_cons_of_mem _ hmem)) hrest
          rw [hih]

end IdaMcp.Foundation.Delimited
