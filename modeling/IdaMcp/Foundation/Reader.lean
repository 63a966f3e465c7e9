import Mathlib.Data.List.Basic
import Mathlib.Data.List.TakeWhile

namespace IdaMcp.Foundation

variable {β α γ : Type}

abbrev Reader (β : Type) := StateT (List β) Option

namespace Reader

def fail : Reader β α := fun _ => none

def next : Reader β β
  | [] => none
  | b :: rest => some (b, rest)

def peek : Reader β (Option β) := fun input => some (input.head?, input)

def span (keep : β → Bool) : Reader β (List β) := fun input =>
  some (input.takeWhile keep, input.dropWhile keep)

/-- What a reader does depends only on what it consumes and on the item after that. -/
structure Incremental (f : Reader β α) : Prop where
  suffix : ∀ {p v r}, f p = some (v, r) → r <:+ p
  extend : ∀ {p q v r}, r ≠ [] → (f p = some (v, r) ↔ f (p ++ q) = some (v, r ++ q))

/-- A reader that sees by itself where its value ends. -/
def Delimited (f : Reader β α) : Prop :=
  ∀ {p q v r}, f p = some (v, r) → f (p ++ q) = some (v, r ++ q)

theorem bind_eq_some {f : Reader β α} {g : α → Reader β γ} {p r : List β} {v : γ} :
    (f >>= g) p = some (v, r) ↔ ∃ a s, f p = some (a, s) ∧ g a s = some (v, r) := by
  change (f p).bind (fun x => g x.1 x.2) = some (v, r) ↔ _
  rw [Option.bind_eq_some_iff]
  simp only [Prod.exists]

theorem bind_of_eq {f : Reader β α} {g : α → Reader β γ} {p s : List β} {a : α}
    (h : f p = some (a, s)) : (f >>= g) p = g a s := by
  change (f p).bind (fun x => g x.1 x.2) = _
  rw [h]
  rfl

theorem ne_nil_of_suffix {r s : List β} (hr : r ≠ []) (h : r <:+ s) : s ≠ [] := by
  rintro rfl
  exact hr (List.suffix_nil.mp h)

theorem suffix_append_split {q r s : List β} (hr : r ≠ []) (hrs : r ++ q <:+ s) :
    ∃ s', s = s' ++ q ∧ s' ≠ [] ∧ r <:+ s' := by
  obtain ⟨t, ht⟩ := hrs
  refine ⟨t ++ r, ?_, ?_, List.suffix_append t r⟩
  · rw [← ht, List.append_assoc]
  · simp [hr]

theorem incremental_pure (a : α) : Incremental (pure a : Reader β α) where
  suffix h := by
    cases h
    exact List.suffix_refl _
  extend {p q v r} hr := by
    change some (a, p) = some (v, r) ↔ some (a, p ++ q) = some (v, r ++ q)
    simp

theorem incremental_fail : Incremental (fail : Reader β α) where
  suffix h := by cases h
  extend hr := by simp [fail]

theorem incremental_next : Incremental (next : Reader β β) where
  suffix {p v r} h := by
    cases p with
    | nil => cases h
    | cons b rest =>
      cases h
      exact List.suffix_cons ..
  extend {p q v r} hr := by
    cases p with
    | nil =>
      constructor
      · intro h
        cases h
      · intro h
        cases q with
        | nil => cases h
        | cons b rest =>
          have hlength := congrArg List.length (Prod.mk.inj (Option.some.inj h)).2
          have hpos := List.length_pos_iff.mpr hr
          simp only [List.length_append, List.length_cons] at hlength
          omega
    | cons b rest => simp [next]

theorem incremental_peek : Incremental (peek : Reader β (Option β)) where
  suffix h := by
    cases h
    exact List.suffix_refl _
  extend {p q v r} hr := by
    simp only [peek, Option.some.injEq, Prod.mk.injEq, List.append_cancel_right_eq]
    constructor
    · rintro ⟨hv, rfl⟩
      rw [List.head?_append_of_ne_nil _ hr]
      exact ⟨hv, rfl⟩
    · rintro ⟨hv, rfl⟩
      rw [List.head?_append_of_ne_nil _ hr] at hv
      exact ⟨hv, rfl⟩

theorem incremental_span (keep : β → Bool) : Incremental (span keep) where
  suffix h := by
    cases h
    exact List.dropWhile_suffix _
  extend {p q v r} hr := by
    simp only [span, Option.some.injEq, Prod.mk.injEq]
    by_cases hend : p.dropWhile keep = []
    · constructor
      · rintro ⟨-, rfl⟩
        exact (hr hend).elim
      · rintro ⟨-, hdrop⟩
        rw [List.dropWhile_append, hend, List.isEmpty_nil, if_pos rfl] at hdrop
        have hlength := (List.dropWhile_suffix keep (l := q)).length_le
        have hpos := List.length_pos_iff.mpr hr
        rw [hdrop, List.length_append] at hlength
        omega
    · have htake : (p.takeWhile keep).length ≠ p.length := by
        intro hlength
        have happend := congrArg List.length (List.takeWhile_append_dropWhile (p := keep) (l := p))
        rw [List.length_append, hlength] at happend
        exact hend (List.length_eq_zero_iff.mp (by omega))
      rw [List.dropWhile_append, List.takeWhile_append, if_neg htake, if_neg (by simpa using hend)]
      simp

theorem Incremental.bind {f : Reader β α} {g : α → Reader β γ} (hf : Incremental f)
    (hg : ∀ a, Incremental (g a)) : Incremental (f >>= g) where
  suffix h := by
    obtain ⟨a, s, hfs, hgs⟩ := bind_eq_some.mp h
    exact ((hg a).suffix hgs).trans (hf.suffix hfs)
  extend {p q v r} hr := by
    constructor
    · intro h
      obtain ⟨a, s, hfs, hgs⟩ := bind_eq_some.mp h
      have hs := ne_nil_of_suffix hr ((hg a).suffix hgs)
      exact bind_eq_some.mpr ⟨a, s ++ q, (hf.extend hs).mp hfs, ((hg a).extend hr).mp hgs⟩
    · intro h
      obtain ⟨a, s, hfs, hgs⟩ := bind_eq_some.mp h
      obtain ⟨s', rfl, hs', -⟩ := suffix_append_split hr ((hg a).suffix hgs)
      exact bind_eq_some.mpr ⟨a, s', (hf.extend hs').mpr hfs, ((hg a).extend hr).mpr hgs⟩

theorem Incremental.mono {f : Reader β α} {g g' : α → Reader β γ} {p : List β} {x : γ × List β}
    (hf : Incremental f)
    (h : ∀ a s, s.length ≤ p.length → g a s = some x → g' a s = some x)
    (hp : (f >>= g) p = some x) : (f >>= g') p = some x := by
  obtain ⟨a, s, hfs, hgs⟩ := bind_eq_some.mp hp
  exact bind_eq_some.mpr ⟨a, s, hfs, h a s (hf.suffix hfs).length_le hgs⟩

theorem Incremental.bind_delimited {f : Reader β α} {g : α → Reader β γ} (hf : Incremental f)
    (hg : ∀ a, Delimited (g a)) (htakes : ∀ a v r, g a [] ≠ some (v, r)) : Delimited (f >>= g) := by
  intro p q v r h
  obtain ⟨a, s, hfs, hgs⟩ := bind_eq_some.mp h
  have hs : s ≠ [] := by
    rintro rfl
    exact htakes a v r hgs
  exact bind_eq_some.mpr ⟨a, s ++ q, (hf.extend hs).mp hfs, hg a hgs⟩

end Reader

end IdaMcp.Foundation
