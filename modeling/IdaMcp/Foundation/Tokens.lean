import Mathlib.Data.List.Nodup
import Mathlib.Logic.Function.Basic
import Mathlib.Logic.Relation

namespace IdaMcp.Foundation

structure Draw (ρ γ : Type*) where
  client : γ
  token : ℕ
  resource : Option ρ

structure Grant (ρ γ : Type*) where
  client : γ
  token : ℕ
  resource : ρ

/-- Fencing tokens: agents `τ` draw them from a counter, put them on resources `ρ` and grant the
resource with its token to a client in `γ`. -/
structure Tokens (τ ρ γ : Type*) where
  next : ℕ
  drawn : τ → Option (Draw ρ γ)
  token : ρ → Option ℕ
  client : ρ → Option γ
  granted : List (Grant ρ γ)

namespace Tokens

variable {τ ρ γ : Type*} [DecidableEq τ] [DecidableEq ρ] {l l' : Tokens τ ρ γ} {t : τ} {r : ρ}
  {g : γ} {n : ℕ}

inductive Step (l : Tokens τ ρ γ) : Tokens τ ρ γ → Prop
  | clear {drawn : τ → Option (Draw ρ γ)} {token : ρ → Option ℕ} {client : ρ → Option γ}
    (hdrawn : ∀ t x, drawn t = some x → l.drawn t = some x)
    (htoken : ∀ r n, token r = some n → l.token r = some n)
    (hclient : ∀ r g, client r = some g → l.client r = some g) :
    Step l { l with drawn, token, client }
  | draw (t : τ) (g : γ) :
    Step l { l with
      next := l.next + 1, drawn := Function.update l.drawn t (some ⟨g, l.next + 1, none⟩) }
  | place {t : τ} {g : γ} {n : ℕ} (r : ρ) (hdrawn : l.drawn t = some ⟨g, n, none⟩) :
    Step l { l with
      drawn := Function.update l.drawn t (some ⟨g, n, some r⟩)
      token := Function.update l.token r (some n)
      client := Function.update l.client r (some g) }
  | grant {t : τ} {g : γ} {n : ℕ} {r : ρ} (hdrawn : l.drawn t = some ⟨g, n, some r⟩) :
    Step l { l with
      drawn := Function.update l.drawn t none, granted := l.granted ++ [⟨g, n, r⟩] }

theorem place_grant (r : ρ) (hdrawn : l.drawn t = some ⟨g, n, none⟩) :
    Relation.ReflTransGen Step l { l with
      drawn := Function.update l.drawn t none
      token := Function.update l.token r (some n)
      client := Function.update l.client r (some g)
      granted := l.granted ++ [⟨g, n, r⟩] } := by
  have hgrant (l₁ : Tokens τ ρ γ) (hdrawn₁ : l₁.drawn t = some ⟨g, n, some r⟩) :
      Step l₁ { l₁ with
        drawn := Function.update l₁.drawn t none, granted := l₁.granted ++ [⟨g, n, r⟩] } :=
    .grant hdrawn₁
  have hstep := hgrant { l with
    drawn := Function.update l.drawn t (some ⟨g, n, some r⟩)
    token := Function.update l.token r (some n)
    client := Function.update l.client r (some g) } (Function.update_self ..)
  simp only [Function.update_idem] at hstep
  exact (Relation.ReflTransGen.single (.place r hdrawn)).tail hstep

def Reserved (l : Tokens τ ρ γ) (g : γ) (n : ℕ) (r : Option ρ) : Prop :=
  ∀ r', l.token r' = some n → r = some r' ∧ ∀ g', l.client r' = some g' → g' = g

structure Sound (l : Tokens τ ρ γ) : Prop where
  token_le : ∀ r n, l.token r = some n → n ≤ l.next
  drawn_le : ∀ t x, l.drawn t = some x → x.token ≤ l.next
  granted_le : ∀ x ∈ l.granted, x.token ≤ l.next
  drawn_inj : ∀ t t' x x', l.drawn t = some x → l.drawn t' = some x' → x.token = x'.token → t = t'
  drawn_not_granted : ∀ t x, l.drawn t = some x → ∀ y ∈ l.granted, y.token ≠ x.token
  drawn_reserved : ∀ t x, l.drawn t = some x → l.Reserved x.client x.token x.resource
  granted_reserved : ∀ x ∈ l.granted, l.Reserved x.client x.token (some x.resource)
  token_inj : ∀ r r' n, l.token r = some n → l.token r' = some n → r = r'
  granted_nodup : (l.granted.map Grant.token).Nodup

omit [DecidableEq τ] [DecidableEq ρ] in
theorem Reserved.mono {o : Option ρ} (h : l.Reserved g n o)
    (htoken : ∀ r n, l'.token r = some n → l.token r = some n)
    (hclient : ∀ r g, l'.client r = some g → l.client r = some g) : l'.Reserved g n o := by
  intro r hr
  obtain ⟨ho, hg⟩ := h r (htoken r n hr)
  exact ⟨ho, fun g' hg' => hg g' (hclient r g' hg')⟩

omit [DecidableEq τ] [DecidableEq ρ] in
theorem Sound.clear (h : l.Sound) {drawn : τ → Option (Draw ρ γ)} {token : ρ → Option ℕ}
    {client : ρ → Option γ} (hdrawn : ∀ t x, drawn t = some x → l.drawn t = some x)
    (htoken : ∀ r n, token r = some n → l.token r = some n)
    (hclient : ∀ r g, client r = some g → l.client r = some g) :
    Sound { l with drawn, token, client } where
  token_le r n hr := h.token_le r n (htoken r n hr)
  drawn_le t x ht := h.drawn_le t x (hdrawn t x ht)
  granted_le := h.granted_le
  drawn_inj t t' x x' ht ht' := h.drawn_inj t t' x x' (hdrawn t x ht) (hdrawn t' x' ht')
  drawn_not_granted t x ht := h.drawn_not_granted t x (hdrawn t x ht)
  drawn_reserved t x ht := (h.drawn_reserved t x (hdrawn t x ht)).mono htoken hclient
  granted_reserved x hx := (h.granted_reserved x hx).mono htoken hclient
  token_inj r r' n hr hr' := h.token_inj r r' n (htoken r n hr) (htoken r' n hr')
  granted_nodup := h.granted_nodup

omit [DecidableEq ρ] in
theorem Sound.draw (h : l.Sound) (t : τ) (g : γ) :
    Sound { l with
      next := l.next + 1, drawn := Function.update l.drawn t (some ⟨g, l.next + 1, none⟩) } where
  token_le r n hr := Nat.le_succ_of_le (h.token_le r n hr)
  drawn_le t' x ht' := by
    simp only [Function.update_apply] at ht'
    split_ifs at ht'
    · cases ht'
      exact Nat.le_refl _
    · exact Nat.le_succ_of_le (h.drawn_le t' x ht')
  granted_le x hx := Nat.le_succ_of_le (h.granted_le x hx)
  drawn_inj t₁ t₂ x₁ x₂ h₁ h₂ hx := by
    simp only [Function.update_apply] at h₁ h₂
    split_ifs at h₁ h₂ with ht₁ ht₂ ht₂
    · rw [ht₁, ht₂]
    · cases h₁
      have hle := h.drawn_le t₂ x₂ h₂
      simp only at hx
      omega
    · cases h₂
      have hle := h.drawn_le t₁ x₁ h₁
      simp only at hx
      omega
    · exact h.drawn_inj t₁ t₂ x₁ x₂ h₁ h₂ hx
  drawn_not_granted t' x ht' y hy := by
    simp only [Function.update_apply] at ht'
    split_ifs at ht'
    · cases ht'
      have hle := h.granted_le y hy
      simp only
      omega
    · exact h.drawn_not_granted t' x ht' y hy
  drawn_reserved t' x ht' := by
    simp only [Function.update_apply] at ht'
    split_ifs at ht'
    · cases ht'
      intro r hr
      exact (Nat.not_succ_le_self _ (h.token_le r _ hr)).elim
    · exact h.drawn_reserved t' x ht'
  granted_reserved := h.granted_reserved
  token_inj := h.token_inj
  granted_nodup := h.granted_nodup

omit [DecidableEq τ] in
theorem Reserved.place {o : Option ρ} {n' : ℕ} {g' : γ} (h : l.Reserved g n o) (hn : n ≠ n') (r : ρ)
    (drawn : τ → Option (Draw ρ γ)) :
    Reserved { l with
      drawn, token := Function.update l.token r (some n')
      client := Function.update l.client r (some g') } g n o := by
  intro r' hr'
  simp only [Function.update_apply] at hr' ⊢
  split_ifs at hr' ⊢ with hrr
  · cases hr'
    exact (hn rfl).elim
  · exact h r' hr'

theorem Sound.place (h : l.Sound) (r : ρ) (hdrawn : l.drawn t = some ⟨g, n, none⟩) :
    Sound { l with
      drawn := Function.update l.drawn t (some ⟨g, n, some r⟩)
      token := Function.update l.token r (some n)
      client := Function.update l.client r (some g) } where
  token_le r' n' hr' := by
    simp only [Function.update_apply] at hr'
    split_ifs at hr'
    · cases hr'
      exact h.drawn_le t _ hdrawn
    · exact h.token_le r' n' hr'
  drawn_le t' x ht' := by
    simp only [Function.update_apply] at ht'
    split_ifs at ht'
    · cases ht'
      exact h.drawn_le t ⟨g, n, none⟩ hdrawn
    · exact h.drawn_le t' x ht'
  granted_le := h.granted_le
  drawn_inj t₁ t₂ x₁ x₂ h₁ h₂ hx := by
    simp only [Function.update_apply] at h₁ h₂
    split_ifs at h₁ h₂ with ht₁ ht₂ ht₂
    · rw [ht₁, ht₂]
    · cases h₁
      exact ht₁.trans (h.drawn_inj t t₂ _ x₂ hdrawn h₂ hx)
    · cases h₂
      exact (h.drawn_inj t₁ t x₁ _ h₁ hdrawn hx).trans ht₂.symm
    · exact h.drawn_inj t₁ t₂ x₁ x₂ h₁ h₂ hx
  drawn_not_granted t' x ht' := by
    simp only [Function.update_apply] at ht'
    split_ifs at ht'
    · cases ht'
      exact h.drawn_not_granted t ⟨g, n, none⟩ hdrawn
    · exact h.drawn_not_granted t' x ht'
  drawn_reserved t' x ht' := by
    simp only [Function.update_apply] at ht'
    split_ifs at ht' with htt
    · cases ht'
      intro r' hr'
      simp only [Function.update_apply] at hr' ⊢
      split_ifs at hr' ⊢ with hrr
      · exact ⟨by rw [hrr], fun g' hg' => (Option.some.inj hg').symm⟩
      · cases (h.drawn_reserved t _ hdrawn r' hr').1
    · refine (h.drawn_reserved t' x ht').place (fun hn => htt ?_) r _
      exact h.drawn_inj t' t x _ ht' hdrawn hn
  granted_reserved x hx :=
    (h.granted_reserved x hx).place (h.drawn_not_granted t _ hdrawn x hx) r _
  token_inj r₁ r₂ n' h₁ h₂ := by
    have hfree (r' : ρ) (hr' : l.token r' = some n) : False := by
      cases (h.drawn_reserved t _ hdrawn r' hr').1
    simp only [Function.update_apply] at h₁ h₂
    split_ifs at h₁ h₂ with hr₁ hr₂ hr₂
    · rw [hr₁, hr₂]
    · cases h₁
      exact (hfree r₂ h₂).elim
    · cases h₂
      exact (hfree r₁ h₁).elim
    · exact h.token_inj r₁ r₂ n' h₁ h₂
  granted_nodup := h.granted_nodup

omit [DecidableEq ρ] in
theorem Sound.grant (h : l.Sound) (hdrawn : l.drawn t = some ⟨g, n, some r⟩) :
    Sound { l with
      drawn := Function.update l.drawn t none, granted := l.granted ++ [⟨g, n, r⟩] } := by
  have hold (t' : τ) (x : Draw ρ γ) (ht' : Function.update l.drawn t none t' = some x) :
      t' ≠ t ∧ l.drawn t' = some x := by
    simp only [Function.update_apply] at ht'
    split_ifs at ht' with htt
    exact ⟨htt, ht'⟩
  have hmem {y : Grant ρ γ} (hy : y ∈ l.granted ++ [⟨g, n, r⟩]) : y ∈ l.granted ∨ y = ⟨g, n, r⟩ := by
    simpa using hy
  constructor
  · exact h.token_le
  · intro t' x ht'
    exact h.drawn_le t' x (hold t' x ht').2
  · intro y hy
    rcases hmem hy with hy | rfl
    · exact h.granted_le y hy
    · exact h.drawn_le t _ hdrawn
  · intro t₁ t₂ x₁ x₂ h₁ h₂
    exact h.drawn_inj t₁ t₂ x₁ x₂ (hold t₁ x₁ h₁).2 (hold t₂ x₂ h₂).2
  · intro t' x ht' y hy
    obtain ⟨hne, ht'⟩ := hold t' x ht'
    rcases hmem hy with hy | rfl
    · exact h.drawn_not_granted t' x ht' y hy
    · intro hn
      exact hne (h.drawn_inj t t' _ x hdrawn ht' hn).symm
  · intro t' x ht'
    exact h.drawn_reserved t' x (hold t' x ht').2
  · intro y hy
    rcases hmem hy with hy | rfl
    · exact h.granted_reserved y hy
    · exact h.drawn_reserved t _ hdrawn
  · exact h.token_inj
  · rw [List.map_append, List.map_singleton, List.nodup_append]
    refine ⟨h.granted_nodup, List.nodup_singleton n, ?_⟩
    intro a ha b hb
    obtain ⟨y, hy, rfl⟩ := List.mem_map.mp ha
    obtain rfl := List.mem_singleton.mp hb
    exact h.drawn_not_granted t _ hdrawn y hy

theorem Sound.step (h : l.Sound) (hstep : Step l l') : l'.Sound := by
  cases hstep with
  | clear hdrawn htoken hclient => exact h.clear hdrawn htoken hclient
  | draw t g => exact h.draw t g
  | place r hdrawn => exact h.place r hdrawn
  | grant hdrawn => exact h.grant hdrawn

theorem Sound.steps (h : l.Sound) (hsteps : Relation.ReflTransGen Step l l') : l'.Sound := by
  induction hsteps with
  | refl => exact h
  | tail _ hstep ih => exact ih.step hstep

theorem next_le_of_step (hstep : Step l l') : l.next ≤ l'.next := by
  cases hstep with
  | draw => exact Nat.le_succ _
  | _ => exact Nat.le_refl _

theorem next_le_of_steps (hsteps : Relation.ReflTransGen Step l l') : l.next ≤ l'.next := by
  induction hsteps with
  | refl => exact Nat.le_refl _
  | tail _ hstep ih => exact Nat.le_trans ih (next_le_of_step hstep)

end Tokens

end IdaMcp.Foundation
