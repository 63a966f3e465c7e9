import Mathlib.Algebra.Ring.Nat

/-! Unsigned 64-bit arithmetic on natural numbers; `none` is the overflow. -/

namespace IdaMcp.Foundation.U64

def add (a b : ℕ) : Option ℕ := if a + b < 2 ^ 64 then some (a + b) else none

def sub (a b : ℕ) : Option ℕ := if b ≤ a then some (a - b) else none

def mul (a b : ℕ) : Option ℕ := if a * b < 2 ^ 64 then some (a * b) else none

theorem add_eq {a b : ℕ} (h : a + b < 2 ^ 64) : add a b = some (a + b) := if_pos h

theorem sub_eq {a b : ℕ} (h : b ≤ a) : sub a b = some (a - b) := if_pos h

theorem mul_eq {a b : ℕ} (h : a * b < 2 ^ 64) : mul a b = some (a * b) := if_pos h

theorem add_eq_some {a b c : ℕ} : add a b = some c ↔ a + b < 2 ^ 64 ∧ c = a + b := by
  unfold add
  split_ifs with h
  · exact ⟨fun hsome => ⟨h, (Option.some_inj.mp hsome).symm⟩, fun hsum => congrArg some hsum.2.symm⟩
  · exact ⟨fun hnone => (nomatch hnone), fun hsum => absurd hsum.1 h⟩

theorem add_eq_none {a b : ℕ} : add a b = none ↔ 2 ^ 64 ≤ a + b := by
  unfold add
  split_ifs with h <;> simp <;> omega

end IdaMcp.Foundation.U64
