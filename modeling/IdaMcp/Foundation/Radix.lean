import IdaMcp.Foundation.Text

/-! Unsigned numbers written in a radix of at most sixteen. -/

namespace IdaMcp.Foundation.Radix

open Text

def digit (radix : ℕ) (c : Char) : Option ℕ := (hexDigit c).filter (· < radix)

variable (radix limit : ℕ)

def readDigits (n : ℕ) : Chars → Option ℕ
  | [] => some n
  | c :: rest => do
    let d ← digit radix c
    if n * radix + d < limit then readDigits (n * radix + d) rest else none

def fromStrRadix : Chars → Option ℕ
  | [] | ['+'] | ['-'] => none
  | '+' :: digits => readDigits radix limit 0 digits
  | digits => readDigits radix limit 0 digits

variable {radix limit}

theorem readDigits_append (n : ℕ) (s t : Chars) : readDigits radix limit n (s ++ t) =
    (readDigits radix limit n s).bind fun m => readDigits radix limit m t := by
  induction s generalizing n with
  | nil => rfl
  | cons c s ih =>
    simp only [List.cons_append, readDigits]
    cases digit radix c with
    | none => rfl
    | some d =>
      simp only [Option.bind_eq_bind, Option.bind_some]
      split_ifs
      · exact ih _
      · rfl

theorem digit_digitChar {d : ℕ} (hradix : radix ≤ 16) (h : d < radix) :
    digit radix d.digitChar = some d := by
  have hall : ∀ d < 16, hexDigit (Nat.digitChar d) = some d := by decide
  rw [digit, hall d (by omega), Option.filter_some, if_pos (by simpa using h)]

theorem readDigits_toDigits (hbase : 1 < radix) (hradix : radix ≤ 16) (n : ℕ) :
    readDigits radix limit 0 (Nat.toDigits radix n) = if n < limit then some n else none := by
  have hdigit (m d : ℕ) (h : d < radix) : readDigits radix limit m [d.digitChar] =
      if m * radix + d < limit then some (m * radix + d) else none := by
    simp only [readDigits, digit_digitChar hradix h, Option.bind_eq_bind, Option.bind_some]
  induction n using Nat.strongRecOn with
  | ind n ih =>
    rw [Nat.toDigits_eq_if hbase]
    have hvalue : n / radix * radix + n % radix = n := Nat.div_add_mod' n radix
    have hle : n / radix ≤ n := Nat.div_le_self n radix
    have hmod := Nat.mod_lt n (show 0 < radix by omega)
    split_ifs with hsmall hlt hlt
    · rw [hdigit 0 n hsmall, Nat.zero_mul, Nat.zero_add, if_pos hlt]
    · rw [hdigit 0 n hsmall, Nat.zero_mul, Nat.zero_add, if_neg hlt]
    · rw [readDigits_append, ih _ (Nat.div_lt_self (by omega) hbase), if_pos (by omega),
        Option.bind_some, hdigit _ _ hmod, hvalue, if_pos hlt]
    · rw [readDigits_append, ih _ (Nat.div_lt_self (by omega) hbase)]
      split_ifs
      · rw [Option.bind_some, hdigit _ _ hmod, hvalue, if_neg hlt]
      · rfl

/-- What `from_str_radix` reads after a plus sign. -/
def dropPlus : Chars → Chars
  | '+' :: digits => digits
  | digits => digits

theorem dropPlus_eq_self {s : Chars} (h : s.head? ≠ some '+') : dropPlus s = s := by
  unfold dropPlus
  split
  · simp at h
  · rfl

theorem fromStrRadix_eq (s : Chars) : fromStrRadix radix limit s =
    if dropPlus s = [] then none else readDigits radix limit 0 (dropPlus s) := by
  have hminus : digit radix '-' = none := rfl
  unfold fromStrRadix
  split
  · rfl
  · rfl
  · simp [dropPlus, readDigits, hminus]
  · rename_i digits hplus
    have hne : digits ≠ [] := by
      rintro rfl
      exact hplus rfl
    rw [dropPlus, if_neg hne]
  · rename_i hnil hplus hminus' hdigits
    rw [dropPlus_eq_self, if_neg hnil]
    cases s with
    | nil => simp
    | cons c rest => simpa using fun hc => hdigits rest (by rw [hc])

theorem dropPlus_toDigits (hbase : 1 < radix) (hradix : radix ≤ 16) (n : ℕ) :
    dropPlus (Nat.toDigits radix n) = Nat.toDigits radix n := by
  have hsign : ∀ d < 16, Nat.digitChar d ≠ '+' := by decide
  apply dropPlus_eq_self
  intro hhead
  obtain ⟨d, hd, hc⟩ := exists_digit_of_mem_toDigits hbase (List.mem_of_mem_head? hhead)
  exact hsign d (by omega) hc.symm

theorem fromStrRadix_toDigits (hbase : 1 < radix) (hradix : radix ≤ 16) (n : ℕ) :
    fromStrRadix radix limit (Nat.toDigits radix n) = if n < limit then some n else none := by
  rw [fromStrRadix_eq, dropPlus_toDigits hbase hradix, if_neg Nat.toDigits_ne_nil,
    readDigits_toDigits hbase hradix]

def value (radix n : ℕ) (digits : Chars) : ℕ :=
  digits.foldl (fun n c => n * radix + (digit radix c).getD 0) n

structure IsNumeral (radix limit : ℕ) (digits : Chars) (n : ℕ) : Prop where
  ne_nil : digits ≠ []
  isSome : ∀ c ∈ digits, (digit radix c).isSome
  value_eq : value radix 0 digits = n
  lt : n < limit

theorem le_value (hradix : 0 < radix) (n : ℕ) (digits : Chars) : n ≤ value radix n digits := by
  induction digits generalizing n with
  | nil => exact le_refl n
  | cons c digits ih =>
    have hgrow : n ≤ n * radix + (digit radix c).getD 0 :=
      le_trans (Nat.le_mul_of_pos_right n hradix) (Nat.le_add_right _ _)
    exact le_trans hgrow (ih _)

theorem readDigits_eq_some (hradix : 0 < radix) {n m : ℕ} (hn : n < limit) (digits : Chars) :
    readDigits radix limit n digits = some m ↔
      (∀ c ∈ digits, (digit radix c).isSome) ∧ value radix n digits = m ∧ m < limit := by
  induction digits generalizing n with
  | nil =>
    simp only [readDigits, value, List.foldl_nil, Option.some_inj]
    grind
  | cons c digits ih =>
    cases hc : digit radix c with
    | none => simp [readDigits, hc]
    | some d =>
      have hvalue : value radix n (c :: digits) = value radix (n * radix + d) digits := by
        rw [value, List.foldl_cons, hc]
        rfl
      simp only [readDigits, hc, Option.bind_eq_bind, Option.bind_some, hvalue,
        List.forall_mem_cons, Option.isSome_some, true_and]
      split_ifs with hlt
      · exact ih hlt
      · have hle := le_value hradix (n * radix + d) digits
        apply iff_of_false
        · simp
        · omega

theorem fromStrRadix_eq_some (hradix : 0 < radix) (hlimit : 0 < limit) {s : Chars} {n : ℕ} :
    fromStrRadix radix limit s = some n ↔ IsNumeral radix limit (dropPlus s) n := by
  rw [fromStrRadix_eq]
  split_ifs with hempty
  · exact iff_of_false (by simp) fun h => h.ne_nil hempty
  · rw [readDigits_eq_some hradix hlimit]
    exact ⟨fun h => ⟨hempty, h.1, h.2.1, h.2.2⟩, fun h => ⟨h.isSome, h.value_eq, h.lt⟩⟩

def padded (radix width n : ℕ) : Chars := List.leftpad width '0' (Nat.toDigits radix n)

theorem value_replicate_zero (hradix : 0 < radix) (k : ℕ) (digits : Chars) :
    value radix 0 (List.replicate k '0' ++ digits) = value radix 0 digits := by
  induction k with
  | zero => rfl
  | succ k ih =>
    rw [List.replicate_succ, List.cons_append, ← ih]
    have hzero : digit radix '0' = some 0 := by
      rw [digit, show hexDigit '0' = some 0 by decide, Option.filter_some]
      exact if_pos (by simpa using hradix)
    rw [value, List.foldl_cons, hzero, Option.getD_some, Nat.zero_mul]
    rfl

theorem value_padded (hbase : 1 < radix) (hradix : radix ≤ 16) (width n : ℕ) :
    value radix 0 (padded radix width n) = n := by
  have hread : readDigits radix (n + 1) 0 (Nat.toDigits radix n) = some n := by
    rw [readDigits_toDigits hbase hradix, if_pos (Nat.lt_succ_self n)]
  rw [padded, List.leftpad, value_replicate_zero (by omega)]
  exact ((readDigits_eq_some (by omega) (Nat.succ_pos n) _).mp hread).2.1

theorem padded_injective (hbase : 1 < radix) (hradix : radix ≤ 16) (width : ℕ) :
    Function.Injective (padded radix width) := by
  intro m n h
  rw [← value_padded hbase hradix width m, h, value_padded hbase hradix]

theorem exists_digit_of_mem_padded (hbase : 1 < radix) {width n : ℕ} {c : Char}
    (hc : c ∈ padded radix width n) : ∃ k < radix, c = k.digitChar := by
  rcases List.mem_append.mp hc with hc | hc
  · exact ⟨0, by omega, List.eq_of_mem_replicate hc⟩
  · exact exists_digit_of_mem_toDigits hbase hc

end IdaMcp.Foundation.Radix
