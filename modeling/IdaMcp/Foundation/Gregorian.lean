import Mathlib.Data.Nat.Basic
import Mathlib.Data.Prod.Lex
import Mathlib.Logic.Function.Iterate
import Mathlib.Order.Monotone.Basic
import Mathlib.Tactic.IntervalCases
import Mathlib.Tactic.Ring

namespace IdaMcp.Foundation.Gregorian

def IsLeap (year : ℕ) : Prop := year % 4 = 0 ∧ (year % 100 = 0 → year % 400 = 0)

instance (year : ℕ) : Decidable (IsLeap year) := inferInstanceAs (Decidable (_ ∧ _))

def daysInMonth (year month : ℕ) : ℕ :=
  if month = 2 then (if IsLeap year then 29 else 28)
  else if month = 4 ∨ month = 6 ∨ month = 9 ∨ month = 11 then 30 else 31

theorem daysInMonth_pos (year month : ℕ) : 0 < daysInMonth year month := by
  unfold daysInMonth
  split_ifs <;> omega

/-! Years counted from March end with the leap day, so that the other months start on fixed days. -/

def marchMonth (month : ℕ) : ℕ := if month ≤ 2 then month + 9 else month - 3

/-- The five-month pattern of 31, 30, 31, 30 and 31 days is the fraction 153 / 5. -/
def monthStart (marchMonth : ℕ) : ℕ := (153 * marchMonth + 2) / 5

def yearStart (year : ℕ) : ℕ := 365 * year + year / 4 - year / 100 + year / 400

@[simp] theorem marchMonth_february : marchMonth 2 = 11 := rfl

@[simp] theorem monthStart_february : monthStart 11 = 337 := rfl

theorem marchMonth_le (month : ℕ) (hpos : 1 ≤ month) (hle : month ≤ 12) (hfebruary : month ≠ 2) :
    marchMonth month ≤ 10 := by
  unfold marchMonth
  split_ifs <;> omega

theorem monthStart_succ (year month : ℕ) (hpos : 1 ≤ month) (hle : month ≤ 12)
    (hfebruary : month ≠ 2) :
    monthStart (marchMonth month + 1) = monthStart (marchMonth month) + daysInMonth year month := by
  interval_cases month <;> simp [monthStart, marchMonth, daysInMonth] at hfebruary ⊢

theorem yearStart_succ (year : ℕ) :
    yearStart (year + 1) = yearStart year + if IsLeap (year + 1) then 366 else 365 := by
  have hcentury : year / 100 ≤ year / 4 := Nat.div_le_div_left (by omega) (by omega)
  simp only [yearStart, IsLeap, Nat.succ_div, Nat.dvd_iff_mod_eq_zero]
  by_cases h4 : (year + 1) % 4 = 0
  · by_cases h100 : (year + 1) % 100 = 0
    · by_cases h400 : (year + 1) % 400 = 0
      · simp only [h4, h100, h400, if_true, and_self, imp_self]
        omega
      · simp only [h4, h100, h400, if_true, if_false, true_implies, and_false]
        omega
    · have h400 : ¬ (year + 1) % 400 = 0 := by omega
      simp only [h4, h100, h400, if_true, if_false, false_implies, and_self]
      omega
  · have h100 : ¬ (year + 1) % 100 = 0 := by omega
    have h400 : ¬ (year + 1) % 400 = 0 := by omega
    simp only [h4, h100, h400, if_false, false_and]
    omega

structure YearOfEra (year : ℕ) where
  era : ℕ
  century : ℕ
  span : ℕ
  rest : ℕ
  century_lt : century < 4
  span_lt : span < 25
  rest_lt : rest < 4
  year_eq : year = 400 * era + 100 * century + 4 * span + rest

def yearOfEra (year : ℕ) : YearOfEra year where
  era := year / 400
  century := year % 400 / 100
  span := year % 100 / 4
  rest := year % 4
  century_lt := by omega
  span_lt := by omega
  rest_lt := by omega
  year_eq := by omega

theorem YearOfEra.yearStart_eq {year : ℕ} (p : YearOfEra year) :
    yearStart year = 146097 * p.era + 36524 * p.century + 1461 * p.span + 365 * p.rest := by
  have hcentury := p.century_lt
  have hspan := p.span_lt
  have hrest := p.rest_lt
  have hyear := p.year_eq
  unfold yearStart
  omega

theorem YearOfEra.isLeap_succ {year : ℕ} (p : YearOfEra year) (h : IsLeap (year + 1)) :
    p.rest = 3 ∧ (p.span = 24 → p.century = 3) := by
  have hcentury := p.century_lt
  have hspan := p.span_lt
  have hrest := p.rest_lt
  have hyear := p.year_eq
  unfold IsLeap at h
  omega

@[ext]
structure Date where
  year : ℕ
  month : ℕ
  day : ℕ
  month_pos : 1 ≤ month
  month_le : month ≤ 12
  day_pos : 1 ≤ day
  day_le : day ≤ daysInMonth year month

namespace Date

def ymd (date : Date) : ℕ × ℕ × ℕ := (date.year, date.month, date.day)

def key (date : Date) : ℕ ×ₗ ℕ ×ₗ ℕ := toLex (date.year, toLex (date.month, date.day))

theorem ymd_injective : Function.Injective ymd := by
  intro a b h
  simp only [ymd, Prod.mk.injEq] at h
  exact Date.ext h.1 h.2.1 h.2.2

theorem key_injective : Function.Injective key := by
  intro a b h
  apply ymd_injective
  simpa only [key, ymd, EmbeddingLike.apply_eq_iff_eq, Prod.mk.injEq] using h

instance : LinearOrder Date := LinearOrder.lift' key key_injective

theorem lt_iff (a b : Date) : a < b ↔ a.year < b.year ∨ a.year = b.year ∧
    (a.month < b.month ∨ a.month = b.month ∧ a.day < b.day) := by
  change key a < key b ↔ _
  simp only [key, Prod.Lex.toLex_lt_toLex]

def successor (date : Date) : Date :=
  if hday : date.day < daysInMonth date.year date.month then
    ⟨date.year, date.month, date.day + 1, date.month_pos, date.month_le, by omega, hday⟩
  else if hmonth : date.month < 12 then
    ⟨date.year, date.month + 1, 1, by omega, hmonth, le_refl 1, daysInMonth_pos _ _⟩
  else ⟨date.year + 1, 1, 1, le_refl 1, by omega, le_refl 1, daysInMonth_pos _ _⟩

theorem lt_successor (date : Date) : date < date.successor := by
  rw [lt_iff]
  unfold successor
  split_ifs
  · exact .inr ⟨rfl, .inr ⟨rfl, Nat.lt_succ_self _⟩⟩
  · exact .inr ⟨rfl, .inl (Nat.lt_succ_self _)⟩
  · exact .inl (Nat.lt_succ_self _)

theorem year_le_successor (date : Date) : date.year ≤ date.successor.year := by
  unfold successor
  split_ifs <;> simp

def after (start : Date) (days : ℕ) : Date := successor^[days] start

@[simp] theorem after_zero (start : Date) : start.after 0 = start := rfl

theorem after_succ (start : Date) (days : ℕ) :
    start.after (days + 1) = (start.after days).successor :=
  Function.iterate_succ_apply' successor days start

theorem after_strictMono (start : Date) : StrictMono start.after := by
  apply strictMono_nat_of_lt_succ
  intro days
  rw [after_succ]
  exact lt_successor _

theorem year_le_after (start : Date) (days : ℕ) : start.year ≤ (start.after days).year := by
  induction days with
  | zero => exact le_refl _
  | succ days ih =>
    rw [after_succ]
    exact ih.trans (year_le_successor _)

def marchYear (date : Date) : ℕ := if date.month ≤ 2 then date.year - 1 else date.year

def dayOfMarchYear (date : Date) : ℕ := monthStart (marchMonth date.month) + (date.day - 1)

def dayNumber (date : Date) : ℕ := yearStart date.marchYear + date.dayOfMarchYear

theorem dayOfMarchYear_bounds (date : Date) :
    monthStart (marchMonth date.month) ≤ date.dayOfMarchYear ∧
      date.dayOfMarchYear < monthStart (marchMonth date.month + 1) ∧ date.dayOfMarchYear ≤ 365 := by
  have hday := date.day_pos
  have hdays := date.day_le
  unfold dayOfMarchYear
  by_cases hfebruary : date.month = 2
  · have hleast : daysInMonth date.year date.month ≤ 29 := by
      simp only [daysInMonth, hfebruary, if_true]
      split_ifs <;> omega
    rw [hfebruary, marchMonth_february, monthStart_february]
    simp only [monthStart]
    omega
  · have hnext := monthStart_succ date.year date.month date.month_pos date.month_le hfebruary
    have hmarch := marchMonth_le date.month date.month_pos date.month_le hfebruary
    refine ⟨by omega, by omega, ?_⟩
    unfold monthStart at hnext ⊢
    omega

theorem dayOfMarchYear_month (date : Date) :
    (5 * date.dayOfMarchYear + 2) / 153 = marchMonth date.month := by
  obtain ⟨hstart, hend, -⟩ := date.dayOfMarchYear_bounds
  unfold monthStart at hstart hend
  omega

theorem isLeap_of_dayOfMarchYear (date : Date) (hyear : 0 < date.year)
    (h : date.dayOfMarchYear = 365) : IsLeap (date.marchYear + 1) := by
  have hpos := date.month_pos
  have hdays := date.day_le
  by_cases hfebruary : date.month = 2
  · simp only [dayOfMarchYear, hfebruary, marchMonth_february, monthStart_february] at h
    simp only [daysInMonth, hfebruary, if_true] at hdays
    have hleap : IsLeap date.year := by
      by_contra hcommon
      rw [if_neg hcommon] at hdays
      omega
    simpa only [marchYear, hfebruary, le_refl, if_true, Nat.sub_add_cancel hyear] using hleap
  · obtain ⟨-, hend, -⟩ := date.dayOfMarchYear_bounds
    have hmarch := marchMonth_le date.month date.month_pos date.month_le hfebruary
    unfold monthStart at hend
    omega

theorem dayNumber_successor (date : Date) (hyear : 0 < date.year) :
    date.successor.dayNumber = date.dayNumber + 1 := by
  have hpos := date.month_pos
  have hle := date.month_le
  have hday := date.day_pos
  have hdays := date.day_le
  unfold successor
  by_cases hsame : date.day < daysInMonth date.year date.month
  · rw [dif_pos hsame]
    simp only [dayNumber, marchYear, dayOfMarchYear]
    omega
  have hlast : date.day = daysInMonth date.year date.month := by omega
  rw [dif_neg hsame]
  by_cases hfebruary : date.month = 2
  · have hstart := yearStart_succ (date.year - 1)
    rw [Nat.sub_add_cancel hyear] at hstart
    simp only [daysInMonth, hfebruary, if_true] at hlast
    rw [dif_pos (by omega)]
    simp only [dayNumber, marchYear, dayOfMarchYear, hfebruary, marchMonth_february,
      monthStart_february, le_refl, if_true]
    rw [if_neg (by omega), hstart]
    simp only [marchMonth, monthStart]
    split_ifs at hlast ⊢ <;> omega
  · have hnext := monthStart_succ date.year date.month hpos hle hfebruary
    by_cases hmonth : date.month < 12
    · have hmarch : marchMonth (date.month + 1) = marchMonth date.month + 1 := by
        unfold marchMonth
        split_ifs <;> omega
      rw [dif_pos hmonth]
      simp only [dayNumber, marchYear, dayOfMarchYear, hmarch]
      split_ifs <;> omega
    · have hdecember : date.month = 12 := by omega
      rw [hdecember] at hnext hlast
      rw [dif_neg hmonth]
      simp only [dayNumber, marchYear, dayOfMarchYear, hdecember]
      simp only [marchMonth, Nat.reduceLeDiff, if_true, if_false, Nat.reduceAdd, Nat.reduceSub,
        Nat.add_sub_cancel] at hnext ⊢
      omega

end Date

end IdaMcp.Foundation.Gregorian
