import IdaMcp.Foundation.Gregorian
import IdaMcp.Foundation.U64

namespace IdaMcp.Tasks

open Foundation Gregorian

def epochDaysToYmd (days : ℕ) : Option (ℕ × ℕ × ℕ) := do
  let z ← U64.add days 719468
  let era := z / 146097
  let doe ← U64.sub z (← U64.mul era 146097)
  let yoe := (← U64.sub (← U64.add (← U64.sub doe (doe / 1460)) (doe / 36524)) (doe / 146096)) / 365
  let y ← U64.add yoe (← U64.mul era 400)
  let doy ← U64.sub doe (← U64.sub (← U64.add (← U64.mul 365 yoe) (yoe / 4)) (yoe / 100))
  let mp := (← U64.add (← U64.mul 5 doy) 2) / 153
  let d ← U64.add (← U64.sub doy ((← U64.add (← U64.mul 153 mp) 2) / 5)) 1
  let m ← (if mp < 10 then U64.add mp 3 else U64.sub mp 9 : Option ℕ)
  let year ← (if m ≤ 2 then U64.add y 1 else some y : Option ℕ)
  pure (year, m, d)

theorem yearOfEra_year (c k j doy doe : ℕ) (hc : c < 4) (hk : k < 25) (hj : j < 4)
    (hdoy : doy ≤ 365) (hleap : doy = 365 → j = 3 ∧ (k = 24 → c = 3))
    (hdoe : doe = 36524 * c + 1461 * k + 365 * j + doy) :
    (doe - doe / 1460 + doe / 36524 - doe / 146096) / 365 = 100 * c + 4 * k + j := by
  by_cases hlast : doe = 146096
  · subst hlast
    omega
  · have h36524 : doe / 36524 = c := by omega
    have h146096 : doe / 146096 = 0 := by omega
    by_cases hwrap : 24 * c + k + 365 * j + doy < 1460
    · have h1460 : doe / 1460 = 25 * c + k := by omega
      rw [h36524, h146096, h1460]
      omega
    · have h1460 : doe / 1460 = 25 * c + k + 1 := by omega
      rw [h36524, h146096, h1460]
      omega

theorem ymd_of_march (date : Date) (hyear : 0 < date.year) (hlt : date.marchYear + 1 < 2 ^ 64) :
    ((if marchMonth date.month < 10 then U64.add (marchMonth date.month) 3
      else U64.sub (marchMonth date.month) 9).bind fun m =>
        (if m ≤ 2 then U64.add date.marchYear 1 else some date.marchYear).bind fun year =>
          pure (year, m, date.day)) = some date.ymd := by
  have hpos := date.month_pos
  have hle := date.month_le
  by_cases hearly : date.month ≤ 2
  · have hmarch : marchMonth date.month = date.month + 9 := if_pos hearly
    have hback : date.marchYear = date.year - 1 := if_pos hearly
    rw [hmarch, if_neg (show ¬ date.month + 9 < 10 by omega), U64.sub_eq (by omega), Option.bind_some, Nat.add_sub_cancel,
      if_pos hearly, U64.add_eq hlt, Option.bind_some, hback, Nat.sub_add_cancel hyear]
    rfl
  · have hmarch : marchMonth date.month = date.month - 3 := if_neg hearly
    have hback : date.marchYear = date.year := if_neg hearly
    have hmonth : date.month - 3 + 3 = date.month := by omega
    rw [hmarch, if_pos (show date.month - 3 < 10 by omega), U64.add_eq (by omega), Option.bind_some, hmonth,
      if_neg hearly, Option.bind_some, hback]
    rfl

theorem epochDaysToYmd_eq (days : ℕ) (date : Date) (hyear : 0 < date.year)
    (hdays : days + 719468 = date.dayNumber) (hlt : days + 719468 < 2 ^ 64) :
    epochDaysToYmd days = some date.ymd := by
  let p := yearOfEra date.marchYear
  have hc := p.century_lt
  have hk := p.span_lt
  have hj := p.rest_lt
  have hmarch := p.year_eq
  obtain ⟨hfirst, -, hdoy⟩ := date.dayOfMarchYear_bounds
  have hleap : date.dayOfMarchYear = 365 → p.rest = 3 ∧ (p.span = 24 → p.century = 3) :=
    fun h => p.isLeap_succ (date.isLeap_of_dayOfMarchYear hyear h)
  have hmonth := date.dayOfMarchYear_month
  rw [Date.dayNumber, p.yearStart_eq] at hdays
  generalize p.era = e, p.century = c, p.span = k, p.rest = j at *
  generalize hn : date.dayOfMarchYear = doy at *
  obtain ⟨z, hz⟩ : ∃ z, z = days + 719468 := ⟨_, rfl⟩
  obtain ⟨doe, hdoe⟩ : ∃ doe, doe = 36524 * c + 1461 * k + 365 * j + doy := ⟨_, rfl⟩
  have hsmall : doe < 146097 := by omega
  have hera : z / 146097 = e := by omega
  have heraDays : z - e * 146097 = doe := by omega
  have hyoe := yearOfEra_year c k j doy doe hc hk hj hdoy hleap hdoe
  have hquarter : (100 * c + 4 * k + j) / 4 = 25 * c + k := by omega
  have hcentury : (100 * c + 4 * k + j) / 100 = c := by omega
  have hrest : doe - (365 * (100 * c + 4 * k + j) + (25 * c + k) - c) = doy := by omega
  have hstart : (153 * marchMonth date.month + 2) / 5 = monthStart (marchMonth date.month) := rfl
  have hday : doy - monthStart (marchMonth date.month) + 1 = date.day := by
    have hpos := date.day_pos
    rw [← hn, Date.dayOfMarchYear]
    omega
  have hmarchYear : 100 * c + 4 * k + j + e * 400 = date.marchYear := by omega
  -- The year of the era.
  unfold epochDaysToYmd
  dsimp only
  rw [U64.add_eq hlt, Option.bind_eq_bind, Option.bind_some, ← hz, hera]
  rw [U64.mul_eq (by omega), Option.bind_some, U64.sub_eq (by omega), Option.bind_some, heraDays,
    U64.sub_eq (by omega), Option.bind_some, U64.add_eq (by omega), Option.bind_some,
    U64.sub_eq (by omega), Option.bind_some, hyoe]
  -- The day of the year.
  rw [U64.mul_eq (by omega), Option.bind_some, U64.add_eq (by omega), Option.bind_some, hmarchYear,
    U64.mul_eq (by omega), Option.bind_some, hquarter, U64.add_eq (by omega), Option.bind_some,
    hcentury, U64.sub_eq (by omega), Option.bind_some, U64.sub_eq (by omega), Option.bind_some,
    hrest]
  -- The month and its day.
  rw [U64.mul_eq (by omega), Option.bind_some, U64.add_eq (by omega), Option.bind_some, hmonth,
    U64.mul_eq (by omega), Option.bind_some, U64.add_eq (by omega), Option.bind_some,
    hstart, U64.sub_eq (by omega), Option.bind_some, U64.add_eq (by omega), Option.bind_some, hday]
  exact ymd_of_march date hyear (by omega)

def unixEpoch : Date := ⟨1970, 1, 1, by decide, by decide, by decide, by decide⟩

theorem dayNumber_unixEpoch : unixEpoch.dayNumber = 719468 := by decide

theorem year_pos_after_unixEpoch (days : ℕ) : 0 < (unixEpoch.after days).year :=
  lt_of_lt_of_le (by decide) (unixEpoch.year_le_after days)

theorem dayNumber_after_unixEpoch (days : ℕ) :
    (unixEpoch.after days).dayNumber = days + 719468 := by
  induction days with
  | zero => rw [Date.after_zero, dayNumber_unixEpoch]
  | succ days ih =>
    have hnext := Date.dayNumber_successor _ (year_pos_after_unixEpoch days)
    rw [Date.after_succ]
    omega

theorem epochDaysToYmd_after (days : ℕ) (hlt : days + 719468 < 2 ^ 64) :
    epochDaysToYmd days = some (unixEpoch.after days).ymd :=
  epochDaysToYmd_eq days _ (year_pos_after_unixEpoch days) (dayNumber_after_unixEpoch days).symm hlt

/-- No operation on the way overflows or underflows, and the days are those of the calendar in
its order. -/
theorem epoch_days_follow_calendar (days : ℕ) (hlt : days + 719468 < 2 ^ 64) :
    epochDaysToYmd 0 = some (1970, 1, 1) ∧
    ∃ date : Date, epochDaysToYmd days = some date.ymd ∧
      (days + 1 + 719468 < 2 ^ 64 → epochDaysToYmd (days + 1) = some date.successor.ymd) ∧
      (∀ other, epochDaysToYmd other = some date.ymd → other = days) ∧
      ∀ other, days < other → other + 719468 < 2 ^ 64 →
        ∃ later : Date, epochDaysToYmd other = some later.ymd ∧ date < later := by
  refine ⟨epochDaysToYmd_after 0 (by decide), unixEpoch.after days,
    epochDaysToYmd_after days hlt, ?_, ?_, ?_⟩
  · intro hnext
    rw [epochDaysToYmd_after _ hnext, Date.after_succ]
  · intro other hother
    have hfits : other + 719468 < 2 ^ 64 := by
      by_contra hover
      rw [epochDaysToYmd, U64.add_eq_none.mpr (by omega)] at hother
      exact nomatch hother
    rw [epochDaysToYmd_after _ hfits, Option.some_inj] at hother
    exact unixEpoch.after_strictMono.injective (Date.ymd_injective hother)
  · intro other hother hfits
    exact ⟨_, epochDaysToYmd_after _ hfits, unixEpoch.after_strictMono hother⟩

theorem epoch_days_follow_calendar_leap_day :
    11016 + 719468 < 2 ^ 64 ∧ epochDaysToYmd 11016 = some (2000, 2, 29) ∧
      ∃ date : Date, epochDaysToYmd 11016 = some date.ymd ∧
        epochDaysToYmd 11017 = some date.successor.ymd := by
  obtain ⟨-, date, hdate, hnext, -⟩ := epoch_days_follow_calendar 11016 (by decide)
  exact ⟨by decide, by decide, date, hdate, hnext (by decide)⟩

def zeroPadded (width n : ℕ) : String :=
  String.ofList (List.leftpad width '0' (Nat.toDigits 10 n))

def isoText (ymd : ℕ × ℕ × ℕ) (hours minutes seconds : ℕ) : String :=
  zeroPadded 4 ymd.1 ++ "-" ++ zeroPadded 2 ymd.2.1 ++ "-" ++ zeroPadded 2 ymd.2.2 ++ "T" ++
    zeroPadded 2 hours ++ ":" ++ zeroPadded 2 minutes ++ ":" ++ zeroPadded 2 seconds ++ "Z"

def isoNow (secs : ℕ) : Option String := do
  let days := secs / 86400
  let timeSecs := secs % 86400
  let hours := timeSecs / 3600
  let minutes := timeSecs % 3600 / 60
  let seconds := timeSecs % 60
  let ymd ← epochDaysToYmd days
  pure (isoText ymd hours minutes seconds)

theorem isoNow_eq (secs : ℕ) (hsecs : secs < 2 ^ 64) :
    ∃ hours minutes seconds, hours < 24 ∧ minutes < 60 ∧ seconds < 60 ∧
      secs = 86400 * (secs / 86400) + 3600 * hours + 60 * minutes + seconds ∧
      isoNow secs = some (isoText (unixEpoch.after (secs / 86400)).ymd hours minutes seconds) := by
  refine ⟨secs % 86400 / 3600, secs % 86400 % 3600 / 60, secs % 86400 % 60, by omega, by omega,
    by omega, by omega, ?_⟩
  rw [isoNow, epochDaysToYmd_after (secs / 86400) (by omega)]
  rfl

end IdaMcp.Tasks
