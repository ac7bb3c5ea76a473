/-
Btwattch2.ChronoTheorems — the calendar counts every day once.

A day number and a civil date are both brought to an `EraDay`: an era of 400
years, a year of it and a month, counted from March, and a day. Which of the 400
years a day of the era falls in follows from the first and the last day of each
year, since the formula for it is monotone (`yearOfEra_add`).
-/
import Mathlib.Algebra.Order.Group.Unbundled.Int
import Mathlib.Tactic.IntervalCases
import Btwattch2.Chrono

namespace Btwattch2

/-! ## A day of an era -/

/-- The days of an era before its `y`-th year. -/
def yearStart (y : Nat) : Int := y * 365 + y / 4 - y / 100

/-- The last day of the `y`-th year of an era. -/
def yearEnd (y : Nat) : Int := if y = 399 then 146096 else yearStart (y + 1) - 1

/-- The year of its era a day falls in. -/
def yearOfEra (doe : Int) : Int := (doe - doe / 1460 + doe / 36524 - doe / 146096) / 365

theorem yearOfEra_mono {a b : Int} (hab : a ≤ b) (ha : 0 ≤ a) (hb : b < 146097) :
    yearOfEra a ≤ yearOfEra b := by
  have hleap : b / 1460 - a / 1460 ≤ b - a := by omega
  have hcentury : b / 146096 - a / 146096 ≤ b / 36524 - a / 36524 := by omega
  exact Int.ediv_le_ediv (by decide) (by omega)

theorem yearOfEra_ends : ∀ y < 400,
    yearOfEra (yearStart y) = y ∧ yearOfEra (yearEnd y) = y ∧ 0 ≤ yearStart y ∧
      yearEnd y < 146097 ∧ yearEnd y - yearStart y = if isLeapYear (y + 1) then 365 else 364 := by
  decide +kernel

/-- The days of the `y`-th year of an era are in that year. -/
theorem yearOfEra_add {y : Nat} {doy : Int} (hy : y < 400) (hdoy : 0 ≤ doy)
    (hlast : doy ≤ if isLeapYear (y + 1) then 365 else 364) :
    yearOfEra (yearStart y + doy) = y ∧ 0 ≤ yearStart y + doy ∧ yearStart y + doy < 146097 := by
  obtain ⟨hfirst, hend, hstart, hera, hlen⟩ := yearOfEra_ends y hy
  have hle : yearStart y + doy ≤ yearEnd y := by omega
  refine ⟨le_antisymm ?_ ?_, by omega, by omega⟩
  · rw [← hend]
    exact yearOfEra_mono hle (by omega) hera
  · rw [← hfirst]
    exact yearOfEra_mono (by omega) hstart (by omega)

/-- Every day of an era is a day of one of its years. -/
theorem exists_yearOfEra (doe : Int) (h : 0 ≤ doe) (hera : doe < 146097) :
    ∃ y < 400, yearStart y ≤ doe ∧ doe ≤ yearEnd y := by
  have hbelow : ∀ n ≤ 400, doe < yearStart n → ∃ y < n, yearStart y ≤ doe ∧
    doe < yearStart (y + 1) := by
    intro n
    induction n with
    | zero => exact fun _ hlt => absurd hlt (by simpa [yearStart] using h)
    | succ n ih =>
      intro hn hlt
      by_cases hstart : yearStart n ≤ doe
      · exact ⟨n, Nat.lt_succ_self n, hstart, hlt⟩
      · obtain ⟨y, hy, hdoe⟩ := ih (by omega) (by omega)
        exact ⟨y, by omega, hdoe⟩
  by_cases hlast : doe < yearStart 399
  · obtain ⟨y, hy, hdoe, hnext⟩ := hbelow 399 (by decide) hlast
    refine ⟨y, by omega, hdoe, ?_⟩
    rw [yearEnd, if_neg (by omega)]
    omega
  · refine ⟨399, by decide, by omega, ?_⟩
    rw [yearEnd, if_pos rfl]
    omega

/-! ## Months from March -/

/-- The length of a month, counted from March in the `y`-th year of an era. -/
def monthLength (y mp : Nat) : Nat :=
  match mp with
  | 1 | 3 | 6 | 8 => 30
  | 11 => if isLeapYear (y + 1) then 29 else 28
  | _ => 31

/-- The month of the year that is `mp` months after March. -/
def monthOf (mp : Nat) : Nat := if mp < 10 then mp + 3 else mp - 9

/-- An era, a year of it and a month, counted from March, and a day. -/
structure EraDay where
  era : Int
  year : Nat
  month : Nat
  day : Nat
  year_lt : year < 400
  month_lt : month < 12
  day_lt : day < monthLength year month

namespace EraDay

variable (e : EraDay)

/-- The day of the year, from March. -/
def ofYear : Nat := (153 * e.month + 2) / 5 + e.day

def toDays : Int := e.era * 146097 + (yearStart e.year + e.ofYear) - 719468

/-- The year of the calendar the day falls in, which begins in January. -/
def calendarYear : Int := e.year + e.era * 400 + if e.month < 10 then 0 else 1

theorem month_spec {mp d : Nat} (hmp : mp < 12) (hd : d < 31) (hfeb : mp = 11 → d < 29)
    (hshort : mp = 1 ∨ mp = 3 ∨ mp = 6 ∨ mp = 8 → d < 30) :
    (5 * ((153 * mp + 2) / 5 + d) + 2) / 153 = mp := by
  interval_cases mp <;> omega

theorem day_bounds : e.day < 31 ∧ (e.month = 11 → e.day < 29) ∧
    (e.month = 1 ∨ e.month = 3 ∨ e.month = 6 ∨ e.month = 8 → e.day < 30) := by
  obtain ⟨_, y, mp, d, _, hmp, hd⟩ := e
  have hfeb : monthLength y 11 ≤ 29 := by
    show (if isLeapYear (y + 1) then 29 else 28) ≤ 29
    split <;> decide
  dsimp only
  interval_cases mp
  case «11» => omega
  all_goals
    simp only [monthLength] at hd
    omega

theorem ofYear_le : (e.ofYear : Int) ≤ if isLeapYear (e.year + 1) then 365 else 364 := by
  have hday := e.day_lt
  have hmonth := e.month_lt
  obtain ⟨h31, h29, h30⟩ := e.day_bounds
  unfold ofYear
  by_cases h11 : e.month = 11
  · rw [h11] at hday ⊢
    simp only [monthLength] at hday
    split <;> simp_all <;> omega
  · split <;> omega

/-- The number of a day splits into its era and its place there. -/
theorem toDays_split : (e.toDays + 719468) / 146097 = e.era ∧
    yearOfEra (yearStart e.year + e.ofYear) = e.year := by
  obtain ⟨hyear, hstart, hera⟩ := yearOfEra_add e.year_lt (Int.natCast_nonneg _) e.ofYear_le
  refine ⟨?_, hyear⟩
  unfold toDays
  omega

theorem civilFromDays_toDays :
    civilFromDays e.toDays = (e.calendarYear, monthOf e.month, e.day + 1) := by
  obtain ⟨hera, hyear⟩ := e.toDays_split
  obtain ⟨h31, h29, h30⟩ := e.day_bounds
  have hmonth := month_spec e.month_lt h31 h29 h30
  have hlt := e.month_lt
  have hdoe : e.toDays + 719468 - e.era * 146097 = yearStart e.year + e.ofYear := by
    unfold toDays
    omega
  have hdoy : yearStart e.year + e.ofYear - (365 * (e.year : Int) + e.year / 4 - e.year / 100) =
      e.ofYear := by
    unfold yearStart
    omega
  have hmp : (5 * (e.ofYear : Int) + 2) / 153 = e.month := by
    unfold ofYear
    omega
  unfold yearOfEra at hyear
  simp only [civilFromDays, hera, hdoe, hyear, hdoy, hmp]
  refine Prod.ext ?_ (Prod.ext ?_ ?_)
  · simp only [calendarYear]
    split <;> split <;> omega
  · simp only [monthOf]
    split <;> split <;> omega
  · simp only [ofYear]
    omega

/-- Every day is a day of an era. -/
theorem exists_toDays (days : Int) : ∃ e : EraDay, e.toDays = days := by
  obtain ⟨y, hy, hstart, hend⟩ := exists_yearOfEra ((days + 719468) % 146097)
    (by omega) (by omega)
  have hlen := (yearOfEra_ends y hy).2.2.2.2
  obtain ⟨doy, hdoy⟩ := Int.eq_ofNat_of_zero_le (Int.sub_nonneg_of_le hstart)
  have hle : (doy : Int) ≤ if isLeapYear (y + 1) then 365 else 364 := by omega
  have hmp : (5 * doy + 2) / 153 < 12 := by split at hle <;> omega
  have hday : doy - (153 * ((5 * doy + 2) / 153) + 2) / 5 <
    monthLength y ((5 * doy + 2) / 153) := by
    generalize hm : (5 * doy + 2) / 153 = mp at hmp
    interval_cases mp
    case «11» =>
      simp only [monthLength]
      split at hle <;> simp_all <;> omega
    all_goals
      simp only [monthLength]
      omega
  refine ⟨⟨(days + 719468) / 146097, y, (5 * doy + 2) / 153, _, hy, hmp, hday⟩, ?_⟩
  simp only [toDays, ofYear]
  omega

end EraDay

/-! ## The calendar -/

theorem isLeapYear_shift (year era : Int) : isLeapYear (year + era * 400) = isLeapYear year := by
  simp only [isLeapYear]
  congr 1
  · congr 1
    omega
  · congr 2
    all_goals omega

theorem daysInMonth_monthOf {y mp : Nat} (era : Int) (hmp : mp < 12) :
    daysInMonth (y + era * 400 + if mp < 10 then 0 else 1) (monthOf mp) = monthLength y mp := by
  have hshift : (y : Int) + era * 400 + 1 = (y + 1) + era * 400 := by omega
  interval_cases mp
  case «11» =>
    show (if isLeapYear (y + era * 400 + 1) then 29 else 28) = if isLeapYear (y + 1) then 29 else 28
    rw [hshift, isLeapYear_shift]
  all_goals rfl

namespace EraDay

variable (e : EraDay)

theorem day_le : e.day + 1 ≤ daysInMonth e.calendarYear (monthOf e.month) := by
  rw [calendarYear, daysInMonth_monthOf e.era e.month_lt]
  exact e.day_lt

theorem monthOf_bounds : 1 ≤ monthOf e.month ∧ monthOf e.month ≤ 12 := by
  have hlt := e.month_lt
  unfold monthOf
  split <;> omega

theorem daysFromCivil_eq :
    daysFromCivil e.calendarYear (monthOf e.month) (e.day + 1) = e.toDays := by
  have hlt := e.month_lt
  have hyear := e.year_lt
  have hmarch : (if monthOf e.month ≤ 2 then e.calendarYear - 1 else e.calendarYear) =
      e.year + e.era * 400 := by
    unfold monthOf calendarYear
    split <;> split <;> omega
  have hera : ((e.year : Int) + e.era * 400) / 400 = e.era := by omega
  have hyoe : (e.year : Int) + e.era * 400 - e.era * 400 = e.year := by omega
  have hmp : ((monthOf e.month : Int) + 9) % 12 = e.month := by
    unfold monthOf
    split <;> omega
  simp only [daysFromCivil, hmarch, hera, hyoe, hmp]
  unfold toDays yearStart ofYear
  omega

/-- A date of the calendar is a day of an era. -/
theorem exists_calendar {year : Int} {month day : Nat} (hmonth : 1 ≤ month ∧ month ≤ 12)
    (hday : 1 ≤ day ∧ day ≤ daysInMonth year month) :
    ∃ e : EraDay, e.calendarYear = year ∧ monthOf e.month = month ∧ e.day + 1 = day := by
  obtain ⟨mp, hmp, rfl⟩ : ∃ mp < 12, monthOf mp = month := by
    refine ⟨(month + 9) % 12, by omega, ?_⟩
    unfold monthOf
    split <;> omega
  obtain ⟨y, era, hy, rfl⟩ : ∃ (y : Nat) (era : Int), y < 400 ∧
      (y + era * 400 + if mp < 10 then 0 else 1 : Int) = year := by
    refine ⟨((year - if mp < 10 then 0 else 1) % 400).toNat,
      (year - if mp < 10 then 0 else 1) / 400, by omega, by omega⟩
  rw [daysInMonth_monthOf era hmp] at hday
  exact ⟨⟨era, y, mp, day - 1, hy, hmp, by omega⟩, rfl, rfl, Nat.sub_add_cancel hday.1⟩

end EraDay

/-- Every date of the calendar is the date of its day number. -/
theorem civilFromDays_daysFromCivil {year : Int} {month day : Nat}
    (hmonth : 1 ≤ month ∧ month ≤ 12) (hday : 1 ≤ day ∧ day ≤ daysInMonth year month) :
    civilFromDays (daysFromCivil year month day) = (year, month, day) := by
  obtain ⟨e, rfl, rfl, rfl⟩ := EraDay.exists_calendar hmonth hday
  rw [e.daysFromCivil_eq, e.civilFromDays_toDays]

/-! ## Civil times -/

namespace NaiveDateTime

variable (n : NaiveDateTime)

theorem eq_days_add : n.secs = n.days * secsPerDay + n.secondOfDay := by
  simp only [days, secondOfDay, secsPerDay]
  omega

theorem month_bounds : 1 ≤ n.month ∧ n.month ≤ 12 := by
  obtain ⟨e, he⟩ := EraDay.exists_toDays n.days
  simp only [month, ← he, e.civilFromDays_toDays]
  exact e.monthOf_bounds

theorem day_bounds : 1 ≤ n.day ∧ n.day ≤ daysInMonth n.year n.month := by
  obtain ⟨e, he⟩ := EraDay.exists_toDays n.days
  simp only [day, year, month, ← he, e.civilFromDays_toDays]
  exact ⟨Nat.le_add_left 1 _, e.day_le⟩

theorem daysFromCivil_eq : daysFromCivil n.year n.month n.day = n.days := by
  obtain ⟨e, he⟩ := EraDay.exists_toDays n.days
  simp only [day, year, month, ← he, e.civilFromDays_toDays]
  exact e.daysFromCivil_eq

theorem secondOfDay_lt : n.secondOfDay < 86400 := by
  simp only [secondOfDay, secsPerDay]
  omega

/-- A civil time is the one its fields name. -/
theorem fromYmdHmsOpt_fields :
    fromYmdHmsOpt n.year n.month n.day n.hour n.minute n.second = some n := by
  obtain ⟨hmonth, hmonth'⟩ := n.month_bounds
  obtain ⟨hday, hday'⟩ := n.day_bounds
  have hlt := n.secondOfDay_lt
  have hsecs : n.hour * 3600 + n.minute * 60 + n.second = n.secondOfDay := by
    simp only [hour, minute, second]
    omega
  have hhour : n.hour < 24 := by
    simp only [hour]
    omega
  have hminute : n.minute < 60 := by
    simp only [minute]
    omega
  have hsecond : n.second < 60 := Nat.mod_lt _ (by decide)
  rw [fromYmdHmsOpt, if_pos ⟨hmonth, hmonth', hday, hday', hhour, hminute, hsecond⟩,
    n.daysFromCivil_eq, hsecs, ← n.eq_days_add]

/-- The fields of a civil time are the ones that name it. -/
theorem fields_of_fromYmdHmsOpt {year : Int} {month day hour minute second : Nat}
    (h : fromYmdHmsOpt year month day hour minute second = some n) :
    n.year = year ∧ n.month = month ∧ n.day = day ∧ n.hour = hour ∧ n.minute = minute ∧
      n.second = second := by
  unfold fromYmdHmsOpt at h
  split at h
  case isFalse => cases h
  case isTrue hvalid =>
    obtain ⟨hmonth, hmonth', hday, hday', hhour, hminute, hsecond⟩ := hvalid
    cases h
    have hcivil := civilFromDays_daysFromCivil ⟨hmonth, hmonth'⟩ ⟨hday, hday'⟩
    have hdays : NaiveDateTime.days ⟨daysFromCivil year month day * secsPerDay +
        (hour * 3600 + minute * 60 + second : Nat)⟩ = daysFromCivil year month day := by
      simp only [days, secsPerDay]
      omega
    have hsecs : NaiveDateTime.secondOfDay ⟨daysFromCivil year month day * secsPerDay +
        (hour * 3600 + minute * 60 + second : Nat)⟩ = hour * 3600 + minute * 60 + second := by
      simp only [secondOfDay, secsPerDay]
      omega
    simp only [NaiveDateTime.year, NaiveDateTime.month, NaiveDateTime.day, NaiveDateTime.hour,
      NaiveDateTime.minute, NaiveDateTime.second, hdays, hsecs, hcivil, true_and]
    omega

end NaiveDateTime

end Btwattch2
