/-
# `Lib.Gregorian` — day numbers and civil dates

A day is an integer: the number of days since 1 January 1970.  A civil date
is a year, a month and a day of the proleptic Gregorian calendar.  The two
are connected by

    dayNumber y m d   the day of a civil date      (d may overflow the month)
    dateOf n          the civil date of a day

and the main results say that these are inverse to each other:

    dayNumber_dateOf   the day number of `dateOf n` is `n`
    dateOf_valid       `dateOf n` is a valid date
    dateOf_dayNumber   `dateOf` of the day number of a valid date is that date

so every day has exactly one valid date.  A year is found in
the 400-year cycle (146097 days) by the greedy split into centuries, leap
cycles and years; `yearStart_cycle` is the arithmetic behind it.  Months are
found by the linear formula `(367 m - 362) / 12`, corrected by one or two
days from March on.
-/
import Mathlib.Tactic.IntervalCases

namespace CalendarApp.Lib

/-! ## Years -/

/-- Leap years of the Gregorian rule. -/
def isLeap (y : Int) : Bool :=
  y % 4 = 0 && (y % 100 ≠ 0 || y % 400 = 0)

/-- The day number of 1 January of year `y`. -/
def yearStart (y : Int) : Int :=
  365 * (y - 1) + (y - 1) / 4 - (y - 1) / 100 + (y - 1) / 400 - 719162

/-- The number of days of a year. -/
def yearLength (leap : Bool) : Int := if leap then 366 else 365

theorem isLeap_iff (y : Int) :
    isLeap y = true ↔ y % 4 = 0 ∧ (y % 100 ≠ 0 ∨ y % 400 = 0) := by
  simp [isLeap]

theorem yearStart_succ (y : Int) :
    yearStart (y + 1) = yearStart y + yearLength (isLeap y) := by
  have hleap := isLeap_iff y
  simp only [yearStart, yearLength]
  cases h : isLeap y with
  | true =>
      rw [h] at hleap
      have hy := hleap.mp rfl
      simp only [if_true]
      omega
  | false =>
      rw [h] at hleap
      have hy : ¬ (y % 4 = 0 ∧ (y % 100 ≠ 0 ∨ y % 400 = 0)) := fun hc =>
        Bool.noConfusion (hleap.mpr hc)
      simp only [Bool.false_eq_true, if_false]
      omega

theorem yearStart_mono {y y' : Int} (h : y ≤ y') : yearStart y ≤ yearStart y' := by
  simp only [yearStart]
  omega

/-- 1 January, by the position of the year in the 400-year cycle. -/
theorem yearStart_cycle {a b c d : Int} (hb : 0 ≤ b ∧ b ≤ 3) (hc : 0 ≤ c ∧ c ≤ 24)
    (hd : 0 ≤ d ∧ d ≤ 3) :
    yearStart (400 * a + 100 * b + 4 * c + d + 1) =
      146097 * a + 36524 * b + 1461 * c + 365 * d - 719162 := by
  have h4 : (400 * a + 100 * b + 4 * c + d) / 4 = 100 * a + 25 * b + c := by omega
  have h100 : (400 * a + 100 * b + 4 * c + d) / 100 = 4 * a + b := by omega
  have h400 : (400 * a + 100 * b + 4 * c + d) / 400 = a := by omega
  rw [yearStart, Int.add_sub_cancel, h4, h100, h400]
  omega

/-- The year a day falls in: greedy over centuries, leap cycles and years.
The last day of a leap year is the one the greedy split overshoots. -/
def yearOf (n : Int) : Int :=
  let d0 := n + 719162
  let n400 := d0 / 146097
  let d1 := d0 % 146097
  let n100 := d1 / 36524
  let d2 := d1 % 36524
  let n4 := d2 / 1461
  let d3 := d2 % 1461
  let n1 := d3 / 365
  let y := 400 * n400 + 100 * n100 + 4 * n4 + n1
  if n100 = 4 ∨ n1 = 4 then y else y + 1

theorem yearOf_spec (n : Int) :
    yearStart (yearOf n) ≤ n ∧ n < yearStart (yearOf n + 1) := by
  simp only [yearOf]
  generalize ha : (n + 719162) / 146097 = a
  generalize hr : (n + 719162) % 146097 = r
  generalize hb : r / 36524 = b
  generalize hs : r % 36524 = s
  generalize hc : s / 1461 = c
  generalize ht : s % 1461 = t
  generalize hd : t / 365 = d
  have hn : n = 146097 * a + r - 719162 := by omega
  split
  · next h =>
      -- the last day of a leap year: of the 400-year cycle, or of a 4-year one
      rcases h with h | h
      · have hlast := @yearStart_cycle a 3 24 3 (by omega) (by omega) (by omega)
        have hnext := @yearStart_cycle (a + 1) 0 0 0 (by omega) (by omega) (by omega)
        have e₁ : 400 * a + 100 * b + 4 * c + d = 400 * a + 100 * 3 + 4 * 24 + 3 + 1 := by
          omega
        have e₂ : 400 * a + 100 * 3 + 4 * 24 + 3 + 1 + 1
            = 400 * (a + 1) + 100 * 0 + 4 * 0 + 0 + 1 := by omega
        rw [e₁, e₂, hlast, hnext]
        omega
      · have hlast := @yearStart_cycle a b c 3 (by omega) (by omega) (by omega)
        have e₁ : 400 * a + 100 * b + 4 * c + d = 400 * a + 100 * b + 4 * c + 3 + 1 := by
          omega
        have hsucc := yearStart_succ (400 * a + 100 * b + 4 * c + 3 + 1)
        have hleap : isLeap (400 * a + 100 * b + 4 * c + 3 + 1) = true := by
          rw [isLeap_iff]; omega
        rw [e₁, hsucc, hlast, hleap]
        simp only [yearLength, if_true]
        omega
  · next h =>
      have hthis := @yearStart_cycle a b c d (by omega) (by omega) (by omega)
      have hsucc := yearStart_succ (400 * a + 100 * b + 4 * c + d + 1)
      rw [hsucc, hthis]
      have hlen : 365 ≤ yearLength (isLeap (400 * a + 100 * b + 4 * c + d + 1)) := by
        rw [yearLength]
        split <;> omega
      omega

theorem yearStart_le_iff {n y : Int} : yearStart y ≤ n ↔ y ≤ yearOf n := by
  obtain ⟨hle, hlt⟩ := yearOf_spec n
  constructor
  · intro h
    by_contra hy
    have hnext : yearStart (yearOf n + 1) ≤ yearStart y := yearStart_mono (by omega)
    omega
  · intro h
    exact (yearStart_mono h).trans hle

theorem yearOf_unique {n y : Int} (h₁ : yearStart y ≤ n) (h₂ : n < yearStart (y + 1)) :
    yearOf n = y := by
  obtain ⟨h₃, h₄⟩ := yearOf_spec n
  rcases lt_trichotomy (yearOf n) y with h | h | h
  · have := yearStart_mono (show yearOf n + 1 ≤ y by omega)
    omega
  · exact h
  · have := yearStart_mono (show y + 1 ≤ yearOf n by omega)
    omega

/-! ## Months -/

/-- The days of the year before month `m`; `m = 13` gives the whole year. -/
def daysBefore (leap : Bool) (m : Int) : Int :=
  (367 * m - 362) / 12 + if m ≤ 2 then 0 else if leap then -1 else -2

/-- The number of days of a month. -/
def monthLength (leap : Bool) (m : Int) : Int :=
  daysBefore leap (m + 1) - daysBefore leap m

/-- The month of the `p`-th day of a year, counted from 0. -/
def monthAt (leap : Bool) (p : Int) : Int :=
  (12 * (p + if p < yearLength leap - 306 then 0 else if leap then 1 else 2) + 373) / 367

theorem daysBefore_first (leap : Bool) : daysBefore leap 1 = 0 := by
  cases leap <;> rfl

theorem daysBefore_last (leap : Bool) : daysBefore leap 13 = yearLength leap := by
  cases leap <;> rfl

theorem monthAt_range {leap : Bool} {p : Int} (h₀ : 0 ≤ p) (h₁ : p < yearLength leap) :
    1 ≤ monthAt leap p ∧ monthAt leap p ≤ 12 := by
  simp only [monthAt, yearLength] at *
  cases leap <;> simp only [if_true, Bool.false_eq_true, if_false] at * <;>
    split <;> omega

theorem monthAt_spec {leap : Bool} {p : Int} (h₀ : 0 ≤ p) (h₁ : p < yearLength leap) :
    daysBefore leap (monthAt leap p) ≤ p ∧ p < daysBefore leap (monthAt leap p + 1) := by
  obtain ⟨hm₁, hm₁₂⟩ := monthAt_range h₀ h₁
  have hm : monthAt leap p = monthAt leap p := rfl
  conv_lhs at hm => rw [monthAt]
  generalize monthAt leap p = m at *
  simp only [daysBefore, yearLength] at *
  cases leap <;> simp only [if_true, Bool.false_eq_true, if_false] at * <;>
    split at hm <;> interval_cases m <;> simp only [Int.reduceMul, Int.reduceSub,
      Int.reduceDiv, Int.reduceAdd, Int.reduceLE, if_true, if_false] <;> omega

theorem daysBefore_mono {leap : Bool} {m m' : Int} (h₁ : 1 ≤ m) (h : m ≤ m') :
    daysBefore leap m ≤ daysBefore leap m' := by
  simp only [daysBefore]
  cases leap <;> simp only [if_true, Bool.false_eq_true, if_false] <;>
    split <;> split <;> omega

theorem monthAt_unique {leap : Bool} {p m : Int} (hm₁ : 1 ≤ m) (hm₂ : m ≤ 12)
    (h₁ : daysBefore leap m ≤ p) (h₂ : p < daysBefore leap (m + 1)) :
    monthAt leap p = m := by
  have h₀ : 0 ≤ p := by
    have := @daysBefore_mono leap _ _ (le_refl 1) hm₁
    rw [daysBefore_first] at this
    omega
  have hlen : p < yearLength leap := by
    have := @daysBefore_mono leap _ _ (show (1 : Int) ≤ m + 1 by omega)
      (show m + 1 ≤ 13 by omega)
    rw [daysBefore_last] at this
    omega
  obtain ⟨h₃, h₄⟩ := monthAt_spec h₀ hlen
  obtain ⟨h₅, h₆⟩ := monthAt_range h₀ hlen
  rcases lt_trichotomy (monthAt leap p) m with h | h | h
  · have := @daysBefore_mono leap _ _ (show 1 ≤ monthAt leap p + 1 by omega)
      (show monthAt leap p + 1 ≤ m by omega)
    omega
  · exact h
  · have := @daysBefore_mono leap _ _ (show 1 ≤ m + 1 by omega)
      (show m + 1 ≤ monthAt leap p by omega)
    omega

/-! ## Civil dates -/

/-- A year, a month and a day of the month. -/
structure Date where
  year : Int
  month : Int
  day : Int
  deriving DecidableEq, Repr

/-- The dates the calendar has. -/
def Date.Valid (d : Date) : Prop :=
  1 ≤ d.month ∧ d.month ≤ 12 ∧ 1 ≤ d.day ∧ d.day ≤ monthLength (isLeap d.year) d.month

instance (d : Date) : Decidable d.Valid :=
  inferInstanceAs (Decidable (_ ∧ _ ∧ _ ∧ _))

/-- The day number of year `y`, month `m` (1 to 12), day `d`.  A `d` outside
the month counts on into the neighbouring months. -/
def dayNumber (y m d : Int) : Int :=
  yearStart y + daysBefore (isLeap y) m + (d - 1)

/-- The day of a date. -/
def Date.number (d : Date) : Int := dayNumber d.year d.month d.day

/-- `dayNumber` with any month: months count on into the neighbouring years. -/
def rolledDay (y m d : Int) : Int :=
  dayNumber (y + (m - 1) / 12) ((m - 1) % 12 + 1) d

theorem rolledDay_eq {y m d : Int} (h₁ : 1 ≤ m) (h₂ : m ≤ 12) :
    rolledDay y m d = dayNumber y m d := by
  have hy : y + (m - 1) / 12 = y := by omega
  have hm : (m - 1) % 12 + 1 = m := by omega
  rw [rolledDay, hy, hm]

/-- The civil date of a day. -/
def dateOf (n : Int) : Date :=
  let y := yearOf n
  let m := monthAt (isLeap y) (n - yearStart y)
  ⟨y, m, n - yearStart y - daysBefore (isLeap y) m + 1⟩

theorem dayOfYear_range (n : Int) :
    0 ≤ n - yearStart (yearOf n) ∧
      n - yearStart (yearOf n) < yearLength (isLeap (yearOf n)) := by
  have h := yearOf_spec n
  rw [yearStart_succ] at h
  omega

theorem dayNumber_dateOf (n : Int) :
    dayNumber (dateOf n).year (dateOf n).month (dateOf n).day = n := by
  simp only [dayNumber, dateOf]
  omega

theorem dateOf_valid (n : Int) : (dateOf n).Valid := by
  obtain ⟨h₀, h₁⟩ := dayOfYear_range n
  obtain ⟨hm₁, hm₂⟩ := monthAt_range h₀ h₁
  obtain ⟨hd₁, hd₂⟩ := monthAt_spec h₀ h₁
  refine ⟨hm₁, hm₂, ?_, ?_⟩ <;> simp only [dateOf, monthLength] <;> omega

theorem dateOf_dayNumber {d : Date} (h : d.Valid) :
    dateOf (dayNumber d.year d.month d.day) = d := by
  obtain ⟨hm₁, hm₂, hd₁, hd₂⟩ := h
  rw [monthLength] at hd₂
  have hfirst := @daysBefore_mono (isLeap d.year) _ _ (le_refl 1) hm₁
  have hlast := @daysBefore_mono (isLeap d.year) _ _
    (show (1 : Int) ≤ d.month + 1 by omega) (show d.month + 1 ≤ 13 by omega)
  rw [daysBefore_first] at hfirst
  rw [daysBefore_last] at hlast
  have hy : yearOf (dayNumber d.year d.month d.day) = d.year := by
    apply yearOf_unique
    · rw [dayNumber]
      omega
    · rw [yearStart_succ, dayNumber]
      omega
  have hp : dayNumber d.year d.month d.day - yearStart d.year
      = daysBefore (isLeap d.year) d.month + (d.day - 1) := by
    rw [dayNumber]
    omega
  have hm : monthAt (isLeap d.year) (daysBefore (isLeap d.year) d.month + (d.day - 1))
      = d.month := monthAt_unique hm₁ hm₂ (by omega) (by omega)
  simp only [dateOf, hy, hp, hm]
  have hday : daysBefore (isLeap d.year) d.month + (d.day - 1)
      - daysBefore (isLeap d.year) d.month + 1 = d.day := by omega
  rw [hday]

theorem rolledDay_dateOf (n : Int) :
    rolledDay (dateOf n).year (dateOf n).month (dateOf n).day = n := by
  obtain ⟨h₁, h₂, -, -⟩ := dateOf_valid n
  rw [rolledDay_eq h₁ h₂, dayNumber_dateOf]

/-! ## Months by length -/

theorem monthLength_range {leap : Bool} {m : Int} (h₁ : 1 ≤ m) (h₂ : m ≤ 12) :
    28 ≤ monthLength leap m ∧ monthLength leap m ≤ 31 := by
  simp only [monthLength, daysBefore]
  cases leap <;> interval_cases m <;> decide

theorem monthLength_december (leap : Bool) : monthLength leap 12 = 31 := by
  cases leap <;> rfl

theorem monthLength_march (leap : Bool) : monthLength leap 3 = 31 := by
  cases leap <;> rfl

theorem monthLength_eq (leap leap' : Bool) {m : Int} (h₁ : 1 ≤ m) (h₂ : m ≤ 12) (hm : m ≠ 2) :
    monthLength leap m = monthLength leap' m := by
  simp only [monthLength, daysBefore]
  cases leap <;> cases leap' <;> interval_cases m <;> first | rfl | exact absurd rfl hm

/-- A date whose day may lie past the end of its month. -/
def rolledDate (y m d : Int) : Date := dateOf (rolledDay y m d)

theorem rolledDate_of_le {y m d : Int} (h₁ : 1 ≤ m) (h₂ : m ≤ 12) (hd : 1 ≤ d)
    (hlen : d ≤ monthLength (isLeap y) m) : rolledDate y m d = ⟨y, m, d⟩ := by
  rw [rolledDate, rolledDay_eq h₁ h₂]
  exact dateOf_dayNumber (d := ⟨y, m, d⟩) ⟨h₁, h₂, hd, hlen⟩

theorem rolledDate_of_gt {y m d : Int} (h₁ : 1 ≤ m) (h₂ : m ≤ 12) (hd : d ≤ 31)
    (hlen : monthLength (isLeap y) m < d) :
    rolledDate y m d = ⟨y, m + 1, d - monthLength (isLeap y) m⟩ := by
  have hm : m ≠ 12 := by
    rintro rfl
    rw [monthLength_december] at hlen
    omega
  have hrange := @monthLength_range (isLeap y) m h₁ h₂
  have hnext := @monthLength_range (isLeap y) (m + 1) (by omega) (by omega)
  have hday : dayNumber y m d = dayNumber y (m + 1) (d - monthLength (isLeap y) m) := by
    simp only [dayNumber, monthLength]
    omega
  rw [rolledDate, rolledDay_eq h₁ h₂, hday]
  exact dateOf_dayNumber (d := ⟨y, m + 1, d - monthLength (isLeap y) m⟩)
    ⟨by show 1 ≤ m + 1; omega, by show m + 1 ≤ 12; omega,
      by show 1 ≤ d - monthLength (isLeap y) m; omega,
      by show d - monthLength (isLeap y) m ≤ monthLength (isLeap y) (m + 1); omega⟩

/-! ## The days of a month -/

theorem rolledDay_first {y m : Int} (h₁ : 1 ≤ m) (h₂ : m ≤ 12) :
    rolledDay y m 1 = yearStart y + daysBefore (isLeap y) m := by
  rw [rolledDay_eq h₁ h₂, dayNumber]
  omega

theorem rolledDay_last {y m : Int} (h₁ : 1 ≤ m) (h₂ : m ≤ 12) :
    rolledDay y (m + 1) 0 = yearStart y + daysBefore (isLeap y) (m + 1) - 1 := by
  rcases Int.lt_or_eq_of_le h₂ with hlt | rfl
  · rw [rolledDay_eq (by omega) (by omega), dayNumber]
    omega
  · have hy : y + (12 + 1 - 1) / 12 = y + 1 := by omega
    have hm : ((12 : Int) + 1 - 1) % 12 + 1 = 1 := rfl
    have hnext := yearStart_succ y
    have hlast := daysBefore_last (isLeap y)
    have hfirst := daysBefore_first (isLeap (y + 1))
    rw [rolledDay, hy, hm, dayNumber, hfirst]
    show yearStart (y + 1) + 0 + (0 - 1) = yearStart y + daysBefore (isLeap y) 13 - 1
    omega

/-- The dates of a month are those of the days from its first to its last. -/
theorem dateOf_month_iff {y m n : Int} (h₁ : 1 ≤ m) (h₂ : m ≤ 12) :
    (dateOf n).year = y ∧ (dateOf n).month = m ↔
      rolledDay y m 1 ≤ n ∧ n ≤ rolledDay y (m + 1) 0 := by
  rw [rolledDay_first h₁ h₂, rolledDay_last h₁ h₂]
  constructor
  · rintro ⟨rfl, rfl⟩
    obtain ⟨-, -, hd₁, hd₂⟩ := dateOf_valid n
    have hn := dayNumber_dateOf n
    rw [dayNumber] at hn
    rw [monthLength] at hd₂
    omega
  · rintro ⟨hfirst, hlast⟩
    have hvalid : (⟨y, m, n - yearStart y - daysBefore (isLeap y) m + 1⟩ : Date).Valid := by
      refine ⟨h₁, h₂, ?_, ?_⟩ <;> simp only [monthLength] <;> omega
    have hday : dayNumber y m (n - yearStart y - daysBefore (isLeap y) m + 1) = n := by
      rw [dayNumber]
      omega
    have hdate := dateOf_dayNumber hvalid
    rw [hday] at hdate
    rw [hdate]
    exact ⟨rfl, rfl⟩

/-- The first day of a month, by the number of months since January of year 0. -/
def monthStart (n : Int) : Int := rolledDay 0 (n + 1) 1

theorem rolledDay_monthStart (y m : Int) : rolledDay y m 1 = monthStart (y * 12 + (m - 1)) := by
  have hyear : 0 + (y * 12 + (m - 1) + 1 - 1) / 12 = y + (m - 1) / 12 := by omega
  have hmonth : (y * 12 + (m - 1) + 1 - 1) % 12 = (m - 1) % 12 := by omega
  rw [monthStart, rolledDay, rolledDay, hyear, hmonth]

theorem rolledDay_zero (y m : Int) : rolledDay y m 0 = rolledDay y m 1 - 1 := by
  simp only [rolledDay, dayNumber]
  omega

theorem monthStart_eq (m : Int) : monthStart m = rolledDay (m / 12) (m % 12 + 1) 1 ∧
    monthStart (m + 1) = rolledDay (m / 12) (m % 12 + 1 + 1) 0 + 1 := by
  rw [rolledDay_zero, rolledDay_monthStart, rolledDay_monthStart, Int.sub_add_cancel]
  constructor <;> congr 1 <;> omega

theorem dateOf_monthStart_iff {m n : Int} :
    (dateOf n).year * 12 + ((dateOf n).month - 1) = m ↔
      monthStart m ≤ n ∧ n < monthStart (m + 1) := by
  obtain ⟨hfirst, hnext⟩ := monthStart_eq m
  have hmonth := @dateOf_month_iff (m / 12) (m % 12 + 1) n (by omega) (by omega)
  obtain ⟨h₁, h₂, -, -⟩ := dateOf_valid n
  rw [hfirst, hnext, Int.lt_add_one_iff, ← hmonth]
  omega

theorem monthStart_succ (m : Int) : monthStart m + 28 ≤ monthStart (m + 1) := by
  have hlength := @monthLength_range (isLeap (m / 12)) (m % 12 + 1) (by omega) (by omega)
  obtain ⟨hfirst, hnext⟩ := monthStart_eq m
  rw [hfirst, hnext, rolledDay_first (by omega) (by omega), rolledDay_last (by omega) (by omega)]
  rw [monthLength] at hlength
  omega

/-! ## Weeks -/

/-- The day of the week, from 1 for Monday to 7 for Sunday; day 0 is a
Thursday. -/
def weekday (n : Int) : Int := (n + 3) % 7 + 1

theorem weekday_range (n : Int) : 1 ≤ weekday n ∧ weekday n ≤ 7 := by
  rw [weekday]
  omega

theorem weekday_of_monday {n : Int} (h : weekday n = 1) (i : Int) :
    weekday (n + i) = i % 7 + 1 := by
  simp only [weekday] at *
  omega

/-- The Monday of the week of a day. -/
theorem weekday_monday (n : Int) : weekday (n - (weekday n - 1)) = 1 := by
  simp only [weekday]
  omega

theorem dayNumber_from_march {y m d : Int} (h : 2 < m) :
    dayNumber y m d = yearStart (y + 1) - 367 + (367 * m - 362) / 12 + (d - 1) := by
  rw [dayNumber, yearStart_succ, daysBefore, yearLength, if_neg (not_le.mpr h)]
  cases isLeap y with
  | true => simp only [if_true]; omega
  | false => simp only [Bool.false_eq_true, if_false]; omega

theorem yearStart_near {y n : Int} (h₀ : 0 ≤ n) (h₁ : n ≤ 4) :
    365 * n ≤ yearStart (y + n) - yearStart y ∧
      yearStart (y + n) - yearStart y ≤ 365 * n + 1 := by
  simp only [yearStart]
  interval_cases n <;> omega

/-- The same day of the same month falls on the same day of the week in years
that are less than five years apart only if the years are the same. -/
theorem year_eq_of_weekday {y n m d : Int} (h₀ : 0 ≤ n) (h₁ : n ≤ 4)
    (h : weekday (dayNumber (y + n) m d) = weekday (dayNumber y m d)) : n = 0 := by
  simp only [weekday] at h
  by_cases hm : m ≤ 2
  · simp only [dayNumber, daysBefore, if_pos hm] at h
    have hnear := @yearStart_near y n h₀ h₁
    interval_cases n <;> omega
  · rw [dayNumber_from_march (not_le.mp hm), dayNumber_from_march (not_le.mp hm)] at h
    have hnear := @yearStart_near (y + 1) n h₀ h₁
    rw [Int.add_right_comm] at hnear
    interval_cases n <;> omega

/-- 29 February 2020, and the last day of a 400-year cycle. -/
example : dateOf 18321 = ⟨2020, 2, 29⟩ ∧ dateOf 10956 = ⟨1999, 12, 31⟩ := by decide

end CalendarApp.Lib
