/-
# `Lib.Zone` — instants, time zones and local dates

An instant is an integer, in milliseconds since the epoch.  A time zone is
a rule that gives the UTC offset in force at every instant, together with
the choice a library makes when it is asked for the instant of a wall-clock
reading (`resolve`): after a clock change a reading may belong to two
instants, or to none.  Two things are assumed of the choice.

    resolve_wall   a reading that occurs is resolved to an instant that has it
    resolve_day    days that occur have different midnights

Nothing is assumed of the offsets, so every daylight-saving rule is a zone.
A constant offset is the zone `fixed k`, for which everything below is
arithmetic modulo a day.
-/
import CalendarApp.Lib.Gregorian

namespace CalendarApp.Lib

/-- A time zone rule and its resolution of wall-clock readings. -/
structure Zone where
  offset : Int → Int
  resolve : Int → Int
  resolve_wall : ∀ t, resolve (t + offset t) + offset (resolve (t + offset t)) = t + offset t
  resolve_day : ∀ t t',
    resolve ((t + offset t) / 86400000 * 86400000) =
        resolve ((t' + offset t') / 86400000 * 86400000) →
      (t + offset t) / 86400000 = (t' + offset t') / 86400000

namespace Zone

variable (z : Zone)

/-- The wall-clock reading at an instant, in milliseconds. -/
def wall (t : Int) : Int := t + z.offset t

/-- The local day an instant falls on. -/
def day (t : Int) : Int := z.wall t / 86400000

/-- Milliseconds on the wall clock since the start of the local day. -/
def clock (t : Int) : Int := z.wall t % 86400000

def hour (t : Int) : Int := z.clock t / 3600000

def minute (t : Int) : Int := z.clock t % 3600000 / 60000

/-- The local date of an instant. -/
def date (t : Int) : Date := dateOf (z.day t)

/-- The instant of the start of day `n`. -/
def midnight (n : Int) : Int := z.resolve (n * 86400000)

/-- The instant of 0:00 on a civil date whose fields may overflow. -/
def dateTime (y m d : Int) : Int := z.midnight (rolledDay y m d)

/-- An instant that reads 0:00 and is the one chosen for that reading. -/
def IsMidnight (t : Int) : Prop := z.clock t = 0 ∧ z.midnight (z.day t) = t

instance (t : Int) : Decidable (z.IsMidnight t) :=
  inferInstanceAs (Decidable (_ ∧ _))

theorem wall_eq (t : Int) : z.wall t = z.day t * 86400000 + z.clock t := by
  simp only [day, clock]
  omega

theorem clock_range (t : Int) : 0 ≤ z.clock t ∧ z.clock t < 86400000 := by
  simp only [clock]
  omega

theorem hour_range (t : Int) : 0 ≤ z.hour t ∧ z.hour t < 24 := by
  have hclock := z.clock_range t
  simp only [hour]
  omega

theorem minute_range (t : Int) : 0 ≤ z.minute t ∧ z.minute t < 60 := by
  have hclock := z.clock_range t
  simp only [minute]
  omega

theorem day_unique {t n c : Int} (h : z.wall t = n * 86400000 + c) (h₀ : 0 ≤ c)
    (h₁ : c < 86400000) : z.day t = n ∧ z.clock t = c := by
  simp only [day, clock]
  omega

/-- A reading of 0:00 that occurs makes a midnight. -/
theorem isMidnight_of_wall {t n : Int} (h : z.wall t = n * 86400000) :
    z.IsMidnight (z.midnight n) := by
  have hres := z.resolve_wall t
  change z.resolve (z.wall t) + z.offset (z.resolve (z.wall t)) = z.wall t at hres
  rw [h] at hres
  have hwall : z.wall (z.midnight n) = n * 86400000 + 0 := by
    rw [Int.add_zero]; exact hres
  obtain ⟨hday, hclock⟩ := z.day_unique hwall (le_refl 0) (by omega)
  exact ⟨hclock, by rw [hday]⟩

theorem midnight_inj {t t' : Int} (h : z.midnight (z.day t) = z.midnight (z.day t')) :
    z.day t = z.day t' :=
  z.resolve_day t t' h

theorem dateTime_date (t : Int) :
    z.dateTime (z.date t).year (z.date t).month (z.date t).day = z.midnight (z.day t) :=
  congrArg z.midnight (rolledDay_dateOf (z.day t))

/-- No local day is skipped: the instant built for a day lies on it. -/
def EveryDay : Prop := ∀ n, z.day (z.midnight n) = n

/-! ## A constant offset -/

/-- The zone whose clocks are always `k` milliseconds ahead. -/
def fixed (k : Int) : Zone where
  offset _ := k
  resolve w := w - k
  resolve_wall t := by omega
  resolve_day t t' h := by omega

@[simp] theorem fixed_wall (k t : Int) : (fixed k).wall t = t + k := rfl

@[simp] theorem fixed_midnight (k n : Int) : (fixed k).midnight n = n * 86400000 - k := rfl

theorem fixed_day (k t : Int) : (fixed k).day t = (t + k) / 86400000 := rfl

theorem fixed_clock (k t : Int) : (fixed k).clock t = (t + k) % 86400000 := rfl

theorem fixed_isMidnight (k n : Int) : (fixed k).IsMidnight ((fixed k).midnight n) :=
  (fixed k).isMidnight_of_wall (t := n * 86400000 - k) (by rw [fixed_wall]; omega)

theorem fixed_everyDay (k : Int) : (fixed k).EveryDay := fun n => by
  rw [fixed_day, fixed_midnight]
  omega

/-- The days whose midnight lies in `[a, b]` are the days from the one of `s`
to the one of `e`, at least one day, exactly when a midnight lies in `[a, s]`
and none in `(b, e]`, and the two days are in order.  Here `a` is less than a
day before `s`, and `b` is not after `e`. -/
theorem fixed_span_iff (k : Int) {a s b e : Int} (has : a ≤ s) (hsa : s < a + 86400000)
    (hbe : b ≤ e) :
    ((∀ n, (a ≤ (fixed k).midnight n ∧ (fixed k).midnight n ≤ b) ↔
        (fixed k).day s ≤ n ∧ n ≤ (fixed k).day e) ∧
      ∃ n, a ≤ (fixed k).midnight n ∧ (fixed k).midnight n ≤ b) ↔
      (fixed k).day s ≤ (fixed k).day e ∧
        (∃ n, a ≤ (fixed k).midnight n ∧ (fixed k).midnight n ≤ s) ∧
        ¬ ∃ n, b < (fixed k).midnight n ∧ (fixed k).midnight n ≤ e := by
  simp only [fixed_midnight, fixed_day]
  constructor
  · rintro ⟨h, n₀, hn₀⟩
    obtain ⟨hsn₀, hn₀e⟩ := (h n₀).mp hn₀
    have hse : (s + k) / 86400000 ≤ (e + k) / 86400000 := hsn₀.trans hn₀e
    have hfirst := (h ((s + k) / 86400000)).mpr ⟨le_refl _, hse⟩
    have hlast := (h ((e + k) / 86400000)).mpr ⟨hse, le_refl _⟩
    refine ⟨hse, ⟨(s + k) / 86400000, hfirst.1, by omega⟩, ?_⟩
    rintro ⟨n, hbn, hne⟩
    omega
  · rintro ⟨hse, ⟨m, ham, hms⟩, hnone⟩
    have hlast : ¬ b < (e + k) / 86400000 * 86400000 - k := fun hc =>
      hnone ⟨(e + k) / 86400000, hc, by omega⟩
    refine ⟨fun n => ?_, (e + k) / 86400000, by omega, by omega⟩
    constructor
    · rintro ⟨han, hnb⟩
      omega
    · rintro ⟨hsn, hne⟩
      omega

/-! ## One clock change -/

/-- The zone whose clocks agree with UTC up to the instant `T` and are one
hour ahead from then on.  A reading in the skipped hour is taken as if the
change had already happened. -/
def summer (T : Int) : Zone where
  offset t := if t < T then 0 else 3600000
  resolve w := if w < T then w else w - 3600000
  resolve_wall t := by
    split
    · next h =>
        rw [Int.add_zero, if_pos h, if_pos h, Int.add_zero]
    · next h =>
        have hw : ¬ t + 3600000 < T := by omega
        have hr : ¬ t + 3600000 - 3600000 < T := by omega
        simp only [if_neg hw, if_neg hr]
        omega
  resolve_day t t' h := by
    revert h
    split <;> split <;> split <;> split <;> omega

end Zone

end CalendarApp.Lib
