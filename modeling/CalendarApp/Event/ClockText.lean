/-
# `Event.ClockText` — the text of a clock time, `timeParser`

main.dart writes a clock time as

    hour of the 12-hour clock : two digits of the minute AM or PM

and three screens of the chat have formatters of their own in the same layout,
with another hour.  The layout is one definition, `clockText`; what it is given
can be read off the text (`clockText_inj`), so a time that a clock can show is
known from its `timeParser` text (`timeParser_inj`).  The constructor and the
wheels of the editor also make hours that no clock shows; of these only 24 has
the text of another one, of 12 (`timeParser_iff`).
-/
import Mathlib
import CalendarApp.Event.Modal
import CalendarApp.Lib.Lists

namespace CalendarApp

open Lib

/-- `minute < 10 ? '0' + minute.toString() : minute.toString()` -/
def minutestr (minute : Int) : String :=
  if minute < 10 then "0" ++ toString minute else toString minute

/-- `hour > 11 ? 'PM' : 'AM'` -/
def apmstr (hour : Int) : String := if hour > 11 then "PM" else "AM"

/-- `hourstr + ':' + minutestr + ' ' + apm`, where `shown` is the hour in
`hourstr`. -/
def clockText (shown hour minute : Int) : String :=
  toString shown ++ (":" ++ (minutestr minute ++ (" " ++ apmstr hour)))

/-- The hour that `timeParser` shows. -/
def hour12 (hour : Int) : Int :=
  if hour < 12 then (if hour = 0 then 12 else hour) else (if hour = 12 then 12 else hour - 12)

/-- `timeParser`. -/
def timeParser (t : TimeOfDay) : String := clockText (hour12 t.hour) t.hour t.minute

/-! ## Reading the text -/

theorem notMem_numeral {c : Char} (hc : c.isDigit = false) {n : Int} (h : 0 ≤ n) :
    c ∉ (toString n).toList := by
  obtain ⟨m, rfl⟩ := Int.eq_ofNat_of_zero_le h
  have htext : (toString (m : Int)).toList = Nat.toDigits 10 m := by
    change (toString m).toList = _
    rw [Nat.toString_eq_ofList_toDigits, String.toList_ofList]
  rw [htext]
  intro hmem
  have hdigit := Nat.isDigit_of_mem_toDigits (by decide) (by decide) hmem
  rw [hc] at hdigit
  cases hdigit

theorem toString_of_neg {n : Int} (h : n < 0) :
    ∃ m : Nat, toString n = "-" ++ toString (m : Int) := by
  obtain ⟨m, rfl⟩ := Int.eq_negSucc_of_lt_zero h
  exact ⟨m + 1, rfl⟩

theorem notMem_toString {c : Char} (hc : c.isDigit = false) (hsign : c ∉ ['-']) (n : Int) :
    c ∉ (toString n).toList := by
  rcases le_or_gt 0 n with h | h
  · exact notMem_numeral hc h
  · obtain ⟨m, hm⟩ := toString_of_neg h
    rw [hm, String.toList_append, List.mem_append, not_or]
    exact ⟨hsign, notMem_numeral hc (Int.natCast_nonneg _)⟩

theorem apmstr_inj {hour hour' : Int} (h : (apmstr hour).toList = (apmstr hour').toList) :
    11 < hour ↔ 11 < hour' := by
  rw [apmstr, apmstr] at h
  split at h <;> split at h
  · exact iff_of_true ‹_› ‹_›
  · exact absurd h (by decide)
  · exact absurd h (by decide)
  · exact iff_of_false ‹_› ‹_›

theorem ofDigitChars_toString (m : Nat) :
    Nat.ofDigitChars 10 (toString (m : Int)).toList 0 = m := by
  change Nat.ofDigitChars 10 (toString m).toList 0 = m
  rw [Nat.toString_eq_ofList_toDigits, String.toList_ofList, Nat.ofDigitChars_ten_toDigits]

theorem zero_append_ne {n n' : Int} (h : n < 10) (h' : 10 ≤ n') :
    "0" ++ toString n ≠ toString n' := by
  intro heq
  obtain ⟨m', rfl⟩ := Int.eq_ofNat_of_zero_le (a := n') (by omega)
  rcases le_or_gt 0 n with hpos | hneg
  · obtain ⟨m, rfl⟩ := Int.eq_ofNat_of_zero_le hpos
    have hnum := congrArg (fun text => Nat.ofDigitChars 10 (String.toList text) 0) heq
    have hzero : ("0" : String).toList = ['0'] := rfl
    simp only [String.toList_append, hzero, List.singleton_append, Nat.ofDigitChars_cons] at hnum
    have hval : m = m' := by
      rw [← ofDigitChars_toString m, ← ofDigitChars_toString m']
      exact hnum
    omega
  · obtain ⟨m, hm⟩ := toString_of_neg hneg
    have hsign : '-' ∈ (toString (m' : Int)).toList := by
      rw [← heq, hm]
      simp only [String.toList_append, List.mem_append]
      exact Or.inr (Or.inl (by decide))
    exact notMem_numeral rfl (Int.natCast_nonneg m') hsign

theorem minutestr_inj {minute minute' : Int} :
    minutestr minute = minutestr minute' ↔ minute = minute' := by
  refine ⟨fun h => ?_, fun h => by rw [h]⟩
  simp only [minutestr] at h
  split at h <;> split at h
  · exact Int.repr_inj.mp ((String.append_right_inj "0").mp h)
  · exact absurd h (zero_append_ne (by omega) (by omega))
  · exact absurd h.symm (zero_append_ne (by omega) (by omega))
  · exact Int.repr_inj.mp h

theorem space_notMem_minutestr (minute : Int) : ' ' ∉ (minutestr minute).toList := by
  rw [minutestr]
  split
  · rw [String.toList_append, List.mem_append, not_or]
    exact ⟨by decide, notMem_toString rfl (by decide) minute⟩
  · exact notMem_toString rfl (by decide) minute

/-- The text tells the hour shown, the minute and the half of the day. -/
theorem clockText_inj {shown shown' hour hour' minute minute' : Int} :
    clockText shown hour minute = clockText shown' hour' minute' ↔
      shown = shown' ∧ (11 < hour ↔ 11 < hour') ∧ minute = minute' := by
  constructor
  · intro h
    have hchars := congrArg String.toList h
    simp only [clockText, String.toList_append] at hchars
    obtain ⟨hshown, hrest⟩ := (append_sep_inj (notMem_toString (c := ':') rfl (by decide) shown)
      (notMem_toString rfl (by decide) shown')).mp hchars
    obtain ⟨hminute, hapm⟩ := (append_sep_inj (a := ' ') (space_notMem_minutestr minute)
      (space_notMem_minutestr minute')).mp hrest
    exact ⟨Int.repr_inj.mp (String.toList_inj.mp hshown), apmstr_inj hapm,
      minutestr_inj.mp (String.toList_inj.mp hminute)⟩
  · rintro ⟨rfl, hhalf, rfl⟩
    simp only [clockText, apmstr, gt_iff_lt, hhalf]

/-- The time as it is written: 24 like 12. -/
def TimeOfDay.printed (t : TimeOfDay) : TimeOfDay :=
  if t.hour = 24 then ⟨12, t.minute⟩ else t

theorem TimeOfDay.Valid.printed {t : TimeOfDay} (h : t.Valid) : t.printed = t :=
  if_neg (by have hlt := h.2.1; omega)

/-- Two times have the same text exactly when they are written alike. -/
theorem timeParser_iff {t t' : TimeOfDay} :
    timeParser t = timeParser t' ↔ t.printed = t'.printed := by
  have hparts : t.printed = t'.printed ↔
      (if t.hour = 24 then 12 else t.hour) = (if t'.hour = 24 then 12 else t'.hour) ∧
        t.minute = t'.minute := by
    cases t
    cases t'
    simp only [TimeOfDay.printed]
    split <;> split <;> simp only [TimeOfDay.mk.injEq]
  rw [timeParser, timeParser, clockText_inj, hparts]
  simp only [hour12]
  split <;> split <;> split <;> split <;> omega

/-- Times that a clock can show have different texts. -/
theorem timeParser_inj {t t' : TimeOfDay} (h : t.Valid) (h' : t'.Valid) :
    timeParser t = timeParser t' ↔ t = t' := by
  rw [timeParser_iff, h.printed, h'.printed]

theorem dash_notMem_timeParser {t : TimeOfDay} (h : t.Valid) :
    '-' ∉ (timeParser t).toList := by
  obtain ⟨hhour₀, hhour₁, hmin₀, hmin₁⟩ := h
  have hhour : '-' ∉ (toString (hour12 t.hour)).toList := by
    refine notMem_numeral rfl ?_
    simp only [hour12]
    split <;> split <;> omega
  have hminute : '-' ∉ (minutestr t.minute).toList := by
    rw [minutestr]
    split
    · rw [String.toList_append, List.mem_append, not_or]
      exact ⟨by decide, notMem_numeral rfl hmin₀⟩
    · exact notMem_numeral rfl hmin₀
  have hapm : '-' ∉ (apmstr t.hour).toList := by
    rw [apmstr]
    split <;> decide
  intro hmem
  simp only [timeParser, clockText, String.toList_append, List.mem_append] at hmem
  rcases hmem with hmem | hmem | hmem | hmem | hmem
  · exact hhour hmem
  · exact absurd hmem (by decide)
  · exact hminute hmem
  · exact absurd hmem (by decide)
  · exact hapm hmem

theorem range_inj {t t' u u' : TimeOfDay} (ht : t.Valid) (ht' : t'.Valid) (hu : u.Valid)
    (hu' : u'.Valid) :
    timeParser t ++ " - " ++ timeParser u = timeParser t' ++ " - " ++ timeParser u' ↔
      t = t' ∧ u = u' := by
  constructor
  · intro h
    have hspace : ∀ {v : TimeOfDay}, v.Valid → '-' ∉ ' ' :: (timeParser v).toList := by
      intro v hv hmem
      rcases List.mem_cons.mp hmem with hmem | hmem
      · exact absurd hmem (by decide)
      · exact dash_notMem_timeParser hv hmem
    have hfirst : '-' ∉ (timeParser t).toList ++ [' '] := by
      intro hmem
      rcases List.mem_append.mp hmem with hmem | hmem
      · exact dash_notMem_timeParser ht hmem
      · exact absurd hmem (by decide)
    have hparts : ∀ v w : TimeOfDay, (timeParser v ++ " - " ++ timeParser w).toList =
        ((timeParser v).toList ++ [' ']) ++ '-' :: (' ' :: (timeParser w).toList) := by
      intro v w
      have hsep : (" - " : String).toList = [' ', '-', ' '] := rfl
      rw [String.toList_append, String.toList_append, hsep, List.append_assoc, List.append_assoc]
      rfl
    have hchars := congrArg String.toList h
    rw [hparts, hparts] at hchars
    obtain ⟨hleft, -, hright⟩ := (List.append_cons_inj_of_notMem hfirst (hspace hu)).mp hchars
    have ht₁ := String.toList_inj.mp (List.append_cancel_right hleft)
    have hu₁ := String.toList_inj.mp (List.cons.inj hright).2
    exact ⟨(timeParser_inj ht ht').mp ht₁, (timeParser_inj hu hu').mp hu₁⟩
  · rintro ⟨rfl, rfl⟩
    rfl

/-- Midnight, and half past twelve. -/
example : timeParser ⟨0, 0⟩ = "12:00 AM" ∧ timeParser ⟨12, 30⟩ = "12:30 PM" := by decide

end CalendarApp
