/-
# `Main` — the helpers of main.dart

The year list that bounds every year wheel and every page index, Dart's
`indexOf` on it, and `getPageIndex`; the names of months and weekdays, and
`isSameDate`.  A Dart `DateTime` is an instant, an integer in milliseconds; its
fields are read in the time zone of the device (`Lib.Zone`).
-/
import CalendarApp.Lib.Zone

namespace CalendarApp

open Lib

/-- `yearlist`. -/
def yearlist : List Int :=
  [2015, 2016, 2017, 2018, 2019, 2020, 2021, 2022, 2023, 2024, 2025]

/-- `List.indexOf`: the first index, or -1. -/
def indexOf {α : Type} [DecidableEq α] (l : List α) (x : α) : Int :=
  match l.idxOf? x with
  | some i => i
  | none => -1

/-- `getPageIndex`. -/
def getPageIndex (z : Zone) (day : Int) : Int :=
  indexOf yearlist (z.date day).year * 12 + ((z.date day).month - 1)

/-- `monthlist`. -/
def monthlist : List String :=
  ["January", "February", "March", "April", "May", "June", "July", "August", "September",
    "October", "November", "December"]

/-- `weeklistCap`. -/
def weeklistCap : List String := ["Mon", "Tue", "Wed", "Thu", "Fri", "Sat", "Sun"]

/-- `isSameDate`: the fields agree. -/
def isSameDate (z : Zone) (date1 date2 : Int) : Bool :=
  (z.date date1).year = (z.date date2).year && (z.date date1).month = (z.date date2).month &&
    (z.date date1).day = (z.date date2).day

theorem isSameDate_iff {z : Zone} {t t' : Int} :
    isSameDate z t t' = true ↔ z.day t = z.day t' := by
  simp only [isSameDate, Bool.and_eq_true, decide_eq_true_eq]
  constructor
  · rintro ⟨⟨hy, hm⟩, hd⟩
    have ht := dayNumber_dateOf (z.day t)
    have ht' := dayNumber_dateOf (z.day t')
    rw [← ht, ← ht']
    simp only [Zone.date] at hy hm hd
    rw [hy, hm, hd]
  · intro h
    simp only [Zone.date, h, and_self]

theorem indexOf_of_mem {α : Type} [DecidableEq α] {l : List α} {x : α} (h : x ∈ l) :
    ∃ i : Nat, indexOf l x = i ∧ l[i]? = some x := by
  cases hi : l.idxOf? x with
  | none => exact absurd h (List.idxOf?_eq_none_iff.mp hi)
  | some i =>
      obtain ⟨hlt, hget, -⟩ := List.idxOf?_eq_some_iff.mp hi
      refine ⟨i, by simp only [indexOf, hi], ?_⟩
      rw [List.getElem?_eq_getElem hlt]
      exact congrArg some hget

theorem indexOf_of_not_mem {α : Type} [DecidableEq α] {l : List α} {x : α} (h : x ∉ l) :
    indexOf l x = -1 := by
  simp only [indexOf, List.idxOf?_eq_none_iff.mpr h]

theorem indexOf_lt_length {α : Type} [DecidableEq α] {l : List α} {x : α}
    (h : 0 ≤ indexOf l x) : (indexOf l x).toNat < l.length := by
  by_cases hx : x ∈ l
  · obtain ⟨i, hi, hget⟩ := indexOf_of_mem hx
    rw [hi, Int.toNat_natCast]
    exact (List.getElem?_eq_some_iff.mp hget).1
  · rw [indexOf_of_not_mem hx] at h
    exact absurd h (by decide)

end CalendarApp
