/-
# `Lib.Span` — integers in a row

`Int.range a b` lists the integers from `a` on and before `b`.  Lists of
neighbouring bounds make the list of the outer ones (`range_append`), any
number of them in a row (`flatMap_range`), and a list holds that of bounds
between its own (`filter_range`), or what it has of any others
(`filter_range_inter`).  Each integer is in a list once, if at all
(`count_range`).

Nothing here names a program.
-/
import Mathlib.Data.Int.Range
import Mathlib.Data.List.Nodup
import Mathlib.Order.Basic

namespace CalendarApp.Lib

variable {a b c d : Int}

theorem range_eq_map (a : Int) (n : Nat) :
    Int.range a (a + n) = (List.range n).map fun i : Nat => a + i := by
  rw [Int.range, add_sub_cancel_left, Int.toNat_natCast]

theorem range_append (h : a ≤ b) (h' : b ≤ c) :
    Int.range a b ++ Int.range b c = Int.range a c := by
  obtain ⟨m, rfl⟩ : ∃ m : Nat, b = a + m := ⟨(b - a).toNat, by omega⟩
  obtain ⟨n, rfl⟩ : ∃ n : Nat, c = a + m + n := ⟨(c - (a + m)).toNat, by omega⟩
  have hsum : a + m + n = a + (m + n : Nat) := by omega
  rw [range_eq_map, range_eq_map, hsum, range_eq_map, List.range_add, List.map_append,
    List.map_map]
  refine congrArg _ (List.map_congr_left fun i _ => ?_)
  simp only [Function.comp]
  omega

/-- Between its own bounds a list has the elements of the list there. -/
theorem filter_range (ha : a ≤ b) (hb : b ≤ c) (hc : c ≤ d) :
    (Int.range a d).filter (fun n => b ≤ n ∧ n < c) = Int.range b c := by
  rw [← range_append (ha.trans hb) hc, ← range_append ha hb, List.filter_append,
    List.filter_append]
  have hbefore : (Int.range a b).filter (fun n => b ≤ n ∧ n < c) = [] := by
    refine List.filter_eq_nil_iff.mpr fun n hn => ?_
    rw [Int.mem_range_iff] at hn
    simp only [decide_eq_true_eq]
    omega
  have hself : (Int.range b c).filter (fun n => b ≤ n ∧ n < c) = Int.range b c := by
    refine List.filter_eq_self.mpr fun n hn => ?_
    rw [Int.mem_range_iff] at hn
    exact decide_eq_true hn
  have hafter : (Int.range c d).filter (fun n => b ≤ n ∧ n < c) = [] := by
    refine List.filter_eq_nil_iff.mpr fun n hn => ?_
    rw [Int.mem_range_iff] at hn
    simp only [decide_eq_true_eq]
    omega
  rw [hbefore, hself, hafter, List.nil_append, List.append_nil]

/-- A list holds, of any bounds, what both have. -/
theorem filter_range_inter (a b c d : Int) :
    (Int.range a d).filter (fun n => b ≤ n ∧ n < c) = Int.range (max a b) (min c d) := by
  by_cases h : max a b ≤ min c d
  · rw [← filter_range (le_max_left a b) h (min_le_right c d)]
    refine List.filter_congr fun n hn => ?_
    rw [Int.mem_range_iff] at hn
    exact decide_eq_decide.mpr (by omega)
  · have hempty : Int.range (max a b) (min c d) = [] := by
      refine List.eq_nil_iff_forall_not_mem.mpr fun n hn => ?_
      rw [Int.mem_range_iff] at hn
      omega
    rw [hempty]
    refine List.filter_eq_nil_iff.mpr fun n hn => ?_
    rw [Int.mem_range_iff] at hn
    simp only [decide_eq_true_eq]
    omega

/-- Each integer is in the list once, if at all. -/
theorem count_range (a b m : Int) : (Int.range a b).count m = if a ≤ m ∧ m < b then 1 else 0 := by
  have hnodup : (Int.range a b).Nodup := by
    rw [Int.range]
    exact List.Nodup.map (fun i j h => Int.ofNat.inj (Int.add_left_cancel h)) List.nodup_range
  split
  · next h => exact List.count_eq_one_of_mem hnodup (Int.mem_range_iff.mpr h)
  · next h => exact List.count_eq_zero_of_not_mem fun hmem => h (Int.mem_range_iff.mp hmem)

/-- Lists of neighbouring bounds, one after another. -/
theorem flatMap_range {g : Nat → Int} : ∀ {n : Nat}, (∀ i, i < n → g i ≤ g (i + 1)) →
    (List.range n).flatMap (fun i => Int.range (g i) (g (i + 1))) = Int.range (g 0) (g n) ∧
      g 0 ≤ g n
  | 0, _ => by
      refine ⟨?_, le_rfl⟩
      have hempty : Int.range (g 0) (g 0) = [] := by
        rw [Int.range, Int.sub_self]
        rfl
      rw [hempty]
      rfl
  | n + 1, h => by
      obtain ⟨hinit, hle⟩ := flatMap_range (n := n) fun i hi => h i (Nat.lt_succ_of_lt hi)
      have hlast := h n (Nat.lt_succ_self n)
      refine ⟨?_, hle.trans hlast⟩
      rw [List.range_succ, List.flatMap_append, hinit, List.flatMap_singleton,
        range_append hle hlast]

end CalendarApp.Lib
