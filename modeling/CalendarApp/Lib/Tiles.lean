/-
# `Lib.Tiles` — intervals laid end to end

`Tiles a l b` says that the intervals of the list `l`, in order, lead from `a`
to `b`: each begins where the one before it ends, and none ends before it
begins.  An interval may be empty.  Then every point from `a` on and before `b`
is in exactly one of them, and no other point is in any (`Tiles.countP`).

Nothing here names a program.
-/
import Mathlib.Order.Lattice
import Mathlib.Data.List.Basic

namespace CalendarApp.Lib

variable {α : Type*} [LinearOrder α]

/-- The intervals lead from the first bound to the second. -/
def Tiles : α → List (α × α) → α → Prop
  | a, [], b => a = b
  | a, s :: l, b => s.1 = a ∧ s.1 ≤ s.2 ∧ Tiles s.2 l b

/-- The point is in the interval, which is open on the right. -/
def Covers (t : α) (s : α × α) : Bool := s.1 ≤ t && t < s.2

namespace Tiles

theorem le : ∀ {a b : α} {l : List (α × α)}, Tiles a l b → a ≤ b
  | _, _, [], h => le_of_eq h
  | _, _, _ :: _, ⟨hfirst, hs, hl⟩ => hfirst ▸ hs.trans hl.le

theorem append : ∀ {a b c : α} {l l' : List (α × α)},
    Tiles a l b → Tiles b l' c → Tiles a (l ++ l') c
  | _, _, _, [], _, h, h' => by
      cases h
      exact h'
  | _, _, _, _ :: _, _, ⟨hfirst, hs, hl⟩, h' => ⟨hfirst, hs, hl.append h'⟩

theorem range {g : Nat → α} : ∀ {n : Nat}, (∀ i, i < n → g i ≤ g (i + 1)) →
    Tiles (g 0) ((List.range n).map fun i => (g i, g (i + 1))) (g n)
  | 0, _ => rfl
  | n + 1, h => by
      rw [List.range_succ, List.map_append]
      have hinit := range (n := n) fun i hi => h i (Nat.lt_succ_of_lt hi)
      exact hinit.append ⟨rfl, h n (Nat.lt_succ_self n), rfl⟩

/-- Each point between the bounds is in one interval, the others in none. -/
theorem countP (t : α) : ∀ {a b : α} {l : List (α × α)}, Tiles a l b →
    l.countP (Covers t) = if a ≤ t ∧ t < b then 1 else 0
  | a, b, [], h => by
      cases h
      rw [if_neg fun hc => absurd (hc.1.trans_lt hc.2) (lt_irrefl _)]
      rfl
  | a, b, s :: l, ⟨hfirst, hs, hl⟩ => by
      subst hfirst
      rw [List.countP_cons, hl.countP t]
      have hle := hl.le
      simp only [Covers, Bool.and_eq_true, decide_eq_true_eq]
      by_cases hmid : t < s.2
      · rw [if_neg fun hc => absurd hmid (not_lt.mpr hc.1), Nat.zero_add]
        simp only [hmid, hmid.trans_le hle]
      · have hmid' : s.2 ≤ t := not_lt.mp hmid
        simp only [hmid, hmid', hs.trans hmid', and_false, if_false, true_and, Nat.add_zero]

end Tiles

end CalendarApp.Lib
