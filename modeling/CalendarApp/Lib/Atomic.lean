/-
# `Lib.Atomic` — an operation of two writes

Two writes are sent one by one, and each of them is applied or not.  A write
aims at a fact about one document.

    applied   the write took effect
    held      the fact held before
    holds     the fact holds after
    same      the document is as before

Together they are all or nothing when both facts hold after, or both
documents are as before.  Writes that are not tied to each other are so
exactly when both are applied or neither is, or one of the two facts held
before (`allOrNothing_iff`).

Nothing here names a program.
-/
import Mathlib.Logic.Basic

namespace CalendarApp.Lib

/-- What a write does to its document: it establishes the fact, and changes
nothing if the fact held or the write failed. -/
structure Aim (applied held holds same : Prop) : Prop where
  done : applied → holds
  idle : applied → (same ↔ held)
  skipped : ¬ applied → same ∧ (holds ↔ held)

theorem Aim.of_applied {applied held holds same : Prop} (h : applied) (hdone : holds)
    (hidle : same ↔ held) : Aim applied held holds same :=
  ⟨fun _ => hdone, fun _ => hidle, fun hfail => absurd h hfail⟩

theorem Aim.of_skipped {applied held holds same : Prop} (h : ¬ applied) (hsame : same)
    (hskip : holds ↔ held) : Aim applied held holds same :=
  ⟨fun happ => absurd happ h, fun happ => absurd happ h, fun _ => ⟨hsame, hskip⟩⟩

variable {applied₁ held₁ holds₁ same₁ applied₂ held₂ holds₂ same₂ : Prop}

theorem allOrNothing_iff (h₁ : Aim applied₁ held₁ holds₁ same₁)
    (h₂ : Aim applied₂ held₂ holds₂ same₂) :
    (holds₁ ∧ holds₂) ∨ (same₁ ∧ same₂) ↔ (applied₁ ↔ applied₂) ∨ held₁ ∨ held₂ := by
  by_cases ha₁ : applied₁
  · have hdone₁ := h₁.done ha₁
    have hidle₁ := h₁.idle ha₁
    by_cases ha₂ : applied₂
    · exact iff_of_true (Or.inl ⟨hdone₁, h₂.done ha₂⟩) (Or.inl (iff_of_true ha₁ ha₂))
    · obtain ⟨hsame₂, hskip₂⟩ := h₂.skipped ha₂
      rw [hskip₂, hidle₁, and_iff_right hdone₁, and_iff_left hsame₂, or_comm]
      refine (or_iff_right fun h => ?_).symm
      exact ha₂ (h.mp ha₁)
  · obtain ⟨hsame₁, hskip₁⟩ := h₁.skipped ha₁
    by_cases ha₂ : applied₂
    · rw [hskip₁, h₂.idle ha₂, and_iff_left (h₂.done ha₂), and_iff_right hsame₁]
      refine (or_iff_right fun h => ?_).symm
      exact ha₁ (h.mpr ha₂)
    · exact iff_of_true (Or.inr ⟨hsame₁, (h₂.skipped ha₂).1⟩) (Or.inl (iff_of_false ha₁ ha₂))

end CalendarApp.Lib
