/-
# `Lib.Run` — runs of a transition system, and what holds along them

A trace is read from a start state: each entry is an action together with
the state that action led to.  Everything said about a trace is one
recursion, `Along Q`: the triple (state before, action, state after) of
every entry satisfies `Q`.

    Run step       = Along step                   every entry is a step
    Guarded C      = Along (state before, action) every step meets a guard
    Always P       = P at the start, and after every entry

These rules carry the results of the development.

* `Always.of_guarded`, the invariant rule: an invariant that every guarded
  step preserves holds in every state of a guarded run.
* `le_of_run`, the budget rule: a quantity that each step raises by no more
  than the cost of its action is bounded by the costs of the run.
* `along_iff_guarded`, the exactness rule: if, as long as the invariant
  holds, a step is good exactly when it meets the guard, and a good step
  preserves the invariant, then a run is good at every step exactly when
  every step meets the guard.  This is the rule for "the property holds of
  a run if and only if the run avoids such-and-such steps".
* `Run.history`, the history rule: induction on the last step, for what
  speaks about the actions so far; and `rel_of_run`, the growth rule: a
  preorder that contains the steps relates the first state to the last.

Nothing here names a program.
-/
import Mathlib.Algebra.GroupWithZero.Nat
import Mathlib.Data.List.Basic
import Mathlib.Data.List.Induction

namespace CalendarApp.Lib

variable {σ α : Type*}

/-- `Q` holds of every entry of the trace `tr` read from `s`. -/
def Along (Q : σ → α → σ → Prop) : σ → List (α × σ) → Prop
  | _, [] => True
  | s, (a, s') :: tr => Q s a s' ∧ Along Q s' tr

/-- Every entry of the trace is a step. -/
def Run (step : σ → α → σ → Prop) (s : σ) (tr : List (α × σ)) : Prop :=
  Along step s tr

/-- Every step is taken from a state in which the guard allows its action. -/
def Guarded (C : σ → α → Prop) (s : σ) (tr : List (α × σ)) : Prop :=
  Along (fun s a _ => C s a) s tr

/-- `P` holds in every state the trace visits, the first one included. -/
def Always (P : σ → Prop) (s : σ) (tr : List (α × σ)) : Prop :=
  P s ∧ Along (fun _ _ s' => P s') s tr

/-- The state a trace ends in. -/
def final : σ → List (α × σ) → σ
  | s, [] => s
  | _, (_, s') :: tr => final s' tr

/-- A state some run from `s₀` ends in. -/
def Reachable (step : σ → α → σ → Prop) (s₀ s : σ) : Prop :=
  ∃ tr, Run step s₀ tr ∧ final s₀ tr = s

instance instDecidableAlong (Q : σ → α → σ → Prop) [∀ s a s', Decidable (Q s a s')] :
    ∀ s tr, Decidable (Along Q s tr)
  | _, [] => isTrue trivial
  | s, (a, s') :: tr =>
      have := instDecidableAlong Q s' tr
      inferInstanceAs (Decidable (Q s a s' ∧ Along Q s' tr))

instance (C : σ → α → Prop) [∀ s a, Decidable (C s a)] (s : σ) (tr : List (α × σ)) :
    Decidable (Guarded C s tr) :=
  inferInstanceAs (Decidable (Along _ s tr))

/-! ## Along, entry by entry -/

@[simp] theorem along_nil {Q : σ → α → σ → Prop} {s : σ} : Along Q s [] := trivial

@[simp] theorem along_cons {Q : σ → α → σ → Prop} {s s' : σ} {a : α}
    {tr : List (α × σ)} :
    Along Q s ((a, s') :: tr) ↔ Q s a s' ∧ Along Q s' tr := Iff.rfl

theorem Along.imp {Q R : σ → α → σ → Prop} (h : ∀ s a s', Q s a s' → R s a s') :
    ∀ {s : σ} {tr : List (α × σ)}, Along Q s tr → Along R s tr
  | _, [], _ => trivial
  | _, (_, _) :: _, ⟨hq, htr⟩ => ⟨h _ _ _ hq, Along.imp h htr⟩

/-- A guard on the actions alone. -/
theorem Guarded.of_actions {C : α → Prop} : ∀ {s : σ} {tr : List (α × σ)},
    (∀ a ∈ tr.map Prod.fst, C a) → Guarded (fun _ a => C a) s tr
  | _, [], _ => trivial
  | _, (_, _) :: _, h =>
      ⟨h _ List.mem_cons_self, Guarded.of_actions fun a ha => h a (List.mem_cons_of_mem _ ha)⟩

theorem along_append {Q : σ → α → σ → Prop} :
    ∀ {s : σ} {tr tr' : List (α × σ)},
      Along Q s (tr ++ tr') ↔ Along Q s tr ∧ Along Q (final s tr) tr'
  | _, [], _ => by simp [final]
  | _, (_, _) :: _, _ => by
      simp only [List.cons_append, along_cons, final, and_assoc]
      exact and_congr_right fun _ => along_append

theorem final_append :
    ∀ (s : σ) (tr tr' : List (α × σ)), final s (tr ++ tr') = final (final s tr) tr'
  | _, [], _ => rfl
  | _, (_, s') :: tr, tr' => final_append s' tr tr'

theorem Always.final {P : σ → Prop} :
    ∀ {s : σ} {tr : List (α × σ)}, Always P s tr → P (Lib.final s tr)
  | _, [], h => h.1
  | _, (_, s') :: tr, h =>
      have htr : Always P s' tr := ⟨h.2.1, h.2.2⟩
      htr.final

/-! ## The rules -/

/-- A guarded run, step by step, with the invariant at hand. -/
theorem Along.of_guarded {step Q : σ → α → σ → Prop} {C : σ → α → Prop} {I : σ → Prop}
    (hstep : ∀ s a s', I s → step s a s' → C s a → Q s a s' ∧ I s') :
    ∀ {s : σ} {tr : List (α × σ)}, I s → Run step s tr → Guarded C s tr → Along Q s tr
  | _, [], _, _, _ => trivial
  | _, (_, _) :: _, hI, ⟨h, hrun⟩, ⟨hC, hgd⟩ =>
      have hQ := hstep _ _ _ hI h hC
      ⟨hQ.1, Along.of_guarded hstep hQ.2 hrun hgd⟩

/-- The invariant rule, for steps that meet a guard. -/
theorem Always.of_guarded {step : σ → α → σ → Prop} {C : σ → α → Prop} {I : σ → Prop}
    (hstep : ∀ s a s', I s → step s a s' → C s a → I s') {s : σ} {tr : List (α × σ)}
    (hI : I s) (hrun : Run step s tr) (hgd : Guarded C s tr) : Always I s tr :=
  ⟨hI, Along.of_guarded (fun s a s' hI h hC => ⟨hstep s a s' hI h hC, hstep s a s' hI h hC⟩)
    hI hrun hgd⟩

theorem Along.of_run {step Q : σ → α → σ → Prop} {I : σ → Prop}
    (hstep : ∀ s a s', I s → step s a s' → Q s a s' ∧ I s') {s : σ} {tr : List (α × σ)}
    (hI : I s) (hrun : Run step s tr) : Along Q s tr := by
  have hgd : Guarded (fun _ _ => True) s tr := Along.imp (fun _ _ _ _ => trivial) hrun
  exact Along.of_guarded (fun s a s' hI h _ => hstep s a s' hI h) hI hrun hgd

/-- The invariant rule without a guard: an invariant of every step holds in
every reachable state. -/
theorem Reachable.invariant {step : σ → α → σ → Prop} {I : σ → Prop} {s₀ s : σ}
    (hinit : I s₀) (hstep : ∀ s a s', I s → step s a s' → I s')
    (h : Reachable step s₀ s) : I s := by
  obtain ⟨tr, hrun, rfl⟩ := h
  have hkept : ∀ s a s', I s → step s a s' → I s' ∧ I s' :=
    fun s a s' hI h => ⟨hstep s a s' hI h, hstep s a s' hI h⟩
  have hall : Always I s₀ tr := ⟨hinit, Along.of_run hkept hinit hrun⟩
  exact hall.final

/-- The budget rule. -/
theorem le_of_run {step : σ → α → σ → Prop} {f : σ → Nat} {cost : α → Nat}
    (hstep : ∀ s a s', step s a s' → f s' ≤ f s + cost a) :
    ∀ {s : σ} {tr : List (α × σ)}, Run step s tr →
      f (final s tr) ≤ f s + (tr.map fun e => cost e.1).sum
  | _, [], _ => Nat.le_add_right _ _
  | s, (a, s') :: tr, ⟨h, hrun⟩ => by
      calc f (final s' tr) ≤ f s' + (tr.map fun e => cost e.1).sum := le_of_run hstep hrun
        _ ≤ f s + cost a + (tr.map fun e => cost e.1).sum :=
            Nat.add_le_add_right (hstep s a s' h) _
        _ = f s + (((a, s') :: tr).map fun e => cost e.1).sum := by
            rw [List.map_cons, List.sum_cons, Nat.add_assoc]

/-- The history rule: what holds of the empty trace, and of a run with one more
step, holds of every run.  It may speak about the whole trace. -/
theorem Run.history {step : σ → α → σ → Prop} {s : σ} {I : List (α × σ) → Prop}
    (hnil : I [])
    (hsnoc : ∀ tr a s', Run step s tr → I tr → step (final s tr) a s' → I (tr ++ [(a, s')])) :
    ∀ {tr : List (α × σ)}, Run step s tr → I tr := by
  intro tr
  induction tr using List.reverseRecOn with
  | nil => exact fun _ => hnil
  | append_singleton tr e ih =>
      intro hrun
      obtain ⟨htr, hlast⟩ := along_append.mp hrun
      exact hsnoc tr e.1 e.2 htr (ih htr) hlast.1

/-- The growth rule: every preorder that contains the steps relates the first
state of a run to the last. -/
theorem rel_of_run {step : σ → α → σ → Prop} {R : σ → σ → Prop} {I : σ → Prop}
    (hrefl : ∀ s, R s s) (htrans : ∀ s₁ s₂ s₃, R s₁ s₂ → R s₂ s₃ → R s₁ s₃)
    (hstep : ∀ s a s', I s → step s a s' → R s s' ∧ I s') {s : σ} {tr : List (α × σ)}
    (hI : I s) (hrun : Run step s tr) : R s (final s tr) ∧ I (final s tr) := by
  refine Run.history (I := fun tr => R s (final s tr) ∧ I (final s tr)) ⟨hrefl s, hI⟩ ?_ hrun
  intro tr a s' _ ⟨hR, hI⟩ h
  obtain ⟨hR', hI'⟩ := hstep _ _ _ hI h
  rw [final_append]
  exact ⟨htrans _ _ _ hR hR', hI'⟩

/-- The exactness rule: under the invariant a step is good exactly when it
meets the guard, so a run is good exactly when it is guarded. -/
theorem along_iff_guarded {step Q : σ → α → σ → Prop} {C : σ → α → Prop} {I : σ → Prop}
    (hexact : ∀ s a s', I s → step s a s' → (Q s a s' ↔ C s a))
    (hkeep : ∀ s a s', I s → step s a s' → Q s a s' → I s') :
    ∀ {s : σ} {tr : List (α × σ)},
      I s → Run step s tr → (Along Q s tr ↔ Guarded C s tr)
  | _, [], _, _ => Iff.rfl
  | _, (_, _) :: _, hI, ⟨h, hrun⟩ => by
      constructor
      · rintro ⟨hQ, htr⟩
        exact ⟨(hexact _ _ _ hI h).mp hQ,
          (along_iff_guarded hexact hkeep (hkeep _ _ _ hI h hQ) hrun).mp htr⟩
      · rintro ⟨hC, htr⟩
        have hQ := (hexact _ _ _ hI h).mpr hC
        exact ⟨hQ, (along_iff_guarded hexact hkeep (hkeep _ _ _ hI h hQ) hrun).mpr htr⟩

/-- The exactness rule for a property of states, next to an invariant of every
step. -/
theorem always_iff_guarded {step : σ → α → σ → Prop} {C : σ → α → Prop} {I P : σ → Prop}
    (hexact : ∀ s a s', I s → P s → step s a s' → (P s' ↔ C s a))
    (hkeep : ∀ s a s', I s → step s a s' → I s') {s : σ} {tr : List (α × σ)}
    (hI : I s) (hP : P s) (hrun : Run step s tr) : Always P s tr ↔ Guarded C s tr := by
  have hiff : Along (fun _ _ s' => P s') s tr ↔ Guarded C s tr :=
    along_iff_guarded (I := fun s => I s ∧ P s) (fun s a s' h => hexact s a s' h.1 h.2)
      (fun s a s' h hstep hQ => ⟨hkeep s a s' h.1 hstep, hQ⟩) ⟨hI, hP⟩ hrun
  exact ⟨fun h => hiff.mp h.2, fun h => ⟨hP, hiff.mpr h⟩⟩

/-! ## Executable steps -/

/-- The step relation of a partial function. -/
def StepOf (f : σ → α → Option σ) (s : σ) (a : α) (s' : σ) : Prop :=
  f s a = some s'

/-- The trace a list of actions produces, if every action is possible. -/
def exec (f : σ → α → Option σ) : σ → List α → Option (List (α × σ))
  | _, [] => some []
  | s, a :: as =>
      match f s a with
      | none => none
      | some s' => (exec f s' as).map ((a, s') :: ·)

theorem run_of_exec {f : σ → α → Option σ} :
    ∀ {s : σ} {as : List α} {tr : List (α × σ)},
      exec f s as = some tr → Run (StepOf f) s tr
  | _, [], tr, h => by
      simp only [exec, Option.some.injEq] at h
      subst h; exact trivial
  | s, a :: as, tr, h => by
      simp only [exec] at h
      cases hs : f s a with
      | none => simp [hs] at h
      | some s' =>
          simp only [hs, Option.map_eq_some_iff] at h
          obtain ⟨tr', htr', rfl⟩ := h
          exact ⟨hs, run_of_exec htr'⟩

theorem actions_of_exec {f : σ → α → Option σ} :
    ∀ {s : σ} {as : List α} {tr : List (α × σ)},
      exec f s as = some tr → tr.map Prod.fst = as
  | _, [], tr, h => by
      simp only [exec, Option.some.injEq] at h
      subst h; rfl
  | s, a :: as, tr, h => by
      simp only [exec] at h
      cases hs : f s a with
      | none => simp [hs] at h
      | some s' =>
          simp only [hs, Option.map_eq_some_iff] at h
          obtain ⟨tr', htr', rfl⟩ := h
          exact congrArg (a :: ·) (actions_of_exec htr')

/-- A run with a property, found by computing it from its actions. -/
theorem exists_run {f : σ → α → Option σ} {s : σ} {P : List (α × σ) → Prop}
    [DecidablePred P] (as : List α)
    (h : (exec f s as).any (fun tr => decide (P tr)) = true) :
    ∃ tr, tr.map Prod.fst = as ∧ Run (StepOf f) s tr ∧ P tr := by
  cases htr : exec f s as with
  | none => rw [htr] at h; cases h
  | some tr =>
      rw [htr] at h
      exact ⟨tr, actions_of_exec htr, run_of_exec htr, of_decide_eq_true h⟩

end CalendarApp.Lib
