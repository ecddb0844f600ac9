/-
# `Lib.Reconcile` — children that keep their state by position

A list of children is rebuilt from a list of configurations.  The children
carry no keys, so the child at a position keeps its state while the kind at
that position stays the same, and is created anew otherwise.  A state is
made from a configuration once, when the child is created.

    reconcile es ws   the children after a rebuild of `es` from `ws`
    Shows es ws       the children are those of `ws`, as far as `view` tells

What can be seen of a child, its `view`, depends on its kind and its state.  A
rebuild of children that show one list shows the next exactly when the two
lists agree, in what `view` tells, wherever they agree in kind
(`shows_reconcile_iff`).

Nothing here names a program.
-/
import Mathlib.Data.List.Basic

namespace CalendarApp.Lib

/-- A child: what it is, and the state it holds. -/
structure Element (κ σ : Type*) where
  kind : κ
  state : σ
  deriving DecidableEq, Repr

variable {ω κ σ ν : Type*} (kind : ω → κ) (create : ω → σ) (view : κ → σ → ν)

/-- The children look like children just created. -/
structure Shows (es : List (Element κ σ)) (ws : List ω) : Prop where
  kinds : es.map Element.kind = ws.map kind
  views : es.map (fun e => view e.kind e.state) = ws.map (fun w => view (kind w) (create w))

/-- Two lists agree in `view` wherever they agree in kind. -/
def Agree (old new : List ω) : Prop :=
  ∀ p ∈ old.zip new, kind p.1 = kind p.2 →
    view (kind p.1) (create p.1) = view (kind p.2) (create p.2)

section Lists

variable {kind create view}

theorem agree_nil (ws : List ω) : Agree kind create view [] ws := nofun

theorem agree_nil_right (ws : List ω) : Agree kind create view ws [] := by
  rw [Agree, List.zip_nil_right]
  exact nofun

theorem agree_cons {w w' : ω} {ws ws' : List ω} :
    Agree kind create view (w :: ws) (w' :: ws') ↔
      (kind w = kind w' → view (kind w) (create w) = view (kind w') (create w')) ∧
        Agree kind create view ws ws' :=
  List.forall_mem_cons

theorem shows_cons {e : Element κ σ} {es : List (Element κ σ)} {w : ω} {ws : List ω} :
    Shows kind create view (e :: es) (w :: ws) ↔
      (e.kind = kind w ∧ view e.kind e.state = view (kind w) (create w)) ∧
        Shows kind create view es ws := by
  constructor
  · rintro ⟨hk, hv⟩
    obtain ⟨hk₀, hk⟩ := List.cons.inj hk
    obtain ⟨hv₀, hv⟩ := List.cons.inj hv
    exact ⟨⟨hk₀, hv₀⟩, hk, hv⟩
  · rintro ⟨⟨hk₀, hv₀⟩, hk, hv⟩
    exact ⟨congrArg₂ List.cons hk₀ hk, congrArg₂ List.cons hv₀ hv⟩

/-- A change of one child and of its configuration that keeps them alike. -/
theorem Shows.modify {f : Element κ σ → Element κ σ} {g : ω → ω} {es : List (Element κ σ)}
    {ws : List ω} {i : Nat} (h : Shows kind create view es ws)
    (hstep : ∀ e w, es[i]? = some e → e.kind = kind w →
      view e.kind e.state = view (kind w) (create w) →
        (f e).kind = kind (g w) ∧
          view (f e).kind (f e).state = view (kind (g w)) (create (g w))) :
    Shows kind create view (es.modify i f) (ws.modify i g) := by
  induction es generalizing ws i with
  | nil =>
      cases ws with
      | nil =>
          rw [List.modify_nil, List.modify_nil]
          exact h
      | cons w ws => exact nomatch h.kinds
  | cons e es ih =>
      cases ws with
      | nil => exact nomatch h.kinds
      | cons w ws =>
          obtain ⟨⟨hk, hv⟩, htail⟩ := shows_cons.mp h
          cases i with
          | zero => exact shows_cons.mpr ⟨hstep e w rfl hk hv, htail⟩
          | succ i => exact shows_cons.mpr ⟨⟨hk, hv⟩, ih htail hstep⟩

end Lists

variable [DecidableEq κ]

instance [DecidableEq ν] (old new : List ω) : Decidable (Agree kind create view old new) :=
  inferInstanceAs (Decidable (∀ _ ∈ _, _ → _))

/-- The children after a rebuild. -/
def reconcile : List (Element κ σ) → List ω → List (Element κ σ)
  | _, [] => []
  | [], w :: ws => ⟨kind w, create w⟩ :: reconcile [] ws
  | e :: es, w :: ws =>
      (if e.kind = kind w then e else ⟨kind w, create w⟩) :: reconcile es ws

variable {kind create view}

@[simp] theorem map_kind_reconcile (es : List (Element κ σ)) (ws : List ω) :
    (reconcile kind create es ws).map Element.kind = ws.map kind := by
  induction ws generalizing es with
  | nil => rw [reconcile, List.map_nil, List.map_nil]
  | cons w ws ih =>
      cases es with
      | nil => rw [reconcile, List.map_cons, List.map_cons, ih]
      | cons e es =>
          rw [reconcile, List.map_cons, List.map_cons, ih]
          split
          · next h => rw [h]
          · rfl

/-- The child at an index: the old one if its kind is kept, else a new one. -/
theorem getElem?_reconcile (es : List (Element κ σ)) (ws : List ω) (i : Nat) :
    (reconcile kind create es ws)[i]? = ws[i]?.map fun w =>
      (es[i]?.filter fun e => e.kind = kind w).getD ⟨kind w, create w⟩ := by
  induction ws generalizing es i with
  | nil => rw [reconcile, List.getElem?_nil, List.getElem?_nil, Option.map_none]
  | cons w ws ih =>
      cases es with
      | nil =>
          cases i with
          | zero => rfl
          | succ i =>
              rw [reconcile, List.getElem?_cons_succ, ih]
              rfl
      | cons e es =>
          cases i with
          | zero =>
              simp only [reconcile, List.getElem?_cons_zero, Option.map_some, Option.filter_some,
                decide_eq_true_eq]
              split <;> rfl
          | succ i =>
              rw [reconcile, List.getElem?_cons_succ, List.getElem?_cons_succ,
                List.getElem?_cons_succ, ih]

theorem shows_reconcile_nil (ws : List ω) :
    Shows kind create view (reconcile kind create [] ws) ws := by
  induction ws with
  | nil => exact ⟨rfl, rfl⟩
  | cons w ws ih =>
      rw [reconcile]
      exact shows_cons.mpr ⟨⟨rfl, rfl⟩, ih⟩

/-- The rebuild shows the new list exactly when it agrees with the old one. -/
theorem shows_reconcile_iff {es : List (Element κ σ)} {old ws : List ω}
    (h : Shows kind create view es old) :
    Shows kind create view (reconcile kind create es ws) ws ↔
      Agree kind create view old ws := by
  induction es generalizing old ws with
  | nil =>
      cases old with
      | nil => exact iff_of_true (shows_reconcile_nil ws) (agree_nil ws)
      | cons w old => exact nomatch h.kinds
  | cons e es ih =>
      cases old with
      | nil => exact nomatch h.kinds
      | cons w old =>
          obtain ⟨⟨hk, hv⟩, htail⟩ := shows_cons.mp h
          cases ws with
          | nil =>
              rw [reconcile]
              exact iff_of_true ⟨rfl, rfl⟩ (agree_nil_right _)
          | cons w' ws =>
              rw [reconcile, shows_cons, agree_cons, ih htail]
              refine and_congr_left' ?_
              by_cases hkind : e.kind = kind w'
              · rw [if_pos hkind, ← hv, ← hk]
                exact ⟨fun hshow _ => hshow.2, fun hagree => ⟨hkind, hagree hkind⟩⟩
              · rw [if_neg hkind, ← hk]
                exact iff_of_true ⟨rfl, rfl⟩ fun hc => absurd hc hkind

end CalendarApp.Lib
