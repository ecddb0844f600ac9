/-
# `Lib.Interleave` — writers whose requests commute

A request may be refused.  Two requests that are both possible in a state
swap if each is possible after the other, with equivalent results
(`Swaps.swap`).  Then what a list of requests leads to does not depend on how
the writers were interleaved: two lists with the same requests of each
writer, in the order of the writer, lead from equivalent states to equivalent
states (`Swaps.interleave`).

A request that is possible first can be taken before the requests of others
that came before it (`Swaps.toFront`); the theorem sorts one list into the other
that way, request by request.

The states for which this is used are cells that hold a document or nothing.
A request touches one cell: it creates, puts or changes the document there.
Requests to different cells always swap, and requests to one cell swap if
their operations on it commute (`swaps_touch`).  Two requests of one list that
create are to different cells, since the second one would be refused
(`pairwise_cell`), so nothing is asked of them (`alike_of_ofWriter`).

Nothing here names a program.
-/
import CalendarApp.Lib.Queues

namespace CalendarApp.Lib

variable {σ ρ : Type*}

/-- Independent requests that are possible in a state swap, up to `E`. -/
structure Swaps (f : σ → ρ → Option σ) (E : σ → σ → Prop) (Indep : ρ → ρ → Prop) : Prop where
  equivalence : Equivalence E
  congr : ∀ {s t r s'}, E s t → f s r = some s' → ∃ t', f t r = some t' ∧ E s' t'
  swap : ∀ {s r r' s₁ s₂}, Indep r r' → f s r = some s₁ → f s r' = some s₂ →
    ∃ t t', f s₁ r' = some t ∧ f s₂ r = some t' ∧ E t t'

theorem ofWriter_cons (d e : Nat) (r : ρ) (l : List (Nat × ρ)) :
    ofWriter d ((e, r) :: l) = if e = d then r :: ofWriter d l else ofWriter d l := by
  simp only [ofWriter, List.filter_cons]
  by_cases hed : e = d
  · simp [hed]
  · simp [hed]

theorem mem_ofWriter {d : Nat} {r : ρ} {l : List (Nat × ρ)} : r ∈ ofWriter d l ↔ (d, r) ∈ l := by
  simp only [ofWriter, List.mem_map, List.mem_filter, decide_eq_true_eq]
  constructor
  · rintro ⟨⟨e, r'⟩, ⟨hmem, rfl⟩, rfl⟩
    exact hmem
  · exact fun hmem => ⟨(d, r), ⟨hmem, rfl⟩, rfl⟩

theorem ofWriter_eq_nil {d : Nat} {l : List (Nat × ρ)} (h : ∀ x ∈ l, x.1 ≠ d) :
    ofWriter d l = [] := by
  rw [ofWriter, List.map_eq_nil_iff, List.filter_eq_nil_iff]
  exact fun x hx hd => h x hx (of_decide_eq_true hd)

/-- Two lists have the same requests of each writer.  The first request of one is
the first of its writer in the other, and without it they still have the
same. -/
theorem exists_split {d : Nat} {r : ρ} {l l' : List (Nat × ρ)}
    (h : ∀ e, ofWriter e ((d, r) :: l) = ofWriter e l') :
    ∃ p q, l' = p ++ (d, r) :: q ∧ (∀ x ∈ p, x.1 ≠ d) ∧
      ∀ e, ofWriter e l = ofWriter e (p ++ q) := by
  have hd := (h d).symm
  rw [ofWriter_cons, if_pos rfl] at hd
  obtain ⟨x, l₁, hfilter, hx, -⟩ := List.map_eq_cons_iff.mp hd
  obtain ⟨p, q, rfl, hp, hxd, -⟩ := List.filter_eq_cons_iff.mp hfilter
  obtain rfl : x = (d, r) := Prod.ext (of_decide_eq_true hxd) hx
  have hp : ∀ x ∈ p, x.1 ≠ d := fun x hx hd => hp x hx (decide_eq_true hd)
  refine ⟨p, q, rfl, hp, fun e => ?_⟩
  have he := h e
  rw [ofWriter_append, ofWriter_cons, ofWriter_cons] at he
  rw [ofWriter_append]
  split at he
  · next hde =>
      subst hde
      rw [ofWriter_eq_nil hp, List.nil_append] at he ⊢
      exact (List.cons.inj he).2
  · exact he

namespace Swaps

variable {f : σ → ρ → Option σ} {E : σ → σ → Prop} {Indep : ρ → ρ → Prop}

/-- Equivalent states have equivalent results. -/
theorem foldlM_congr (h : Swaps f E Indep) : ∀ {rs : List ρ} {s t s' : σ}, E s t →
    rs.foldlM f s = some s' → ∃ t', rs.foldlM f t = some t' ∧ E s' t'
  | [], _, t, _, hE, hs => by
      cases hs
      exact ⟨t, rfl, hE⟩
  | r :: rs, _, t, _, hE, hs => by
      obtain ⟨s₁, hr, hrs⟩ := Option.bind_eq_some_iff.mp hs
      obtain ⟨t₁, hr', hE₁⟩ := h.congr hE hr
      obtain ⟨t', hrs', hE'⟩ := h.foldlM_congr hE₁ hrs
      exact ⟨t', Option.bind_eq_some_iff.mpr ⟨t₁, hr', hrs'⟩, hE'⟩

/-- A request that is possible now can be taken now, before the requests it is
independent of. -/
theorem front (h : Swaps f E Indep) {r : ρ} : ∀ {rs : List ρ} {s s₁ t t₁ : σ},
    (∀ r' ∈ rs, Indep r r') → f s r = some s₁ → rs.foldlM f s = some t → f t r = some t₁ →
      ∃ t', rs.foldlM f s₁ = some t' ∧ E t₁ t'
  | [], _, s₁, _, _, _, hr, hrs, ht => by
      cases hrs
      obtain rfl := Option.some.inj (hr.symm.trans ht)
      exact ⟨s₁, rfl, h.equivalence.refl s₁⟩
  | r' :: rs, _, _, _, _, hind, hr, hrs, ht => by
      obtain ⟨hr', htail⟩ := List.forall_mem_cons.mp hind
      obtain ⟨s₂, hs₂, hrs⟩ := Option.bind_eq_some_iff.mp hrs
      obtain ⟨u, u', hu, hu', hE⟩ := h.swap hr' hr hs₂
      obtain ⟨v, hv, hEv⟩ := h.front htail hu' hrs ht
      -- the rest is possible from `u'`, and so from `u`, which is equivalent
      obtain ⟨t', ht', hE'⟩ := h.foldlM_congr (h.equivalence.symm hE) hv
      exact ⟨t', Option.bind_eq_some_iff.mpr ⟨u, hu, ht'⟩, h.equivalence.trans hEv hE'⟩

/-- A request that is possible now can be moved to the front of a list. -/
theorem toFront (h : Swaps f E Indep) {r : ρ} {p q : List ρ} {s s₁ t : σ}
    (hind : ∀ r' ∈ p, Indep r r') (hr : f s r = some s₁)
    (hl : (p ++ r :: q).foldlM f s = some t) : ∃ t', (p ++ q).foldlM f s₁ = some t' ∧ E t t' := by
  rw [List.foldlM_append] at hl ⊢
  obtain ⟨u, hu, hl⟩ := Option.bind_eq_some_iff.mp hl
  obtain ⟨u₁, hu₁, hl⟩ := Option.bind_eq_some_iff.mp hl
  obtain ⟨v, hv, hE⟩ := h.front hind hr hu hu₁
  obtain ⟨t', ht', hE'⟩ := h.foldlM_congr hE hl
  exact ⟨t', Option.bind_eq_some_iff.mpr ⟨v, hv, ht'⟩, hE'⟩

/-- The interleaving of independent writers does not matter. -/
theorem interleave (h : Swaps f E Indep) : ∀ {l l' : List (Nat × ρ)} {s s' t t' : σ},
    (∀ d, ofWriter d l = ofWriter d l') →
    (∀ x ∈ l, ∀ y ∈ l', x.1 ≠ y.1 → Indep x.2 y.2) → E s s' →
    (l.map Prod.snd).foldlM f s = some t → (l'.map Prod.snd).foldlM f s' = some t' → E t t'
  | [], [], _, _, _, _, _, _, hE, hl, hl' => by
      cases hl
      cases hl'
      exact hE
  | [], (d, r) :: l', _, _, _, _, hsame, _, _, _, _ => by
      have hd := hsame d
      rw [ofWriter_cons, if_pos rfl] at hd
      cases hd
  | (d, r) :: l, l', s, s', t, t', hsame, hind, hE, hl, hl' => by
      obtain ⟨p, q, rfl, hp, hrest⟩ := exists_split hsame
      obtain ⟨s₁, hs₁, hl⟩ := Option.bind_eq_some_iff.mp hl
      obtain ⟨s₁', hs₁', hE₁⟩ := h.congr hE hs₁
      have hpind : ∀ r' ∈ p.map Prod.snd, Indep r r' := by
        intro r' hr'
        obtain ⟨y, hy, rfl⟩ := List.mem_map.mp hr'
        exact hind (d, r) List.mem_cons_self y (List.mem_append_left _ hy) (hp y hy).symm
      -- the request of `d` is taken first in the second list too
      rw [List.map_append, List.map_cons] at hl'
      obtain ⟨t₂, ht₂, hEt⟩ := h.toFront hpind hs₁' hl'
      rw [← List.map_append] at ht₂
      have hind' : ∀ x ∈ l, ∀ y ∈ p ++ q, x.1 ≠ y.1 → Indep x.2 y.2 := by
        intro x hx y hy
        refine hind x (List.mem_cons_of_mem _ hx) y ?_
        rw [List.mem_append, List.mem_cons]
        exact (List.mem_append.mp hy).imp_right Or.inr
      exact h.equivalence.trans (h.interleave hrest hind' hE₁ hl ht₂) (h.equivalence.symm hEt)

end Swaps

/-! ## Requests that touch one cell -/

/-- What a request does to its cell. -/
inductive Op (δ : Type*) where
  /-- puts a document into an empty cell -/
  | create (x : δ)
  /-- puts a document, whatever was there -/
  | put (x : δ)
  /-- changes the document that is there -/
  | change (f : δ → Option δ)

section Cells

variable {κ δ : Type*} {S : δ → δ → Prop}

namespace Op

def run : Op δ → Option δ → Option δ
  | .create x, none => some x
  | .put x, _ => some x
  | .change f, some y => f y
  | _, _ => none

/-- The order of two operations that are both possible on a cell does not
matter, up to `S`. -/
def Commutes (S : δ → δ → Prop) : Op δ → Op δ → Prop
  | .create _, .change _ => True
  | .change _, .create _ => True
  | .put x, .put y => S y x
  | .change f, .change g => ∀ {x y z}, f x = some y → g x = some z →
      ∃ y' z', g y = some y' ∧ f z = some z' ∧ S y' z'
  | _, _ => False

/-- Documents that `S` relates have related changes. -/
def Respects (S : δ → δ → Prop) : Op δ → Prop
  | .change f => ∀ {x x' y}, S x x' → f x = some y → ∃ y', f x' = some y' ∧ S y y'
  | _ => True

theorem Respects.run {op : Op δ} (h : op.Respects S) (hS : Equivalence S) {o o' : Option δ}
    {x : δ} (ho : Option.Rel S o o') (hx : op.run o = some x) :
    ∃ y, op.run o' = some y ∧ S x y := by
  cases op with
  | create z =>
      cases ho with
      | some _ => cases hx
      | none => exact ⟨x, hx, hS.refl x⟩
  | put z => exact ⟨x, hx, hS.refl x⟩
  | change f =>
      cases ho with
      | some hxy => exact h hxy hx
      | none => cases hx

theorem Commutes.run {op op' : Op δ} (h : op.Commutes S op') {o : Option δ} {x y : δ}
    (hx : op.run o = some x) (hy : op'.run o = some y) :
    ∃ z z', op'.run (some x) = some z ∧ op.run (some y) = some z' ∧ S z z' := by
  cases op with
  | create z =>
      cases op' with
      | create _ => exact h.elim
      | put _ => exact h.elim
      | change g =>
          -- the cell is empty, or it is not
          cases o with
          | none => cases hy
          | some _ => cases hx
  | put z =>
      cases op' with
      | create _ => exact h.elim
      | put z' => exact ⟨z', z, rfl, rfl, h⟩
      | change _ => exact h.elim
  | change f =>
      cases op' with
      | create _ =>
          cases o with
          | none => cases hx
          | some _ => cases hy
      | put _ => exact h.elim
      | change g =>
          cases o with
          | none => cases hx
          | some w => exact h hx hy

end Op

/-- The same cells are filled, with documents that `S` relates. -/
def Alike (S : δ → δ → Prop) (s t : κ → Option δ) : Prop := ∀ k, Option.Rel S (s k) (t k)

theorem rel_symm (hS : Equivalence S) {o o' : Option δ} :
    Option.Rel S o o' → Option.Rel S o' o
  | .some h => .some (hS.symm h)
  | .none => .none

theorem rel_trans (hS : Equivalence S) {o o' o'' : Option δ} :
    Option.Rel S o o' → Option.Rel S o' o'' → Option.Rel S o o''
  | .some h, .some h' => .some (hS.trans h h')
  | .none, .none => .none

theorem equivalence_alike (hS : Equivalence S) :
    Equivalence (Alike S : (κ → Option δ) → (κ → Option δ) → Prop) where
  refl s k := by
    cases s k with
    | none => exact .none
    | some x => exact .some (hS.refl x)
  symm := fun h k => rel_symm hS (h k)
  trans := fun h h' k => rel_trans hS (h k) (h' k)

variable [DecidableEq κ] (cell : ρ → κ) (op : ρ → Op δ)

/-- The cells after a request, if its cell allows it. -/
def touch (s : κ → Option δ) (r : ρ) : Option (κ → Option δ) :=
  ((op r).run (s (cell r))).map fun x => Function.update s (cell r) (some x)

variable {cell op} {s t s' : κ → Option δ} {r : ρ}

theorem touch_eq_some :
    touch cell op s r = some s' ↔
      ∃ x, (op r).run (s (cell r)) = some x ∧ Function.update s (cell r) (some x) = s' :=
  Option.map_eq_some_iff

theorem touch_isSome (h : touch cell op s r = some s') {k : κ} (hk : (s k).isSome) :
    (s' k).isSome := by
  obtain ⟨x, -, rfl⟩ := touch_eq_some.mp h
  by_cases hkr : k = cell r
  · rw [hkr, Function.update_self]
    rfl
  · rwa [Function.update_of_ne hkr]

theorem touch_cell (h : touch cell op s r = some s') : (s' (cell r)).isSome := by
  obtain ⟨x, -, rfl⟩ := touch_eq_some.mp h
  rw [Function.update_self]
  rfl

/-- A request that needs an empty cell touches none that is filled, and none
that an earlier request has touched. -/
theorem pairwise_cell : ∀ {rs : List ρ} {s t : κ → Option δ},
    rs.foldlM (touch cell op) s = some t →
      (∀ k, (s k).isSome → ∀ r ∈ rs, ∀ x, op r = .create x → cell r ≠ k) ∧
        rs.Pairwise fun r r' => ∀ x, op r' = .create x → cell r' ≠ cell r
  | [], _, _, _ => ⟨fun _ _ _ hr => (nomatch hr), .nil⟩
  | r :: rs, s, _, h => by
      obtain ⟨s₁, hs₁, hrs⟩ := Option.bind_eq_some_iff.mp h
      obtain ⟨hfilled, hrest⟩ := pairwise_cell hrs
      refine ⟨fun k hk r' hr' x hx => ?_,
        List.pairwise_cons.mpr ⟨fun r' hr' x hx => ?_, hrest⟩⟩
      · rcases List.mem_cons.mp hr' with rfl | hr'
        · rintro rfl
          obtain ⟨y, hy⟩ := Option.isSome_iff_exists.mp hk
          obtain ⟨z, hz, -⟩ := touch_eq_some.mp hs₁
          rw [hx, hy] at hz
          cases hz
        · exact hfilled k (touch_isSome hs₁ hk) r' hr' x hx
      · exact hfilled (cell r) (touch_cell hs₁) r' hr' x hx

theorem Alike.update (h : Alike S s t) {k : κ} {x y : δ} (hxy : S x y) :
    Alike S (Function.update s k (some x)) (Function.update t k (some y)) := by
  intro j
  by_cases hj : j = k
  · subst hj
    rw [Function.update_self, Function.update_self]
    exact .some hxy
  · rw [Function.update_of_ne hj, Function.update_of_ne hj]
    exact h j

/-- Requests swap if those to one cell commute. -/
theorem swaps_touch (hS : Equivalence S) (hop : ∀ r, (op r).Respects S) :
    Swaps (touch cell op) (Alike S)
      fun r r' => cell r = cell r' → (op r).Commutes S (op r') where
  equivalence := equivalence_alike hS
  congr := by
    intro s t r s' hE h
    obtain ⟨x, hx, rfl⟩ := touch_eq_some.mp h
    obtain ⟨y, hy, hxy⟩ := (hop r).run hS (hE (cell r)) hx
    exact ⟨_, touch_eq_some.mpr ⟨y, hy, rfl⟩, hE.update hxy⟩
  swap := by
    intro s r r' s₁ s₂ hind h₁ h₂
    obtain ⟨x, hx, rfl⟩ := touch_eq_some.mp h₁
    obtain ⟨y, hy, rfl⟩ := touch_eq_some.mp h₂
    by_cases hcell : cell r = cell r'
    · obtain ⟨z, z', hz, hz', hzz⟩ := (hind hcell).run hx (hcell ▸ hy)
      refine ⟨_, _, touch_eq_some.mpr ⟨z, ?_, rfl⟩, touch_eq_some.mpr ⟨z', ?_, rfl⟩, ?_⟩
      · rw [← hcell, Function.update_self]
        exact hz
      · rw [hcell, Function.update_self]
        exact hz'
      · rw [hcell, Function.update_idem, Function.update_idem]
        exact ((equivalence_alike hS).refl s).update hzz
    · refine ⟨_, _, touch_eq_some.mpr ⟨y, ?_, rfl⟩, touch_eq_some.mpr ⟨x, ?_, rfl⟩, ?_⟩
      · rw [Function.update_of_ne (Ne.symm hcell)]
        exact hy
      · rw [Function.update_of_ne hcell]
        exact hx
      · rw [Function.update_comm hcell]
        exact (equivalence_alike hS).refl _

/-- The interleaving of writers does not matter if the operations of different
writers on one cell commute.  Two of them that create never meet. -/
theorem alike_of_ofWriter (hS : Equivalence S) (hop : ∀ r, (op r).Respects S)
    {l l' : List (Nat × ρ)} {s t t' : κ → Option δ}
    (hsame : ∀ d, ofWriter d l = ofWriter d l')
    (hcomm : ∀ x ∈ l, ∀ y ∈ l, x.1 ≠ y.1 → cell x.2 = cell y.2 →
      (op x.2).Commutes S (op y.2) ∨ ∃ z z', op x.2 = .create z ∧ op y.2 = .create z')
    (hl : (l.map Prod.snd).foldlM (touch cell op) s = some t)
    (hl' : (l'.map Prod.snd).foldlM (touch cell op) s = some t') : Alike S t t' := by
  have hpair : l.Pairwise fun x y => ∀ z z', op x.2 = .create z → op y.2 = .create z' →
      cell x.2 ≠ cell y.2 := by
    refine (List.pairwise_map.mp (pairwise_cell hl).2).imp fun h z z' _ hz' heq => ?_
    exact h z' hz' heq.symm
  refine (swaps_touch hS hop).interleave hsame ?_ ((equivalence_alike hS).refl s) hl hl'
  intro x hx y hy hne hcell
  have hy : y ∈ l := mem_ofWriter.mp (hsame y.1 ▸ mem_ofWriter.mpr hy)
  rcases hcomm x hx y hy hne hcell with hcomm | ⟨z, z', hz, hz'⟩
  · exact hcomm
  · have hsymm : Std.Symm fun x y : Nat × ρ => ∀ z z', op x.2 = .create z →
        op y.2 = .create z' → cell x.2 ≠ cell y.2 :=
      ⟨fun _ _ h z z' hz hz' heq => h z' z hz' hz heq.symm⟩
    exact absurd hcell (hpair.forall hx hy (fun h => hne (congrArg Prod.fst h)) z z' hz hz')

end Cells

end CalendarApp.Lib
