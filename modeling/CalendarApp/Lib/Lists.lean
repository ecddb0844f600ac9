/-
# `Lib.Lists` — loops over lists

A loop that collects a result for every element, and stops at the first
element without one, is `List.mapM` in `Option`.  It returns `r` exactly when
the results of the elements are those in `r`, in order (`mapM_some_iff`), and
it returns at all exactly when every element has a result
(`mapM_isSome_iff`).

A loop that reads a second list at the indices of the first pairs each element
with the one at its place.  It finds there what the element has itself exactly
when that is a prefix of what the second list has (`zip_map_eq_iff`).

Two texts in one layout have the same parts if the parts do not contain the
separator (`append_sep_inj`).

The elements of a list are the one at an index and those that are left without
it (`mem_iff_eraseIdx`), also after that one is replaced (`mem_set_iff`).

A list is cut into parts where two given elements follow each other
(`splitPair`).  It has a second part exactly when they do somewhere
(`splitPair_second`).

Nothing here names a program.
-/
import Mathlib.Data.List.Basic
import Mathlib.Data.List.Infix

namespace CalendarApp.Lib

theorem mapM_some_iff {α β : Type*} {f : α → Option β} :
    ∀ {l : List α} {r : List β}, l.mapM f = some r ↔ l.map f = r.map some
  | [], r => by
      cases r with
      | nil => exact iff_of_true rfl rfl
      | cons b r => exact iff_of_false nofun nofun
  | a :: l, r => by
      rw [List.mapM_cons, List.map_cons]
      cases hfa : f a with
      | none =>
          cases r with
          | nil => exact iff_of_false nofun nofun
          | cons b r => exact iff_of_false nofun fun h => nomatch (List.cons.inj h).1
      | some b =>
          simp only [Option.bind_eq_bind, Option.bind_some, Option.bind_eq_some_iff]
          constructor
          · rintro ⟨bs, hbs, hr⟩
            cases hr
            rw [List.map_cons, mapM_some_iff.mp hbs]
          · intro h
            cases r with
            | nil => cases h
            | cons b' r =>
                obtain ⟨hb, hl⟩ := List.cons.inj h
                exact ⟨r, mapM_some_iff.mpr hl, by rw [Option.some.inj hb]; rfl⟩

theorem length_of_mapM {α β : Type*} {f : α → Option β} {l : List α} {r : List β}
    (h : l.mapM f = some r) : r.length = l.length := by
  have hlen := congrArg List.length (mapM_some_iff.mp h)
  rw [List.length_map, List.length_map] at hlen
  exact hlen.symm

theorem map_of_mapM {α β γ : Type*} {f : α → Option β} {g : β → γ} {g' : α → γ}
    {l : List α} {r : List β} (h : l.mapM f = some r)
    (hg : ∀ a b, f a = some b → g b = g' a) : r.map g = l.map g' := by
  have hmap := mapM_some_iff.mp h
  induction l generalizing r with
  | nil =>
      cases r with
      | nil => rfl
      | cons b r => cases hmap
  | cons a l ih =>
      cases r with
      | nil => cases hmap
      | cons b r =>
          obtain ⟨hab, htail⟩ := List.cons.inj hmap
          rw [List.map_cons, List.map_cons, hg a b hab, ih (mapM_some_iff.mpr htail) htail]

theorem mapM_isSome_iff {α β : Type*} {f : α → Option β} {l : List α} :
    (l.mapM f).isSome = true ↔ ∀ a ∈ l, (f a).isSome = true := by
  rw [Option.isSome_iff_exists]
  constructor
  · rintro ⟨r, hr⟩ a ha
    have hmem := List.mem_map_of_mem (f := f) ha
    rw [mapM_some_iff.mp hr] at hmem
    obtain ⟨b, -, hb⟩ := List.mem_map.mp hmem
    rw [← hb]
    rfl
  · intro h
    refine ⟨l.filterMap f, mapM_some_iff.mpr ?_⟩
    induction l with
    | nil => rfl
    | cons a l ih =>
        obtain ⟨b, hb⟩ := Option.isSome_iff_exists.mp (h a List.mem_cons_self)
        rw [List.map_cons, List.filterMap_cons_some hb, List.map_cons, hb,
          ih fun a ha => h a (List.mem_cons_of_mem _ ha)]

theorem mapM_bind_mapM {α β γ : Type*} (f : α → Option β) (g : β → Option γ) :
    ∀ l : List α, (l.mapM f).bind (fun r => r.mapM g) = l.mapM fun a => (f a).bind g
  | [] => rfl
  | a :: l => by
      have ih := mapM_bind_mapM f g l
      simp only [List.mapM_cons, Option.bind_eq_bind, Option.pure_def] at ih ⊢
      rw [← ih]
      cases f a with
      | none => rfl
      | some b =>
          cases l.mapM f with
          | none =>
              simp only [Option.bind_some, Option.bind_none]
              cases g b <;> rfl
          | some bs =>
              simp only [Option.bind_some]
              rw [List.mapM_cons]
              rfl

theorem map_mapM {α β γ : Type*} (f : α → Option β) (g : β → γ) (l : List α) :
    (l.mapM f).map (List.map g) = l.mapM fun a => (f a).map g := by
  have hpure : ∀ r : List β, r.mapM (some ∘ g) = some (r.map g) := fun r =>
    mapM_some_iff.mpr (List.map_map ..).symm
  have hone : (fun a => (f a).bind (some ∘ g)) = fun a => (f a).map g :=
    funext fun a => Option.map_eq_bind.symm
  rw [← hone, ← mapM_bind_mapM f (some ∘ g) l]
  cases l.mapM f with
  | none => rfl
  | some r => exact (hpure r).symm

/-- Beside each element stands what it has itself. -/
theorem zip_map_eq_iff {α β γ : Type*} {f : α → β} {g : α → γ} :
    ∀ {l m : List α}, l.length ≤ m.length →
      ((l.zip m).map (fun p => (f p.1, g p.2)) = l.map (fun a => (f a, g a)) ↔
        l.map g <+: m.map g)
  | [], m, _ => iff_of_true rfl (List.nil_prefix)
  | a :: l, [], h => absurd h (Nat.not_succ_le_zero _)
  | a :: l, b :: m, h => by
      have ih := zip_map_eq_iff (f := f) (g := g) (Nat.le_of_succ_le_succ h)
      simp only [List.zip_cons_cons, List.map_cons, List.cons.injEq, Prod.mk.injEq, true_and,
        List.cons_prefix_cons, ih]
      exact and_congr_left fun _ => eq_comm

theorem prefix_of_map_prefix {α γ : Type*} {g : α → γ} : ∀ {l m : List α}, (m.map g).Nodup →
    l.Sublist m → l.map g <+: m.map g → l <+: m
  | [], _, _, _, _ => List.nil_prefix
  | a :: l, [], _, hsub, _ => nomatch hsub
  | a :: l, b :: m, hnodup, hsub, hpre => by
      obtain ⟨hb, hm⟩ := List.nodup_cons.mp hnodup
      obtain ⟨hab, htail⟩ := List.cons_prefix_cons.mp hpre
      cases hsub with
      | cons _ hsub' =>
          -- then the first element would be met twice
          have hmem := List.mem_map_of_mem (f := g) (hsub'.subset List.mem_cons_self)
          rw [hab] at hmem
          exact absurd hmem hb
      | cons_cons _ hsub' =>
          exact List.cons_prefix_cons.mpr ⟨rfl, prefix_of_map_prefix hm hsub' htail⟩

/-- What stands before the first `a`, and what stands after it, can be read off
a list. -/
theorem append_sep_inj {α : Type*} {a : α} :
    ∀ {l l' r r' : List α}, a ∉ l → a ∉ l' →
      (l ++ a :: r = l' ++ a :: r' ↔ l = l' ∧ r = r')
  | [], [], r, r', _, _ => by
      simp only [List.nil_append, List.cons.injEq, true_and]
  | [], x :: l', r, r', _, h' => by
      refine iff_of_false (fun h => h' ?_) (fun h => List.cons_ne_nil x l' h.1.symm)
      rw [(List.cons.inj h).1]
      exact List.mem_cons_self
  | x :: l, [], r, r', h, _ => by
      refine iff_of_false (fun heq => h ?_) (fun heq => List.cons_ne_nil x l heq.1)
      rw [← (List.cons.inj heq).1]
      exact List.mem_cons_self
  | x :: l, y :: l', r, r', h, h' => by
      have ih : l ++ a :: r = l' ++ a :: r' ↔ l = l' ∧ r = r' :=
        append_sep_inj (mt (List.mem_cons_of_mem x) h) (mt (List.mem_cons_of_mem y) h')
      rw [List.cons_append, List.cons_append, List.cons.injEq, List.cons.injEq, ih, and_assoc]

/-- The parts of a list between the places where `a` is followed by `b`. -/
def splitPair {α : Type*} [DecidableEq α] (a b : α) : List α → List (List α)
  | [] => [[]]
  | [x] => [[x]]
  | x :: y :: l =>
      if x = a ∧ y = b then [] :: splitPair a b l
      else match splitPair a b (y :: l) with
        | [] => [[x]]
        | p :: ps => (x :: p) :: ps

theorem splitPair_ne_nil {α : Type*} [DecidableEq α] (a b : α) : ∀ l : List α, splitPair a b l ≠ []
  | [] => nofun
  | [_] => nofun
  | x :: y :: l => by
      rw [splitPair]
      split
      · exact nofun
      · split <;> exact nofun

/-- There is a second part exactly when `a` is followed by `b` somewhere. -/
theorem splitPair_second {α : Type*} [DecidableEq α] (a b : α) : ∀ l : List α,
    (splitPair a b l)[1]?.isSome = true ↔ [a, b] <:+: l
  | [] => iff_of_false nofun fun h => absurd h.length_le (Nat.not_succ_le_zero 1)
  | [x] => iff_of_false nofun fun h => absurd h.length_le (Nat.not_succ_le_self 1)
  | x :: y :: l => by
      rw [splitPair, List.infix_cons_iff]
      split
      · next hab =>
          obtain ⟨rfl, rfl⟩ := hab
          refine iff_of_true ?_ (Or.inl ⟨l, rfl⟩)
          cases hparts : splitPair x y l with
          | nil => exact absurd hparts (splitPair_ne_nil x y l)
          | cons p ps => rfl
      · next hab =>
          have ih := splitPair_second a b (y :: l)
          have hfirst : ¬ [a, b] <+: x :: y :: l := by
            intro h
            obtain ⟨ha, h⟩ := List.cons_prefix_cons.mp h
            obtain ⟨hb, -⟩ := List.cons_prefix_cons.mp h
            exact hab ⟨ha.symm, hb.symm⟩
          rw [or_iff_right hfirst, ← ih]
          split
          · next h => exact absurd h (splitPair_ne_nil a b _)
          · next p ps h => rw [h]; rfl

/-! ## One element and the others -/

theorem mem_set_iff {α : Type*} {l : List α} {i : Nat} {a b x : α} (h : l[i]? = some b) :
    x ∈ l.set i a ↔ x = a ∨ x ∈ l.eraseIdx i := by
  have hi : i < l.length := (List.getElem?_eq_some_iff.mp h).1
  rw [List.mem_iff_getElem?, List.mem_eraseIdx_iff_getElem?]
  constructor
  · rintro ⟨j, hj⟩
    by_cases hij : i = j
    · subst hij
      rw [List.getElem?_set_self hi] at hj
      exact Or.inl (Option.some.inj hj).symm
    · rw [List.getElem?_set_ne hij] at hj
      exact Or.inr ⟨j, Ne.symm hij, hj⟩
  · rintro (rfl | ⟨j, hij, hj⟩)
    · exact ⟨i, List.getElem?_set_self hi⟩
    · exact ⟨j, by rw [List.getElem?_set_ne (Ne.symm hij), hj]⟩

theorem mem_iff_eraseIdx {α : Type*} {l : List α} {i : Nat} {a x : α} (h : l[i]? = some a) :
    x ∈ l ↔ x = a ∨ x ∈ l.eraseIdx i := by
  obtain ⟨hi, ha⟩ := List.getElem?_eq_some_iff.mp h
  have hset : l.set i a = l := by rw [← ha, List.set_getElem_self]
  rw [← mem_set_iff h, hset]

end CalendarApp.Lib
