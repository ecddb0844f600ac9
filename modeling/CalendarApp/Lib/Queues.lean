/-
# `Lib.Queues` — writers that queue their requests

Any number of writers send requests to one server.  Each writer has a queue
of its own, and the server takes requests off the heads of the queues, in
any order across the queues.

    send q d rs    writer d appends rs to its queue
    pop q d        the first request of d has left

A total over finitely many writers changes by what one of them changes
(`sum_update`).  What a writer has sent is `Conserved`: it has been taken, or
waits, or was dropped, and the order of sending stays.

A request may rely on facts: `needs r` are the facts that must hold when it
is taken, and `gives r` the facts that hold from then on.  A queue is
`Backed` by a set of facts if every request in it needs only facts of the
set or facts given by an earlier request of the same queue.  Facts only grow,
so a backed queue stays backed whatever the other writers do, and the
request at its head has what it needs (`Backed.head`).

Nothing here names a program.
-/
import Mathlib.Data.Set.Basic
import Mathlib.Logic.Function.Basic
import Mathlib.Algebra.BigOperators.Group.Finset.Piecewise
import Mathlib.Data.Fintype.Basic

namespace CalendarApp.Lib

variable {ρ φ : Type*}

/-! ## The queues -/

section Update

variable {ι : Type*} [DecidableEq ι] {q : ι → List ρ} {d e : ι} {rs : List ρ} {r : ρ}

theorem mem_update_append :
    r ∈ Function.update q d (q d ++ rs) e ↔ r ∈ q e ∨ e = d ∧ r ∈ rs := by
  by_cases hed : e = d
  · subst hed
    rw [Function.update_self, List.mem_append]
    exact or_congr_right (and_iff_right rfl).symm
  · rw [Function.update_of_ne hed]
    exact (or_iff_left fun h => hed h.1).symm

theorem mem_of_mem_update (hsub : rs ⊆ q d) (h : r ∈ Function.update q d rs e) : r ∈ q e := by
  by_cases hed : e = d
  · subst hed
    rw [Function.update_self] at h
    exact hsub h
  · rwa [Function.update_of_ne hed] at h

theorem mem_update_of_mem {head : ρ} (hq : q d = head :: rs) (h : r ∈ q e) :
    e = d ∧ r = head ∨ r ∈ Function.update q d rs e := by
  by_cases hed : e = d
  · subst hed
    rw [hq] at h
    rw [Function.update_self]
    exact (List.mem_cons.mp h).imp_left fun hr => ⟨rfl, hr⟩
  · rw [Function.update_of_ne hed]
    exact Or.inr h

end Update

/-- The writer `d` sends `rs`. -/
def send (queue : Nat → List ρ) (d : Nat) (rs : List ρ) : Nat → List ρ :=
  Function.update queue d (queue d ++ rs)

/-- The first request of `d` leaves its queue. -/
def pop (queue : Nat → List ρ) (d : Nat) : Nat → List ρ :=
  Function.update queue d (queue d).tail

theorem mem_send {queue : Nat → List ρ} {d e : Nat} {rs : List ρ} {r : ρ} :
    r ∈ send queue d rs e ↔ r ∈ queue e ∨ e = d ∧ r ∈ rs :=
  mem_update_append

theorem mem_of_mem_pop {queue : Nat → List ρ} {d e : Nat} {r : ρ} (h : r ∈ pop queue d e) :
    r ∈ queue e :=
  mem_of_mem_update (List.tail_subset _) h

theorem mem_pop_of_mem {queue : Nat → List ρ} {d e : Nat} {r head : ρ} {rs : List ρ}
    (hq : queue d = head :: rs) (h : r ∈ queue e) : e = d ∧ r = head ∨ r ∈ pop queue d e := by
  rw [pop, hq, List.tail_cons]
  exact mem_update_of_mem hq h

theorem forall_pop {P : Nat → List ρ → Prop} {queue : Nat → List ρ} {d : Nat}
    (h : ∀ e, P e (queue e)) (hd : P d (queue d).tail) : ∀ e, P e (pop queue d e) :=
  (Function.forall_update_iff queue P).mpr ⟨hd, fun e _ => h e⟩

theorem forall_send {P : Nat → List ρ → Prop} {queue : Nat → List ρ} {d : Nat} {rs : List ρ}
    (h : ∀ e, P e (queue e)) (hd : P d (queue d ++ rs)) : ∀ e, P e (send queue d rs e) :=
  (Function.forall_update_iff queue P).mpr ⟨hd, fun e _ => h e⟩

/-- A total over the writers after the value of one of them has changed. -/
theorem sum_update {ι β : Type*} [Fintype ι] [DecidableEq ι] (f : β → Nat) (g : ι → β) (i : ι)
    (x : β) :
    ∑ j, f (Function.update g i x j) + f (g i) = ∑ j, f (g j) + f x := by
  have hrest : ∀ j ∈ Finset.univ.erase i, f (Function.update g i x j) = f (g j) := by
    intro j hj
    rw [Function.update_of_ne (Finset.ne_of_mem_erase hj)]
  rw [← Finset.sum_erase_add _ _ (Finset.mem_univ i),
    ← Finset.sum_erase_add (Finset.univ) (fun j => f (g j)) (Finset.mem_univ i),
    Finset.sum_congr rfl hrest, Function.update_self, Nat.add_right_comm]

/-- An order in which each of finitely many writers has its turns. -/
theorem exists_schedule {n : Nat → Nat} {S : Finset Nat} (h : ∀ d ∉ S, n d = 0) :
    ∃ schedule : List Nat, ∀ d, schedule.count d = n d := by
  refine ⟨(∑ e ∈ S, Multiset.replicate (n e) e).toList, fun d => ?_⟩
  rw [← Multiset.coe_count, Multiset.coe_toList, Multiset.count_sum']
  simp only [Multiset.count_replicate, Finset.sum_ite_eq']
  split
  · rfl
  · next hd => exact (h d hd).symm

/-! ## What became of what was sent -/

/-- The requests of `d` in a list of requests and their writers. -/
def ofWriter (d : Nat) (l : List (Nat × ρ)) : List ρ :=
  (l.filter fun p => p.1 = d).map Prod.snd

theorem ofWriter_append (d : Nat) (l l' : List (Nat × ρ)) :
    ofWriter d (l ++ l') = ofWriter d l ++ ofWriter d l' := by
  rw [ofWriter, List.filter_append, List.map_append]
  rfl

theorem ofWriter_tagged (d e : Nat) (rs : List ρ) :
    ofWriter d (rs.map fun r => (e, r)) = if e = d then rs else [] := by
  simp only [ofWriter, List.filter_map, List.map_map, Function.comp_def]
  split
  · next hed => simp [hed]
  · next hed => simp [hed]

theorem perm_of_ofWriter [DecidableEq ρ] {l l' : List (Nat × ρ)}
    (h : ∀ d, ofWriter d l = ofWriter d l') : l.Perm l' := by
  have hcount : ∀ (l : List (Nat × ρ)) (d : Nat) (r : ρ),
      l.count (d, r) = (ofWriter d l).count r := by
    intro l d r
    induction l with
    | nil => rfl
    | cons p l ih =>
        obtain ⟨e, r'⟩ := p
        simp only [ofWriter] at ih ⊢
        rw [List.count_cons, ih, List.filter_cons]
        by_cases hed : e = d
        · simp [hed, List.count_cons]
        · simp [hed]
  refine List.perm_iff_count.mpr fun ⟨d, r⟩ => ?_
  rw [hcount, hcount, h]

/-- Of what a writer has sent, `out` has been taken, `q` waits, and so many
were dropped, all of it in the order of sending. -/
structure Conserved (sent out q : List ρ) (dropped : Nat) : Prop where
  inOrder : (out ++ q).Sublist sent
  length : sent.length = out.length + q.length + dropped

section Conserved

variable {sent out q rs : List ρ} {r : ρ} {n : Nat}

theorem Conserved.start : Conserved ([] : List ρ) [] [] 0 := ⟨.slnil, rfl⟩

theorem Conserved.send (h : Conserved sent out q n) (rs : List ρ) :
    Conserved (sent ++ rs) out (q ++ rs) n where
  inOrder := by
    rw [← List.append_assoc]
    exact h.inOrder.append_right rs
  length := by
    rw [List.length_append, List.length_append, h.length]
    omega

theorem Conserved.take (h : Conserved sent out (r :: q) n) : Conserved sent (out ++ [r]) q n where
  inOrder := by
    rw [List.append_assoc]
    exact h.inOrder
  length := by
    rw [List.length_append, h.length, List.length_cons, List.length_singleton]
    omega

theorem Conserved.drop (h : Conserved sent out (r :: q) n) : Conserved sent out q (n + 1) where
  inOrder := ((List.sublist_cons_self r q).append_left out).trans h.inOrder
  length := by
    rw [h.length, List.length_cons]
    omega

/-- Where nothing was dropped, what was sent has been taken or waits. -/
theorem Conserved.eq (h : Conserved sent out q 0) : out ++ q = sent := by
  refine h.inOrder.eq_of_length ?_
  rw [List.length_append, h.length]
  rfl

end Conserved

/-! ## Facts that requests rely on -/

variable (needs gives : ρ → Set φ)

/-- Every request finds the facts it needs in `F` or among those given before
it. -/
def Backed : Set φ → List ρ → Prop
  | _, [] => True
  | F, r :: q => needs r ⊆ F ∧ Backed (F ∪ gives r) q

variable {needs gives}

theorem Backed.mono : ∀ {F G : Set φ} {q : List ρ},
    Backed needs gives F q → F ⊆ G → Backed needs gives G q
  | _, _, [], _, _ => trivial
  | _, _, _ :: _, ⟨hr, hq⟩, hFG =>
      ⟨hr.trans hFG, hq.mono (Set.union_subset_union_left _ hFG)⟩

theorem Backed.append : ∀ {F : Set φ} {q rs : List ρ},
    Backed needs gives F q → Backed needs gives F rs → Backed needs gives F (q ++ rs)
  | _, [], _, _, hrs => hrs
  | _, _ :: _, _, ⟨hr, hq⟩, hrs => ⟨hr, hq.append (hrs.mono Set.subset_union_left)⟩

/-- The head of a backed queue has what it needs. -/
theorem Backed.head {F : Set φ} {r : ρ} {q : List ρ} (h : Backed needs gives F (r :: q)) :
    needs r ⊆ F := h.1

theorem Backed.tail {F G : Set φ} {r : ρ} {q : List ρ} (h : Backed needs gives F (r :: q))
    (hF : F ⊆ G) (hr : gives r ⊆ G) : Backed needs gives G q :=
  h.2.mono (Set.union_subset hF hr)

end CalendarApp.Lib
