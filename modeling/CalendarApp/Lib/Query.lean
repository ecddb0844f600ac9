/-
# `Lib.Query` — ordered queries over documents with ids

A query orders the documents by a key, and two documents with the same key by
their ids, in the same direction.

    orderBy key            ascending, by key and then by id
    orderByDescending key  descending, by key and then by id

With one document under each id the order is total, so the two directions are
each other's reverse (`orderByDescending_eq`), and the first document of either
is the one before all others (`head?_orderBy`); it exists as soon as there is a
document (`head?_orderBy_eq_none`).

Nothing here names a program.
-/
import Mathlib.Data.List.Sort
import Mathlib.Data.Prod.Lex

namespace CalendarApp.Lib.Query

variable {κ ν τ : Type*} [LinearOrder κ] [LinearOrder τ]

/-- `p` is not after `q`, by the key and then by the id. -/
def NotAfter (key : ν → τ) (p q : κ × ν) : Prop :=
  key p.2 < key q.2 ∨ key p.2 = key q.2 ∧ p.1 ≤ q.1

instance (key : ν → τ) (p q : κ × ν) : Decidable (NotAfter key p q) :=
  inferInstanceAs (Decidable (_ ∨ _ ∧ _))

/-- `orderBy(key)`. -/
def orderBy (key : ν → τ) (documents : List (κ × ν)) : List (κ × ν) :=
  documents.mergeSort fun p q => NotAfter key p q

/-- `orderBy(key, descending: true)`. -/
def orderByDescending (key : ν → τ) (documents : List (κ × ν)) : List (κ × ν) :=
  documents.mergeSort fun p q => NotAfter key q p

variable {key : ν → τ} {documents : List (κ × ν)} {p q r : κ × ν}

/-! ## The order -/

theorem NotAfter.trans (hpq : NotAfter key p q) (hqr : NotAfter key q r) : NotAfter key p r := by
  rcases hpq with hlt | ⟨heq, hle⟩
  · rcases hqr with hlt' | ⟨heq', -⟩
    · exact Or.inl (hlt.trans hlt')
    · exact Or.inl (heq' ▸ hlt)
  · rcases hqr with hlt' | ⟨heq', hle'⟩
    · exact Or.inl (heq ▸ hlt')
    · exact Or.inr ⟨heq.trans heq', hle.trans hle'⟩

theorem notAfter_total (key : ν → τ) (p q : κ × ν) : NotAfter key p q ∨ NotAfter key q p := by
  rcases lt_trichotomy (key p.2) (key q.2) with hlt | heq | hgt
  · exact Or.inl (Or.inl hlt)
  · exact (le_total p.1 q.1).imp (fun h => Or.inr ⟨heq, h⟩) fun h => Or.inr ⟨heq.symm, h⟩
  · exact Or.inr (Or.inl hgt)

theorem NotAfter.antisymm (hpq : NotAfter key p q) (hqp : NotAfter key q p) : p.1 = q.1 := by
  rcases hpq with hlt | ⟨heq, hle⟩
  · rcases hqp with hlt' | ⟨heq', -⟩
    · exact absurd hlt' hlt.asymm
    · exact absurd heq' hlt.ne'
  · rcases hqp with hlt' | ⟨-, hle'⟩
    · exact absurd heq.symm hlt'.ne
    · exact le_antisymm hle hle'

theorem NotAfter.key_le (h : NotAfter key p q) : key p.2 ≤ key q.2 :=
  h.elim le_of_lt fun h => h.1.le

/-! ## The query -/

@[simp] theorem mem_orderBy : p ∈ orderBy key documents ↔ p ∈ documents := List.mem_mergeSort

@[simp] theorem mem_orderByDescending : p ∈ orderByDescending key documents ↔ p ∈ documents :=
  List.mem_mergeSort

/-- Sorting by a total order sorts. -/
theorem pairwise_sorted {α : Type*} {r : α → α → Prop} [DecidableRel r]
    (htrans : ∀ a b c, r a b → r b c → r a c) (htotal : ∀ a b, r a b ∨ r b a) (l : List α) :
    (l.mergeSort fun a b => r a b).Pairwise r := by
  have htrans' : ∀ a b c, decide (r a b) = true → decide (r b c) = true →
      decide (r a c) = true := by
    intro a b c hab hbc
    exact decide_eq_true (htrans a b c (of_decide_eq_true hab) (of_decide_eq_true hbc))
  have htotal' : ∀ a b, (decide (r a b) || decide (r b a)) = true := by
    intro a b
    rw [Bool.or_eq_true, decide_eq_true_eq, decide_eq_true_eq]
    exact htotal a b
  exact (List.pairwise_mergeSort htrans' htotal' l).imp of_decide_eq_true

theorem pairwise_orderBy (key : ν → τ) (documents : List (κ × ν)) :
    (orderBy key documents).Pairwise (NotAfter key) :=
  pairwise_sorted (fun _ _ _ hpq hqr => hpq.trans hqr) (notAfter_total key) documents

theorem pairwise_orderByDescending (key : ν → τ) (documents : List (κ × ν)) :
    (orderByDescending key documents).Pairwise fun p q => NotAfter key q p :=
  pairwise_sorted (fun _ _ _ hqp hrq => hrq.trans hqp) (fun p q => notAfter_total key q p)
    documents

/-- The two directions are each other's reverse. -/
theorem orderByDescending_eq (hids : (documents.map Prod.fst).Nodup) :
    orderByDescending key documents = (orderBy key documents).reverse := by
  have hperm : (orderByDescending key documents).Perm (orderBy key documents).reverse :=
    (List.mergeSort_perm ..).trans
      ((List.mergeSort_perm ..).symm.trans (List.reverse_perm _).symm)
  refine hperm.eq_of_pairwise ?_ (pairwise_orderByDescending key documents)
    (List.pairwise_reverse.mpr (pairwise_orderBy key documents))
  intro p q hp hq hqp hpq
  refine List.inj_on_of_nodup_map hids (mem_orderByDescending.mp hp) ?_ (hpq.antisymm hqp)
  exact mem_orderBy.mp (List.mem_reverse.mp hq)

theorem head?_orderBy_eq_none : (orderBy key documents).head? = none ↔ documents = [] := by
  rw [List.head?_eq_none_iff]
  constructor
  · intro h
    refine List.eq_nil_iff_forall_not_mem.mpr fun p hp => ?_
    exact List.not_mem_nil (h ▸ mem_orderBy.mpr hp)
  · rintro rfl
    exact List.mergeSort_nil

/-- The first document is before all others. -/
theorem head?_orderBy (hids : (documents.map Prod.fst).Nodup) :
    (orderBy key documents).head? = some p ↔
      p ∈ documents ∧ ∀ q ∈ documents, NotAfter key p q := by
  have hfirst : ∀ p, (orderBy key documents).head? = some p →
      p ∈ documents ∧ ∀ q ∈ documents, NotAfter key p q := by
    intro p h
    obtain ⟨rest, hrest⟩ := List.head?_eq_some_iff.mp h
    have hsorted := hrest ▸ pairwise_orderBy key documents
    refine ⟨mem_orderBy.mp (hrest ▸ List.mem_cons_self), fun q hq => ?_⟩
    rcases List.mem_cons.mp (hrest ▸ mem_orderBy.mpr hq) with rfl | hq
    · exact Or.inr ⟨rfl, le_rfl⟩
    · exact List.rel_of_pairwise_cons hsorted hq
  refine ⟨hfirst p, ?_⟩
  rintro ⟨hp, hall⟩
  cases hhead : (orderBy key documents).head? with
  | none => exact absurd hp (by rw [head?_orderBy_eq_none.mp hhead]; exact List.not_mem_nil)
  | some q =>
      obtain ⟨hq, hleast⟩ := hfirst q hhead
      rw [List.inj_on_of_nodup_map hids hq hp ((hleast p hp).antisymm (hall q hq))]

end CalendarApp.Lib.Query
