/-
# `Lib.Collection` — documents under their ids

A collection keeps one document under each id.  It is an association list
without duplicate keys, and three writes change it.

    create id x   puts a document under an id not in use
    insert id x   puts a document under an id, whatever was there
    update id f   changes the document under an id, if there is one

After each of them the collection holds the new document under the id, and
what it held before under every other (`lookup_insert_eq`).  The order of the
documents says nothing: two collections are the same data when no id tells
them apart (`changed`), and the documents with a property are counted through
an `insert` (`count_insert_new`, `count_insert_old`).  A collection `Grows` if
what it held it still holds, changed by a given relation at most.

Nothing here names a program.
-/
import Mathlib.Data.List.AList
import Mathlib.Data.Fintype.EquivFin

namespace CalendarApp.Lib

/-- Documents under ids. -/
abbrev Collection (α : Type*) := AList (fun _ : String => α)

namespace Collection

variable {α : Type*} {c c' : Collection α} {id id' : String} {x y : α}

/-- A new document, under an id that is not in use. -/
def create (id : String) (x : α) (c : Collection α) : Option (Collection α) :=
  if (c.lookup id).isSome then none else some (c.insert id x)

/-- A change to the document under an id. -/
def update (id : String) (f : α → α) (c : Collection α) : Option (Collection α) :=
  (c.lookup id).map fun x => c.insert id (f x)

/-- The documents. -/
def docs (c : Collection α) : List α := c.entries.map Sigma.snd

/-- The documents with their ids, as a query without an order gives them. -/
def documents (c : Collection α) : List (String × α) := c.entries.map fun e => (e.1, e.2)

theorem mem_documents {p : String × α} : p ∈ c.documents ↔ c.lookup p.1 = some p.2 := by
  simp only [documents, List.mem_map]
  constructor
  · rintro ⟨e, hmem, rfl⟩
    exact AList.mem_lookup_iff.mpr hmem
  · intro h
    exact ⟨⟨p.1, p.2⟩, AList.mem_lookup_iff.mp h, rfl⟩

theorem nodup_documents (c : Collection α) : (c.documents.map Prod.fst).Nodup := by
  have hkeys : c.documents.map Prod.fst = c.entries.keys := by
    rw [documents, List.map_map]
    rfl
  rw [hkeys]
  exact c.nodupKeys

theorem lookup_insert_eq (c : Collection α) (id id' : String) (x : α) :
    (c.insert id x).lookup id' = if id' = id then some x else c.lookup id' := by
  split
  · next h =>
      subst h
      exact AList.lookup_insert c
  · next h => exact AList.lookup_insert_ne h

theorem create_eq_some : c.create id x = some c' ↔ c.lookup id = none ∧ c.insert id x = c' := by
  simp only [create]
  cases hid : c.lookup id with
  | none => simp
  | some y => simp

theorem update_eq_some {f : α → α} :
    c.update id f = some c' ↔ ∃ x, c.lookup id = some x ∧ c.insert id (f x) = c' :=
  Option.map_eq_some_iff

theorem mem_docs : x ∈ c.docs ↔ ∃ id, c.lookup id = some x := by
  simp only [docs, List.mem_map]
  constructor
  · rintro ⟨⟨id, x⟩, hmem, rfl⟩
    exact ⟨id, AList.mem_lookup_iff.mpr hmem⟩
  · rintro ⟨id, hid⟩
    exact ⟨⟨id, x⟩, AList.mem_lookup_iff.mp hid, rfl⟩

theorem forall_insert {P : String → α → Prop} (h : ∀ id x, c.lookup id = some x → P id x)
    (hx : P id x) : ∀ id' y, (c.insert id x).lookup id' = some y → P id' y := by
  intro id' y hy
  rw [lookup_insert_eq] at hy
  split at hy
  · next hid =>
      cases hy
      rw [hid]
      exact hx
  · exact h id' y hy

theorem exists_unused (c : Collection α) : ∃ id, c.lookup id = none := by
  obtain ⟨id, hid⟩ := Infinite.exists_notMem_finset c.keys.toFinset
  refine ⟨id, AList.lookup_eq_none.mpr fun hmem => hid ?_⟩
  exact List.mem_toFinset.mpr (AList.mem_keys.mp hmem)

/-! ## The data of a collection -/

/-- Some id has another document in `c'` than in `c`. -/
def changed [DecidableEq α] (c c' : Collection α) : Bool :=
  (c.keys ++ c'.keys).any fun id => c'.lookup id ≠ c.lookup id

theorem changed_eq_false [DecidableEq α] :
    c.changed c' = false ↔ ∀ id, c'.lookup id = c.lookup id := by
  simp only [changed, List.any_eq_false, decide_eq_true_eq, Decidable.not_not, List.mem_append]
  constructor
  · intro h id
    by_cases hid : id ∈ c.keys ∨ id ∈ c'.keys
    · exact h id hid
    · rw [not_or] at hid
      rw [AList.lookup_eq_none.mpr (mt AList.mem_keys.mp hid.1),
        AList.lookup_eq_none.mpr (mt AList.mem_keys.mp hid.2)]
  · exact fun h id _ => h id

theorem changed_insert [DecidableEq α] :
    c.changed (c.insert id x) = true ↔ c.lookup id ≠ some x := by
  rw [← Bool.not_eq_false, changed_eq_false, not_iff_not]
  constructor
  · intro h
    rw [← h id, AList.lookup_insert]
  · intro h id'
    rw [lookup_insert_eq]
    split
    · next hid => rw [hid, h]
    · rfl

/-- The number of documents with a property. -/
def count (p : α → Bool) (c : Collection α) : Nat := c.docs.countP p

theorem perm_of_lookup (h : ∀ id, c'.lookup id = c.lookup id) : c'.entries.Perm c.entries := by
  refine List.lookup_ext c'.nodupKeys c.nodupKeys fun id x => ?_
  change x ∈ c'.lookup id ↔ x ∈ c.lookup id
  rw [h]

theorem count_insert (p : α → Bool) (c : Collection α) (id : String) (x : α) :
    count p (c.insert id x) = count p (c.erase id) + if p x then 1 else 0 := by
  simp only [count, docs, AList.entries_insert, List.map_cons, List.countP_cons]
  rfl

theorem count_insert_new {p : α → Bool} (h : c.lookup id = none) :
    count p (c.insert id x) = count p c + if p x then 1 else 0 := by
  simp only [count, docs, AList.entries_insert_of_notMem (AList.lookup_eq_none.mp h),
    List.map_cons, List.countP_cons]

theorem count_insert_old {p : α → Bool} (h : c.lookup id = some y) :
    count p (c.insert id x) + (if p y then 1 else 0) = count p c + if p x then 1 else 0 := by
  have hperm : (c.insert id y).entries.Perm c.entries := by
    refine perm_of_lookup fun id' => ?_
    rw [lookup_insert_eq]
    split
    · next hid => rw [hid, h]
    · rfl
  have hsame : count p (c.insert id y) = count p c := by
    simp only [count, docs]
    exact (hperm.map Sigma.snd).countP_eq p
  rw [count_insert] at hsame
  rw [count_insert, ← hsame, Nat.add_right_comm]

theorem map_docs_insert_old {β : Type*} [DecidableEq β] {f : α → β} (h : c.lookup id = some y)
    (hf : f x = f y) : ((docs (c.insert id x)).map f).Perm ((docs c).map f) := by
  refine List.perm_iff_count.mpr fun b => ?_
  have hcount := @count_insert_old α c id x y (fun z => f z == b) h
  rw [hf] at hcount
  rw [List.count_eq_countP, List.count_eq_countP, List.countP_map, List.countP_map]
  exact Nat.add_right_cancel hcount

theorem docs_insert_new (h : c.lookup id = none) : docs (c.insert id x) = x :: docs c := by
  simp only [docs, AList.entries_insert_of_notMem (AList.lookup_eq_none.mp h), List.map_cons]

/-! ## Collections that grow -/

/-- Every document of `c` is still there, changed by `R` at most. -/
def Grows (R : α → α → Prop) (c c' : Collection α) : Prop :=
  ∀ id x, c.lookup id = some x → ∃ x', c'.lookup id = some x' ∧ R x x'

variable {R : α → α → Prop}

theorem Grows.refl (hR : ∀ x, R x x) (c : Collection α) : Grows R c c :=
  fun _ x hx => ⟨x, hx, hR x⟩

theorem Grows.trans {c'' : Collection α} (hR : ∀ x y z, R x y → R y z → R x z)
    (h : Grows R c c') (h' : Grows R c' c'') : Grows R c c'' := by
  intro id x hx
  obtain ⟨x', hx', hxx'⟩ := h id x hx
  obtain ⟨x'', hx'', hxx''⟩ := h' id x' hx'
  exact ⟨x'', hx'', hR x x' x'' hxx' hxx''⟩

/-- A document may be put where there was none, and where there was one it may
be changed by `R`. -/
theorem grows_insert (hR : ∀ x, R x x) (h : ∀ y, c.lookup id = some y → R y x) :
    Grows R c (c.insert id x) := by
  intro id' y hy
  rw [lookup_insert_eq]
  split
  · next hid => exact ⟨x, rfl, h y (hid ▸ hy)⟩
  · exact ⟨y, hy, hR y⟩

end Collection

end CalendarApp.Lib
