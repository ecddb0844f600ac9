/-
# `Event.Detail` — the participants of an event

`_EventDetailState.build` collects the photos of the users who take part in the
event, in the order of the `users` collection, and makes a tile for each, with
the name of the user that has the same index in the whole collection.

    photos   documents that participate     [0]  [1]  [2]  …
    names    all documents                  [0]  [1]  [2]  …

Each tile shows one person exactly when the names of the participants are the
first names of the collection (`onePersonEach_iff`): when the participants come
first, and where no two users have the same name, only then.
-/
import CalendarApp.Account.Profile
import CalendarApp.Lib.Lists

namespace CalendarApp

open Lib

/-- `documents[i]['id'].toString()` -/
def UserDoc.idText (d : UserDoc) : String := d.id.getD "null"

/-- An item of the grid: `iconBlock(url, replacing)` or `iconAdd()`. -/
inductive Icon where
  | block (url replacing : Option String)
  | add
  deriving DecidableEq, Repr

/-- What a tile of a participant is given. -/
def Icon.person : Icon → Option (Option String × Option String)
  | .block url replacing => some (url, replacing)
  | .add => none

namespace EventDetail

variable (documents : List UserDoc) (parti : List String)

/-- The documents that pass the test of the loop. -/
def participating : List UserDoc := documents.filter fun d => parti.contains d.idText

/-- `icons`: the photos that the loop collects. -/
def icons : List (Option String) := (participating documents parti).map UserDoc.photoUrl

/-- An index outside a list throws. -/
def itemBuilder (i : Nat) : Option Icon :=
  if i = (icons documents parti).length then some .add
  else (icons documents parti)[i]?.bind fun url =>
    documents[i]?.map fun d => .block url d.username

/-- The grid, for a snapshot of the `users` collection. -/
def build : Option (List Icon) :=
  if documents.length > 0 then
    (List.range ((icons documents parti).length + 1)).mapM (itemBuilder documents parti)
  else some []

/-- There is one tile for each document that participates, in their order, with
the photo and the name of that document. -/
def OnePersonEach : Prop :=
  (build documents parti).map (List.filterMap Icon.person) =
    some ((participating documents parti).map fun d => (d.photoUrl, d.username))

theorem build_eq (hne : documents ≠ []) : build documents parti =
    some (((participating documents parti).zip documents).map
      (fun p => .block p.1.photoUrl p.2.username) ++ [.add]) := by
  have hle : (participating documents parti).length ≤ documents.length := List.length_filter_le ..
  have hlen : (icons documents parti).length = (participating documents parti).length :=
    List.length_map _
  rw [build, if_pos (List.length_pos_of_ne_nil hne), mapM_some_iff, List.range_succ,
    List.map_append, List.map_append]
  congr 1
  · refine List.ext_getElem ?_ ?_
    · simp only [List.length_map, List.length_range, List.length_zip, hlen]
      omega
    · intro i h₁ h₂
      have hi : i < (participating documents parti).length := by
        rw [← hlen]
        simpa only [List.length_map, List.length_range] using h₁
      have hi' : i < documents.length := Nat.lt_of_lt_of_le hi hle
      simp only [List.getElem_map, List.getElem_range, List.getElem_zip, itemBuilder, hlen,
        if_neg (Nat.ne_of_lt hi)]
      simp only [icons, List.getElem?_map, List.getElem?_eq_getElem hi,
        List.getElem?_eq_getElem hi', Option.map_some, Option.bind_some]
  · rw [List.map_singleton, itemBuilder, if_pos rfl]
    rfl

theorem persons_build : (build documents parti).map (List.filterMap Icon.person) =
    some (((participating documents parti).zip documents).map
      fun p => (p.1.photoUrl, p.2.username)) := by
  by_cases hne : documents = []
  · subst hne
    rfl
  · rw [build_eq documents parti hne, Option.map_some, List.filterMap_append, List.filterMap_map]
    have hperson : (Icon.person ∘ fun p : UserDoc × UserDoc =>
        Icon.block p.1.photoUrl p.2.username) =
        some ∘ fun p => (p.1.photoUrl, p.2.username) := rfl
    rw [hperson, List.filterMap_eq_map]
    exact congrArg some (List.append_nil _)

/-- Each tile shows one person exactly when the names of the participants are
the first names of the collection; which is so when the participants come first,
and where all names differ, only then. -/
theorem onePersonEach_iff :
    (OnePersonEach documents parti ↔
      (participating documents parti).map UserDoc.username <+: documents.map UserDoc.username) ∧
    (participating documents parti <+: documents → OnePersonEach documents parti) ∧
    ((documents.map UserDoc.username).Nodup →
      (OnePersonEach documents parti ↔ participating documents parti <+: documents)) := by
  have hexact : OnePersonEach documents parti ↔
      (participating documents parti).map UserDoc.username <+:
        documents.map UserDoc.username := by
    rw [OnePersonEach, persons_build, Option.some.injEq]
    exact zip_map_eq_iff (List.length_filter_le ..)
  have hprefix : participating documents parti <+: documents → OnePersonEach documents parti :=
    fun h => hexact.mpr (h.map UserDoc.username)
  refine ⟨hexact, hprefix, fun hnodup => ⟨fun h => ?_, hprefix⟩⟩
  exact prefix_of_map_prefix hnodup List.filter_sublist (hexact.mp h)

/-- Bob takes part and Alice does not: his photo has her name. -/
theorem onePersonEach_bob_fails : ¬ ∀ documents parti, OnePersonEach documents parti := by
  intro h
  have hbob := h
    [⟨some "a", some "Alice", none, none, none, some "alice.png"⟩,
      ⟨some "b", some "Bob", none, none, none, some "bob.png"⟩] ["b"]
  exact absurd hbob (by rw [OnePersonEach]; decide)

end EventDetail

end CalendarApp
