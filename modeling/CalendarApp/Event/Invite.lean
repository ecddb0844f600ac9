/-
# `Event.Invite` — the invitation sheet, event_invite.dart

The sheet keeps its selection by position, in a list of 100 flags that it
fills once, while the list of users is rebuilt on every snapshot of the
`users` collection.

    build            a tile for every user, from the flag at its position
    invite i         turns the flag at position i
    sendInvitation   writes to the users now standing on the turned positions

Users join the collection and documents change position, so a snapshot may
carry a flag from one user to another.  The selection is the users who were
picked exactly as long as every snapshot

    puts a picked user on every turned position, and
    puts nobody but participants beyond the flags        (`reachesPicked_iff`)

Nothing is asked of the taps.
-/
import CalendarApp.Chat.Room
import CalendarApp.Lib.Lists
import CalendarApp.Lib.Run
import Mathlib.Data.List.Nodup
import Mathlib.Data.List.Perm.Subperm

namespace CalendarApp

open Lib

/-! ## The sheet -/

/-- The state of `_InviteEventState`; no snapshot yet is the empty list of
users. -/
structure InviteSheet where
  isInvited : List Bool
  users : List UserModal
  parti : List String
  deriving DecidableEq, Repr

/-- What `userBlock` builds. -/
inductive Tile where
  | empty
  | user (photo : String) (invited : Bool)
  deriving DecidableEq, Repr

namespace InviteSheet

/-- `initState()`. -/
def initState (parti : List String) : InviteSheet where
  isInvited := List.replicate 100 false
  users := []
  parti := parti

/-- The builder of the stream, for a snapshot. -/
def receive (documents : List UserModal) (s : InviteSheet) : InviteSheet :=
  if documents.length > 0 then { s with users := documents } else s

/-- `userBlock(user, index)`; `none` is an index error. -/
def userBlock (s : InviteSheet) (user : UserModal) (index : Nat) : Option Tile :=
  if user.id ∈ s.parti then some .empty else s.isInvited[index]?.map (Tile.user user.photo)

/-- The tiles of the grid. -/
def tiles (s : InviteSheet) : Option (List Tile) :=
  s.users.zipIdx.mapM fun p => s.userBlock p.1 p.2

/-- `invite(i)`. -/
def invite (i : Nat) (s : InviteSheet) : Option InviteSheet :=
  s.isInvited[i]?.map fun b => { s with isInvited := s.isInvited.set i !b }

/-- The positions whose flag is set. -/
def flagged (s : InviteSheet) : List Nat :=
  (List.range s.isInvited.length).filter fun i => s.isInvited[i]? = some true

/-- The id of the user at a position. -/
def idAt (s : InviteSheet) (i : Nat) : Option String := s.users[i]?.map UserModal.id

/-- `usersId`, the result of the first loop of `sendInvitation`. -/
def usersId (s : InviteSheet) : Option (List String) := s.flagged.mapM s.idAt

/-- `sendInvitation()`: the writes of its second loop, whose `i`-th pass runs
at `now i`. -/
def sendInvitation (hashCode : String → Int) (userId eventId : String) (now : Nat → Int)
    (s : InviteSheet) : Option (List Write) :=
  s.usersId.map fun ids =>
    ids.zipIdx.flatMap fun p => invitationTo hashCode userId eventId (now p.2) p.1

end InviteSheet

/-- A write that adds an invitation of the user `u`. -/
def Write.invites (u : String) : Write → Bool
  | addMessage _ message => message.idTo = u && message.type = 1
  | _ => false

/-! ## The open sheet -/

/-- The sheet, with the ids of the users whose tiles were tapped, tap by
tap. -/
structure InviteSession where
  sheet : InviteSheet
  taps : List String
  deriving DecidableEq, Repr

namespace InviteSession

inductive Action where
  | snapshot (documents : List UserModal)
  | tap (i : Nat)
  deriving DecidableEq, Repr

def opened (parti : List String) : InviteSession := ⟨InviteSheet.initState parti, []⟩

/-- A snapshot has every user once and loses none; a tap is on the tile of a
user who does not take part. -/
def step (s : InviteSession) : Action → Option InviteSession
  | .snapshot documents =>
      if (documents.map UserModal.id).Nodup ∧
          s.sheet.users.map UserModal.id ⊆ documents.map UserModal.id then
        some { s with sheet := s.sheet.receive documents }
      else none
  | .tap i =>
      match s.sheet.users[i]? with
      | none => none
      | some user =>
          if user.id ∈ s.sheet.parti then none
          else (s.sheet.invite i).map fun sheet => ⟨sheet, s.taps ++ [user.id]⟩

/-- The tile of `u` was tapped an odd number of times. -/
def Picked (s : InviteSession) (u : String) : Prop := s.taps.count u % 2 = 1

instance (s : InviteSession) (u : String) : Decidable (s.Picked u) :=
  inferInstanceAs (Decidable (_ = _))

/-- The tiles can be built, and `sendInvitation` would write one invitation
for every picked user, none for another user, and none for a participant. -/
structure ReachesPicked (hashCode : String → Int) (userId eventId : String) (now : Nat → Int)
    (s : InviteSession) : Prop where
  builds : s.sheet.tiles.isSome = true
  invites : ∃ writes, s.sheet.sendInvitation hashCode userId eventId now = some writes ∧
    ∀ u, writes.countP (Write.invites u) = if s.Picked u then 1 else 0
  parti : ∀ u ∈ s.sheet.parti, ¬ s.Picked u

/-- A snapshot leaves a picked user on every flagged position, and nobody but
participants beyond the flags. -/
def SnapshotKeeps (s : InviteSession) : Action → Prop
  | .snapshot documents =>
      (∀ i ∈ s.sheet.flagged, ∃ user ∈ documents[i]?, s.Picked user.id) ∧
        ∀ user ∈ documents.drop s.sheet.isInvited.length, user.id ∈ s.sheet.parti
  | .tap _ => True

instance (s : InviteSession) : ∀ a, Decidable (SnapshotKeeps s a)
  | .snapshot _ => inferInstanceAs (Decidable (_ ∧ _))
  | .tap _ => inferInstanceAs (Decidable True)

end InviteSession

/-! ## What the sheet builds and sends -/

namespace InviteSheet

variable {s : InviteSheet}

theorem mem_flagged {i : Nat} : i ∈ s.flagged ↔ s.isInvited[i]? = some true := by
  simp only [flagged, List.mem_filter, List.mem_range, decide_eq_true_eq, and_iff_right_iff_imp]
  intro h
  exact (List.getElem?_eq_some_iff.mp h).1

theorem nodup_flagged : s.flagged.Nodup := List.nodup_range.filter _

theorem idAt_injective (hnd : (s.users.map UserModal.id).Nodup) {i j : Nat} {u : String}
    (hi : s.idAt i = some u) (hj : s.idAt j = some u) : i = j := by
  simp only [idAt, ← List.getElem?_map] at hi hj
  obtain ⟨hlt, -⟩ := List.getElem?_eq_some_iff.mp hi
  exact (List.getElem?_inj hlt hnd).mp (hi.trans hj.symm)

theorem userBlock_isSome {user : UserModal} {i : Nat} :
    (s.userBlock user i).isSome = true ↔ (s.isInvited.length ≤ i → user.id ∈ s.parti) := by
  simp only [userBlock]
  split
  · next h => exact iff_of_true rfl fun _ => h
  · next h =>
      rw [Option.isSome_map]
      by_cases hlt : i < s.isInvited.length
      · rw [List.getElem?_eq_getElem hlt]
        exact iff_of_true rfl fun hle => absurd hlt (Nat.not_lt.mpr hle)
      · rw [List.getElem?_eq_none (Nat.not_lt.mp hlt)]
        exact iff_of_false nofun fun hle => h (hle (Nat.not_lt.mp hlt))

theorem tiles_isSome : s.tiles.isSome = true ↔
    ∀ user ∈ s.users.drop s.isInvited.length, user.id ∈ s.parti := by
  rw [tiles, mapM_isSome_iff]
  constructor
  · intro h user hmem
    obtain ⟨i, hi⟩ := List.mem_iff_getElem?.mp hmem
    rw [List.getElem?_drop] at hi
    exact userBlock_isSome.mp (h (user, _) (List.mk_mem_zipIdx_iff_getElem?.mpr hi))
      (Nat.le_add_right _ i)
  · rintro h ⟨user, i⟩ hmem
    refine userBlock_isSome.mpr fun hle => h user (List.mem_iff_getElem?.mpr
      ⟨i - s.isInvited.length, ?_⟩)
    rw [List.getElem?_drop, Nat.add_sub_cancel' hle]
    exact List.mk_mem_zipIdx_iff_getElem?.mp hmem

/-- Every invitee is written one invitation for each occurrence. -/
theorem countP_invitations (hashCode : String → Int) (userId eventId u : String)
    (now : Nat → Int) : ∀ (ids : List String) (n : Nat),
      ((ids.zipIdx n).flatMap fun p =>
        invitationTo hashCode userId eventId (now p.2) p.1).countP (Write.invites u) =
          ids.count u
  | [], _ => rfl
  | v :: ids, n => by
      rw [List.zipIdx_cons, List.flatMap_cons, List.countP_append,
        countP_invitations hashCode userId eventId u now ids (n + 1), List.count_cons,
        Nat.add_comm]
      congr 1
      simp only [invitationTo, List.countP_cons, List.countP_nil, Write.invites]
      by_cases huv : v = u <;> simp [huv]

theorem nodup_usersId (hnd : (s.users.map UserModal.id).Nodup) {ids : List String}
    (h : s.usersId = some ids) : ids.Nodup := by
  have hmap := mapM_some_iff.mp h
  have hsome : (ids.map some).Nodup := by
    rw [← hmap]
    refine nodup_flagged.map_on fun i hi j hj hij => ?_
    have hmem := List.mem_map_of_mem (f := s.idAt) hi
    rw [hmap] at hmem
    obtain ⟨u, -, hu⟩ := List.mem_map.mp hmem
    exact idAt_injective hnd hu.symm (hij.symm.trans hu.symm)
  exact hsome.of_map _

theorem mem_usersId {ids : List String} (h : s.usersId = some ids) {u : String} :
    u ∈ ids ↔ ∃ i ∈ s.flagged, s.idAt i = some u := by
  have hmap := mapM_some_iff.mp h
  rw [← List.mem_map_of_injective (Option.some_injective String), ← hmap, List.mem_map]

/-- What `sendInvitation` writes: it fails when a flagged position has no user,
and otherwise invites the users on the flagged positions, each once. -/
theorem sends_iff (hashCode : String → Int) (userId eventId : String) (now : Nat → Int)
    (hnd : (s.users.map UserModal.id).Nodup) (P : String → Prop) [DecidablePred P] :
    (∃ writes, s.sendInvitation hashCode userId eventId now = some writes ∧
        ∀ u, writes.countP (Write.invites u) = if P u then 1 else 0) ↔
      (∀ i ∈ s.flagged, (s.idAt i).isSome = true) ∧
        ∀ u, (∃ i ∈ s.flagged, s.idAt i = some u) ↔ P u := by
  have hcount : ∀ {ids : List String}, s.usersId = some ids → ∀ u,
      (ids.count u = if P u then 1 else 0) ↔ ((∃ i ∈ s.flagged, s.idAt i = some u) ↔ P u) := by
    intro ids hids u
    rw [← mem_usersId hids, (nodup_usersId hnd hids).count]
    by_cases hu : u ∈ ids <;> by_cases hp : P u <;> simp [hu, hp]
  rw [← mapM_isSome_iff, Option.isSome_iff_exists]
  constructor
  · rintro ⟨writes, hsend, hwrites⟩
    obtain ⟨ids, hids, rfl⟩ := Option.map_eq_some_iff.mp hsend
    refine ⟨⟨ids, hids⟩, fun u => (hcount hids u).mp ?_⟩
    rw [← countP_invitations hashCode userId eventId u now ids 0]
    exact hwrites u
  · rintro ⟨⟨ids, hids⟩, hpicked⟩
    refine ⟨_, congrArg (Option.map _) hids, fun u => ?_⟩
    rw [countP_invitations hashCode userId eventId u now ids 0]
    exact (hcount hids u).mpr (hpicked u)

end InviteSheet

/-! ## Steps -/

namespace InviteSession

variable {s s' : InviteSession}

/-- The snapshots and taps so far are those of an open sheet. -/
structure Valid (s : InviteSession) : Prop where
  nodup : (s.sheet.users.map UserModal.id).Nodup
  taps : ∀ u ∈ s.taps, u ∉ s.sheet.parti

/-- The flags mark the picked users: every flagged position has a user, and
these users are the picked ones. -/
structure Marks (s : InviteSession) : Prop where
  occupied : ∀ i ∈ s.sheet.flagged, (s.sheet.idAt i).isSome = true
  picked : ∀ u, (∃ i ∈ s.sheet.flagged, s.sheet.idAt i = some u) ↔ s.Picked u

theorem Valid.opened (parti : List String) : (opened parti).Valid :=
  ⟨List.nodup_nil, nofun⟩

theorem Marks.opened (parti : List String) : (opened parti).Marks := by
  have hnone : ∀ i, i ∉ (InviteSession.opened parti).sheet.flagged := by
    intro i hi
    have hget := InviteSheet.mem_flagged.mp hi
    exact absurd (List.eq_of_mem_replicate (List.mem_of_getElem? hget)) (by decide)
  refine ⟨fun i hi => absurd hi (hnone i), fun u => iff_of_false ?_ nofun⟩
  rintro ⟨i, hi, -⟩
  exact hnone i hi

theorem reachesPicked_iff_marks (hashCode : String → Int) (userId eventId : String)
    (now : Nat → Int) (hv : s.Valid) :
    ReachesPicked hashCode userId eventId now s ↔
      (∀ user ∈ s.sheet.users.drop s.sheet.isInvited.length, user.id ∈ s.sheet.parti) ∧
        s.Marks := by
  have hsends := InviteSheet.sends_iff hashCode userId eventId now hv.nodup s.Picked
  constructor
  · intro h
    obtain ⟨hoccupied, hpicked⟩ := hsends.mp h.invites
    exact ⟨InviteSheet.tiles_isSome.mp h.builds, hoccupied, hpicked⟩
  · rintro ⟨hdrop, hmarks⟩
    refine ⟨InviteSheet.tiles_isSome.mpr hdrop, hsends.mpr ⟨hmarks.occupied, hmarks.picked⟩,
      fun u hu hp => ?_⟩
    have hnot : u ∉ s.taps := fun hmem => hv.taps u hmem hu
    rw [Picked, List.count_eq_zero_of_not_mem hnot] at hp
    cases hp

/-- What a step can do. -/
inductive Stepped (s : InviteSession) : Action → InviteSession → Prop
  | snapshot (documents : List UserModal) : (documents.map UserModal.id).Nodup →
      Stepped s (.snapshot documents) { s with sheet := { s.sheet with users := documents } }
  | tap (i : Nat) (user : UserModal) (b : Bool) : s.sheet.users[i]? = some user →
      user.id ∉ s.sheet.parti → s.sheet.isInvited[i]? = some b →
      Stepped s (.tap i)
        ⟨{ s.sheet with isInvited := s.sheet.isInvited.set i !b }, s.taps ++ [user.id]⟩

theorem step_cases {a : Action} (h : step s a = some s') : Stepped s a s' := by
  cases a with
  | snapshot documents =>
      simp only [step] at h
      split at h
      · next hc =>
          cases h
          -- an empty snapshot can only follow an empty list of users
          have hreceive : s.sheet.receive documents = { s.sheet with users := documents } := by
            cases documents with
            | nil =>
                have hnil := List.map_eq_nil_iff.mp (List.eq_nil_of_subset_nil hc.2)
                rw [InviteSheet.receive, if_neg (by decide), ← hnil]
            | cons user documents => rfl
          rw [hreceive]
          exact .snapshot documents hc.1
      · cases h
  | tap i =>
      simp only [step] at h
      split at h
      · cases h
      · next user huser =>
          split at h
          · cases h
          · next hparti =>
              obtain ⟨sheet, hsheet, rfl⟩ := Option.map_eq_some_iff.mp h
              obtain ⟨b, hb, rfl⟩ := Option.map_eq_some_iff.mp hsheet
              exact .tap i user b huser hparti hb

theorem Valid.step {a : Action} (hv : s.Valid) (h : step s a = some s') : s'.Valid := by
  cases step_cases h with
  | snapshot documents hnd => exact ⟨hnd, hv.taps⟩
  | tap i user b _ hparti _ =>
      refine ⟨hv.nodup, fun u hu => ?_⟩
      rcases List.mem_append.mp hu with hu | hu
      · exact hv.taps u hu
      · rw [List.mem_singleton.mp hu]
        exact hparti

theorem getElem?_toggle {flags : List Bool} {i : Nat} {b : Bool} (hb : flags[i]? = some b)
    (j : Nat) :
    (flags.set i !b)[j]? = some true ↔ if i = j then b = false else flags[j]? = some true := by
  obtain ⟨hlt, -⟩ := List.getElem?_eq_some_iff.mp hb
  rw [List.getElem?_set, if_pos hlt]
  split
  · cases b <;> decide
  · rfl

section Tap

variable {i : Nat} {user : UserModal} {b : Bool}

theorem picked_tap_self (hv : s.Valid) (hm : s.Marks) (hid : s.sheet.idAt i = some user.id)
    (hb : s.sheet.isInvited[i]? = some b) :
    (∃ j, (if i = j then b = false else s.sheet.isInvited[j]? = some true) ∧
        s.sheet.idAt j = some user.id) ↔
      Picked ⟨{ s.sheet with isInvited := s.sheet.isInvited.set i !b }, s.taps ++ [user.id]⟩
        user.id := by
  have hafter : (∃ j, (if i = j then b = false else s.sheet.isInvited[j]? = some true) ∧
      s.sheet.idAt j = some user.id) ↔ b = false := by
    constructor
    · rintro ⟨j, hj, hjd⟩
      rw [if_pos (InviteSheet.idAt_injective hv.nodup hid hjd)] at hj
      exact hj
    · intro hbf
      exact ⟨i, by rw [if_pos rfl]; exact hbf, hid⟩
  have hbefore : s.Picked user.id ↔ b = true := by
    rw [← hm.picked user.id]
    simp only [InviteSheet.mem_flagged]
    constructor
    · rintro ⟨j, hj, hjd⟩
      rw [← InviteSheet.idAt_injective hv.nodup hid hjd, hb] at hj
      exact Option.some.inj hj
    · intro hbt
      exact ⟨i, by rw [hb, hbt], hid⟩
  refine hafter.trans ?_
  simp only [Picked, List.count_append, List.count_singleton_self] at hbefore ⊢
  cases b with
  | false => exact iff_of_true rfl (by have := mt hbefore.mp (by decide); omega)
  | true => exact iff_of_false nofun (by have := hbefore.mpr rfl; omega)

theorem picked_tap_other {u : String} (hm : s.Marks) (hid : s.sheet.idAt i = some user.id)
    (hu : u ≠ user.id) :
    (∃ j, (if i = j then b = false else s.sheet.isInvited[j]? = some true) ∧
        s.sheet.idAt j = some u) ↔
      Picked ⟨{ s.sheet with isInvited := s.sheet.isInvited.set i !b }, s.taps ++ [user.id]⟩
        u := by
  have hpicked : Picked ⟨{ s.sheet with isInvited := s.sheet.isInvited.set i !b },
      s.taps ++ [user.id]⟩ u ↔ s.Picked u := by
    simp only [Picked, List.count_append, List.count_singleton]
    rw [if_neg (by simpa using fun h => hu h.symm)]
    exact Iff.rfl
  rw [hpicked, ← hm.picked u]
  simp only [InviteSheet.mem_flagged]
  refine exists_congr fun j => and_congr_left fun hjd => ?_
  rw [if_neg]
  rintro rfl
  exact hu (Option.some.inj (hjd.symm.trans hid))

theorem Marks.tap (hv : s.Valid) (hm : s.Marks) (huser : s.sheet.users[i]? = some user)
    (hb : s.sheet.isInvited[i]? = some b) :
    Marks ⟨{ s.sheet with isInvited := s.sheet.isInvited.set i !b }, s.taps ++ [user.id]⟩ := by
  have hid : s.sheet.idAt i = some user.id := by
    rw [InviteSheet.idAt, huser]
    rfl
  refine ⟨fun j hj => ?_, fun u => ?_⟩
  · have hj' := (getElem?_toggle hb j).mp (InviteSheet.mem_flagged.mp hj)
    split at hj'
    · next hij =>
        subst hij
        exact Option.isSome_iff_exists.mpr ⟨_, hid⟩
    · exact hm.occupied j (InviteSheet.mem_flagged.mpr hj')
  · simp only [InviteSheet.mem_flagged, getElem?_toggle hb]
    by_cases hu : u = user.id
    · subst hu
      exact picked_tap_self hv hm hid hb
    · exact picked_tap_other hm hid hu

end Tap

/-- A snapshot keeps the flags on the picked users exactly when it leaves a
picked user on every flagged position. -/
theorem marks_snapshot {documents : List UserModal} (hm : s.Marks)
    (hnd : (documents.map UserModal.id).Nodup) :
    Marks { s with sheet := { s.sheet with users := documents } } ↔
      ∀ i ∈ s.sheet.flagged, ∃ user ∈ documents[i]?, s.Picked user.id := by
  constructor
  · intro h i hi
    obtain ⟨u, hu⟩ := Option.isSome_iff_exists.mp (h.occupied i hi)
    obtain ⟨user, huser, rfl⟩ := Option.map_eq_some_iff.mp hu
    exact ⟨user, huser, (h.picked user.id).mp ⟨i, hi, hu⟩⟩
  · intro hkeeps
    have hoccupied : ∀ i ∈ s.sheet.flagged,
        (InviteSheet.idAt { s.sheet with users := documents } i).isSome = true := by
      intro i hi
      obtain ⟨user, huser, -⟩ := hkeeps i hi
      exact Option.isSome_iff_exists.mpr ⟨user.id, Option.map_eq_some_iff.mpr ⟨user, huser, rfl⟩⟩
    obtain ⟨ids, hids⟩ := Option.isSome_iff_exists.mp (mapM_isSome_iff.mpr hm.occupied)
    obtain ⟨ids', hids'⟩ := Option.isSome_iff_exists.mp (mapM_isSome_iff.mpr hoccupied)
    have hsub : ids' ⊆ ids := by
      intro u hu
      obtain ⟨i, hi, hui⟩ := (InviteSheet.mem_usersId hids').mp hu
      obtain ⟨user, huser, hpicked⟩ := hkeeps i hi
      obtain ⟨user', huser', rfl⟩ := Option.map_eq_some_iff.mp hui
      obtain rfl : user = user' := Option.some.inj (huser.symm.trans huser')
      exact (InviteSheet.mem_usersId hids).mpr ((hm.picked user.id).mpr hpicked)
    -- as many users are named as before, all of them among those named before
    have hperm : ids'.Perm ids := by
      refine ((InviteSheet.nodup_usersId hnd hids').subperm hsub).perm_of_length_le ?_
      rw [length_of_mapM hids, length_of_mapM hids']
    refine ⟨hoccupied, fun u => ?_⟩
    exact (InviteSheet.mem_usersId hids').symm.trans
      (hperm.mem_iff.trans ((InviteSheet.mem_usersId hids).trans (hm.picked u)))

/-- In every state of a run the invitations reach exactly the picked users,
and no index is out of range, exactly when every snapshot keeps the
selection. -/
theorem reachesPicked_iff (hashCode : String → Int) (userId eventId : String)
    (now : Nat → Int) (parti : List String) {tr : List (Action × InviteSession)}
    (hrun : Run (StepOf step) (opened parti) tr) :
    Always (ReachesPicked hashCode userId eventId now) (opened parti) tr ↔
      Guarded SnapshotKeeps (opened parti) tr := by
  have hstart : ReachesPicked hashCode userId eventId now (opened parti) :=
    (reachesPicked_iff_marks hashCode userId eventId now (Valid.opened parti)).mpr
      ⟨nofun, Marks.opened parti⟩
  have hexact : ∀ s a s', s.Valid → ReachesPicked hashCode userId eventId now s →
      StepOf step s a s' → (ReachesPicked hashCode userId eventId now s' ↔ SnapshotKeeps s a) := by
    intro s a s' hv hr h
    obtain ⟨hdrop, hm⟩ := (reachesPicked_iff_marks hashCode userId eventId now hv).mp hr
    rw [reachesPicked_iff_marks hashCode userId eventId now (hv.step h)]
    cases step_cases h with
    | snapshot documents hnd => exact and_comm.trans (and_congr_left' (marks_snapshot hm hnd))
    | tap i user b huser _ hb =>
        refine iff_of_true ⟨?_, hm.tap hv huser hb⟩ trivial
        rw [List.length_set]
        exact hdrop
  exact always_iff_guarded hexact (fun s a s' hv h => hv.step h) (Valid.opened parti) hstart hrun

/-- Carol is picked, and Dave registers behind her. -/
theorem reachesPicked_carol : ∃ tr : List (Action × InviteSession),
    tr.map Prod.fst = [.snapshot [⟨"bob", ""⟩, ⟨"carol", ""⟩], .tap 1,
        .snapshot [⟨"bob", ""⟩, ⟨"carol", ""⟩, ⟨"dave", ""⟩]] ∧
      Always (ReachesPicked oneAtATime "alice" "e" fun _ => 0) (opened ["alice"]) tr := by
  obtain ⟨tr, hacts, hrun, hguard⟩ := exists_run (f := step) (s := opened ["alice"])
    (P := fun tr => Guarded SnapshotKeeps (opened ["alice"]) tr)
    [.snapshot [⟨"bob", ""⟩, ⟨"carol", ""⟩], .tap 1,
      .snapshot [⟨"bob", ""⟩, ⟨"carol", ""⟩, ⟨"dave", ""⟩]] (by decide)
  exact ⟨tr, hacts, (reachesPicked_iff oneAtATime "alice" "e" (fun _ => 0) ["alice"]
    hrun).mpr hguard⟩

/-- Carol is picked, and Dave registers ahead of her: the invitation goes to
Bob. -/
theorem reachesPicked_insertion_fails :
    ¬ ∀ (hashCode : String → Int) (userId eventId : String) (now : Nat → Int)
      (parti : List String) (tr), Run (StepOf step) (opened parti) tr →
        Always (ReachesPicked hashCode userId eventId now) (opened parti) tr := by
  intro h
  obtain ⟨tr, -, hrun, hnone⟩ := exists_run (f := step) (s := opened ["alice"])
    (P := fun tr => (final (opened ["alice"]) tr).Picked "carol" ∧
      (final (opened ["alice"]) tr).sheet.usersId = some ["bob"])
    [.snapshot [⟨"bob", ""⟩, ⟨"carol", ""⟩], .tap 1,
      .snapshot [⟨"dave", ""⟩, ⟨"bob", ""⟩, ⟨"carol", ""⟩]] (by decide)
  obtain ⟨hpicked, hids⟩ := hnone
  obtain ⟨writes, hsend, hwrites⟩ := (h oneAtATime "alice" "e" (fun _ => 0) _ _ hrun).final.invites
  rw [InviteSheet.sendInvitation, hids] at hsend
  cases hsend
  have hcarol := hwrites "carol"
  rw [if_pos hpicked] at hcarol
  exact absurd hcarol (by decide)

end InviteSession

end CalendarApp
