/-
# `Account.Avatars` — the photo that a handler stores and the avatar that is drawn

The photo of a user is written by three handlers, and each may find that there
is none.

    handler              photoUrl of users/uid
    _signUp              the identity's, null for an e-mail account
    _signInWithGoogle    the identity's, null without a Google photo
    uploadFile           the download URL

Four screens draw the users of a snapshot, and all of them compare the photo
with the empty text.

    screen         who is on it                      placeholder    network image
    NewChat        the users in none of the rooms    ''             else, null too
    ChatScreen     the peers of the rooms            ''             else, null too
    InviteEvent    who does not take part            ''             else, null too
    EventDetail    who takes part                    ''             else, null too

So a user whose `photoUrl` is null has no placeholder, and an image without a
URL is requested for him.  `UserModal.fromPrefs` puts '' for null, and on the
screen of his own profile he has the placeholder (`UserScreen.avatar_matches`).

The photo that a user has is the one that was stored last (`photoOf_final`), so
all avatars are right after a run exactly when the last photo it stored of each
user is not null, and all along it exactly when it never stores null
(`avatarsMatch_iff`).
-/
import CalendarApp.Chat.Reach
import CalendarApp.Event.Detail
import CalendarApp.Event.Invite

namespace CalendarApp

open Lib

/-! ## A user and his avatar -/

/-- `UserModal` with the nulls that Dart allows in it. -/
structure UserModal.Raw where
  id : Option String
  photo : Option String
  deriving DecidableEq, Repr

def UserModal.fromFirestore (document : UserDoc) : UserModal.Raw where
  id := document.id
  photo := document.photoUrl

def UserModal.fromPrefs (prefs : Prefs) : UserModal.Raw where
  id := prefs.id
  photo := if prefs.photoUrl = none then some "" else prefs.photoUrl

/-- What a screen draws of a user: the orange placeholder with a text, or a
`CachedNetworkImage`. -/
inductive Avatar where
  | placeholder (text : Option String)
  | image (imageUrl : Option String)
  deriving DecidableEq, Repr

/-- `photo == '' ? … : CachedNetworkImage(imageUrl: photo)` -/
def Avatar.of (photo text : Option String) : Avatar :=
  if photo = some "" then .placeholder text else .image photo

/-- The avatar is right for a user with this `photoUrl`. -/
structure Avatar.Matches (photoUrl : Option String) (a : Avatar) : Prop where
  placeholder : (∃ text, a = .placeholder text) ↔ photoUrl = none ∨ photoUrl = some ""
  image : ∀ imageUrl, a = .image imageUrl → ∃ url, imageUrl = some url ∧ url ≠ ""

theorem Avatar.of_matches_iff {photoUrl text : Option String} :
    (Avatar.of photoUrl text).Matches photoUrl ↔ photoUrl ≠ none := by
  constructor
  · rintro h rfl
    obtain ⟨url, hnull, -⟩ := h.image none rfl
    cases hnull
  · intro hne
    obtain ⟨url, rfl⟩ := Option.ne_none_iff_exists'.mp hne
    by_cases hempty : url = ""
    · subst hempty
      exact ⟨iff_of_true ⟨text, rfl⟩ (Or.inr rfl), nofun⟩
    · have himage : Avatar.of (some url) text = .image (some url) :=
        if_neg fun h => hempty (Option.some.inj h)
      rw [himage]
      refine ⟨iff_of_false nofun ?_, ?_⟩
      · rintro (h | h)
        · cases h
        · exact hempty (Option.some.inj h)
      · intro imageUrl h
        cases h
        exact ⟨url, rfl, hempty⟩

namespace UserScreen

/-- The avatar on the screen of the profile. -/
def avatar (user : UserModal.Raw) : Avatar := .of user.photo none

/-- It is right for every profile on the device, null included. -/
theorem avatar_matches (prefs : Prefs) :
    (avatar (UserModal.fromPrefs prefs)).Matches prefs.photoUrl := by
  by_cases hnull : prefs.photoUrl = none
  · have havatar : avatar (UserModal.fromPrefs prefs) = .placeholder none := by
      rw [avatar, UserModal.fromPrefs, if_pos hnull]
      rfl
    rw [havatar]
    exact ⟨iff_of_true ⟨none, rfl⟩ (Or.inl hnull), nofun⟩
  · have havatar : avatar (UserModal.fromPrefs prefs) = .of prefs.photoUrl none := by
      rw [avatar, UserModal.fromPrefs, if_neg hnull]
    rw [havatar]
    exact Avatar.of_matches_iff.mpr hnull

end UserScreen

/-! ## The screens -/

/-- The users of a snapshot, each with the document it is made from. -/
def snapshotUsers (documents : List UserDoc) : List (UserDoc × UserModal.Raw) :=
  documents.map fun d => (d, UserModal.fromFirestore d)

namespace NewChat

/-- `leading` of the tile that `userBlock(peer)` makes. -/
def leading (peer : UserModal.Raw) : Avatar := .of peer.photo none

/-- The tiles, with the users they stand for. -/
def drawn (userId : String) (store : Store) (documents : List UserDoc) :
    List (UserDoc × Avatar) :=
  ((snapshotUsers documents).filter fun user =>
      !(peersId userId store).contains user.1.idText && user.1.idText ≠ userId).map
    fun user => (user.1, leading user.2)

end NewChat

namespace ChatScreen

/-- `leading` of the tile of a row. -/
def leading (peer : UserModal.Raw) : Avatar := .of peer.photo none

/-- The peer of a row, among users that may have nulls. -/
def rawPeer (userId : String) (users : List (UserDoc × UserModal.Raw))
    (chatroomUsersId : List String) : Option (UserDoc × UserModal.Raw) :=
  (chatroomUsersId.find? (· ≠ userId)).bind fun peerId =>
    elementAt users (indexWhere (fun user => user.2.id = some peerId) users)

/-- The tile of the row of a room; a row without a message is blank. -/
def drawnRow (userId : String) (store : Store) (documents : List UserDoc) (chatId : String) :
    Option (UserDoc × Avatar) :=
  (store.rooms.lookup chatId).bind fun room =>
    (rawPeer userId (snapshotUsers documents) room.users).bind fun peer =>
      if (store.messages chatId).docs.isEmpty then none else some (peer.1, leading peer.2)

def drawn (userId : String) (store : Store) (documents : List UserDoc) :
    List (UserDoc × Avatar) :=
  ((store.chatList userId).map Prod.fst).filterMap (drawnRow userId store documents)

end ChatScreen

namespace InviteEvent

/-- The avatar in what `userBlock(user, index)` makes; `none` is the empty
container of a participant, or an index error. -/
def userBlock (parti : List String) (isInvited : List Bool) (user : UserModal.Raw)
    (index : Nat) : Option Avatar :=
  if user.id.any parti.contains = true then none
  else isInvited[index]?.map fun _ => .of user.photo none

def drawn (parti : List String) (isInvited : List Bool) (documents : List UserDoc) :
    List (UserDoc × Avatar) :=
  (snapshotUsers documents).zipIdx.filterMap fun p =>
    (userBlock parti isInvited p.1.2 p.2).map fun a => (p.1.1, a)

end InviteEvent

namespace EventDetail

def iconBlock (url replacing : Option String) : Avatar := .of url replacing

def avatar : Icon → Option Avatar
  | .block url replacing => some (iconBlock url replacing)
  | .add => none

/-- The avatars of the grid, in the order of the participants. -/
def drawn (parti : List String) (documents : List UserDoc) : List (UserDoc × Avatar) :=
  (participating documents parti).zip
    (((build documents parti).getD []).filterMap avatar)

end EventDetail

/-- One of the screens, with what it has besides the users. -/
inductive Screen where
  | newChat (userId : String) (store : Store)
  | chatScreen (userId : String) (store : Store)
  | inviteEvent (parti : List String) (isInvited : List Bool)
  | eventDetail (parti : List String)

/-- The users on a screen and their avatars, for a snapshot of the users. -/
def Screen.drawn : Screen → List UserDoc → List (UserDoc × Avatar)
  | .newChat userId store => NewChat.drawn userId store
  | .chatScreen userId store => ChatScreen.drawn userId store
  | .inviteEvent parti isInvited => InviteEvent.drawn parti isInvited
  | .eventDetail parti => EventDetail.drawn parti

variable {documents : List UserDoc} {p : UserDoc × Avatar}

theorem mem_snapshotUsers {user : UserDoc × UserModal.Raw} :
    user ∈ snapshotUsers documents ↔
      user.1 ∈ documents ∧ user.2 = UserModal.fromFirestore user.1 := by
  rw [snapshotUsers, List.mem_map]
  constructor
  · rintro ⟨d, hd, rfl⟩
    exact ⟨hd, rfl⟩
  · rintro ⟨hd, huser⟩
    exact ⟨user.1, hd, Prod.ext rfl huser.symm⟩

/-- What is drawn is the avatar of a document of the snapshot. -/
def DrawnFrom (documents : List UserDoc) (p : UserDoc × Avatar) : Prop :=
  p.1 ∈ documents ∧ ∃ text, p.2 = .of p.1.photoUrl text

theorem drawnFrom_of_user {user : UserDoc × UserModal.Raw} (h : user ∈ snapshotUsers documents) :
    DrawnFrom documents (user.1, .of user.2.photo none) := by
  obtain ⟨hd, huser⟩ := mem_snapshotUsers.mp h
  refine ⟨hd, none, ?_⟩
  rw [huser]
  rfl

theorem NewChat.drawnFrom {userId : String} {store : Store}
    (h : p ∈ NewChat.drawn userId store documents) : DrawnFrom documents p := by
  obtain ⟨user, huser, rfl⟩ := List.mem_map.mp h
  exact drawnFrom_of_user (List.mem_of_mem_filter huser)

theorem ChatScreen.drawnFrom {userId : String} {store : Store}
    (h : p ∈ ChatScreen.drawn userId store documents) : DrawnFrom documents p := by
  obtain ⟨chatId, -, hrow⟩ := List.mem_filterMap.mp h
  obtain ⟨room, -, hrow⟩ := Option.bind_eq_some_iff.mp hrow
  obtain ⟨peer, hpeer, hrow⟩ := Option.bind_eq_some_iff.mp hrow
  obtain ⟨peerId, -, hpeer⟩ := Option.bind_eq_some_iff.mp hpeer
  rw [elementAt_indexWhere] at hpeer
  split at hrow
  · cases hrow
  · cases hrow
    exact drawnFrom_of_user (List.mem_of_find?_eq_some hpeer)

theorem InviteEvent.drawnFrom {parti : List String} {isInvited : List Bool}
    (h : p ∈ InviteEvent.drawn parti isInvited documents) : DrawnFrom documents p := by
  obtain ⟨⟨user, i⟩, huser, hp⟩ := List.mem_filterMap.mp h
  obtain ⟨a, ha, rfl⟩ := Option.map_eq_some_iff.mp hp
  simp only [userBlock] at ha
  split at ha
  · cases ha
  · obtain ⟨invited, -, rfl⟩ := Option.map_eq_some_iff.mp ha
    exact drawnFrom_of_user (List.fst_mem_of_mem_zipIdx huser)

theorem EventDetail.avatars_eq (parti : List String) (hne : documents ≠ []) :
    ((build documents parti).getD []).filterMap avatar =
      ((participating documents parti).zip documents).map
        fun q => iconBlock q.1.photoUrl q.2.username := by
  rw [build_eq documents parti hne, Option.getD_some, List.filterMap_append, List.filterMap_map]
  have hblock : (avatar ∘ fun q : UserDoc × UserDoc => Icon.block q.1.photoUrl q.2.username) =
      some ∘ fun q => iconBlock q.1.photoUrl q.2.username := rfl
  rw [hblock, List.filterMap_eq_map]
  exact List.append_nil _

theorem EventDetail.drawnFrom {parti : List String}
    (h : p ∈ EventDetail.drawn parti documents) : DrawnFrom documents p := by
  by_cases hne : documents = []
  · subst hne
    cases h
  · rw [drawn, avatars_eq parti hne] at h
    obtain ⟨i, hi⟩ := List.mem_iff_getElem?.mp h
    obtain ⟨hd, htile⟩ := List.getElem?_zip_eq_some.mp hi
    rw [List.getElem?_map] at htile
    obtain ⟨q, hq, htile⟩ := Option.map_eq_some_iff.mp htile
    obtain ⟨hq, -⟩ := List.getElem?_zip_eq_some.mp hq
    have hsame : q.1 = p.1 := Option.some.inj (hq.symm.trans hd)
    rw [hsame] at htile
    exact ⟨List.mem_of_mem_filter (List.mem_of_getElem? hd), q.2.username, htile.symm⟩

theorem Screen.drawnFrom {screen : Screen} (h : p ∈ screen.drawn documents) :
    DrawnFrom documents p := by
  cases screen with
  | newChat userId store => exact NewChat.drawnFrom h
  | chatScreen userId store => exact ChatScreen.drawnFrom h
  | inviteEvent parti isInvited => exact InviteEvent.drawnFrom h
  | eventDetail parti => exact EventDetail.drawnFrom h

/-- A screen is right exactly when nobody on it has a null for his photo. -/
theorem Screen.matches_iff (screen : Screen) (documents : List UserDoc) :
    (∀ p ∈ screen.drawn documents, p.2.Matches p.1.photoUrl) ↔
      ∀ p ∈ screen.drawn documents, p.1.photoUrl ≠ none := by
  refine forall₂_congr fun p hp => ?_
  obtain ⟨-, text, htext⟩ := Screen.drawnFrom hp
  rw [htext, Avatar.of_matches_iff]

theorem exists_drawn {d : UserDoc} (hd : d ∈ documents) :
    ∃ screen : Screen, ∃ a, (d, a) ∈ screen.drawn documents := by
  obtain ⟨userId, hne⟩ := exists_ne d.idText
  refine ⟨.newChat userId Store.empty, NewChat.leading (UserModal.fromFirestore d), ?_⟩
  refine List.mem_map.mpr ⟨(d, UserModal.fromFirestore d), List.mem_filter.mpr ⟨?_, ?_⟩, rfl⟩
  · exact mem_snapshotUsers.mpr ⟨hd, rfl⟩
  · have hpeers : NewChat.peersId userId Store.empty = [] := by
      refine List.eq_nil_iff_forall_not_mem.mpr fun v hv => ?_
      obtain ⟨R, room, ⟨hroom, -⟩, -⟩ := mem_peersId.mp hv
      cases hroom
    rw [hpeers]
    exact decide_eq_true hne.symm

/-! ## Users without nulls -/

/-- A user as the other modules have him. -/
def UserModal.raw (user : UserModal) : UserModal.Raw where
  id := user.id
  photo := user.photo

/-- The documents are those of users without nulls. -/
def NoNulls (documents : List UserDoc) (users : List UserModal) : Prop :=
  documents.map UserModal.fromFirestore = users.map UserModal.raw

variable {users : List UserModal}

theorem NoNulls.snapshotUsers (h : NoNulls documents users) :
    (snapshotUsers documents).map Prod.snd = users.map UserModal.raw := by
  rw [CalendarApp.snapshotUsers, List.map_map]
  exact h

theorem InviteEvent.userBlock_raw (s : InviteSheet) (user : UserModal) (index : Nat) :
    userBlock s.parti s.isInvited user.raw index =
      (s.userBlock user index).bind fun
        | .empty => none
        | .user photo _ => some (.of (some photo) none) := by
  simp only [userBlock, InviteSheet.userBlock, UserModal.raw, Option.any_some,
    List.contains_iff_mem]
  split
  · rfl
  · cases s.isInvited[index]? with
    | none => rfl
    | some invited => rfl

theorem ChatScreen.rawPeer_raw (h : NoNulls documents users) (userId : String)
    (us : List String) :
    (rawPeer userId (CalendarApp.snapshotUsers documents) us).map Prod.snd =
      (userBlock userId users us).map UserModal.raw := by
  rw [rawPeer, userBlock]
  cases us.find? (· ≠ userId) with
  | none => rfl
  | some peerId =>
      rw [Option.bind_some, Option.bind_some, elementAt_indexWhere, elementAt_indexWhere]
      calc ((snapshotUsers documents).find? fun user => user.2.id = some peerId).map Prod.snd
          = ((snapshotUsers documents).map Prod.snd).find? fun user => user.id = some peerId := by
            rw [List.find?_map]
            rfl
        _ = (users.map UserModal.raw).find? fun user => user.id = some peerId := by
            rw [h.snapshotUsers]
        _ = (users.find? fun user => user.id = peerId).map UserModal.raw := by
            rw [List.find?_map]
            simp only [Function.comp_def, UserModal.raw, Option.some.injEq]

variable {store : Store}

theorem ChatScreen.drawn_raw (h : NoNulls documents store.users.docs) (userId : String) :
    (drawn userId store documents).map Prod.snd =
      (peers userId store).map fun peer => leading peer.raw := by
  rw [drawn, peers, List.map_filterMap, List.map_filterMap]
  congr 1
  funext chatId
  rw [drawnRow, rowPeer]
  cases store.rooms.lookup chatId with
  | none => rfl
  | some room =>
      rw [Option.bind_some, Option.bind_some]
      have hpeer := rawPeer_raw h userId room.users
      cases hraw : rawPeer userId (snapshotUsers documents) room.users with
      | none =>
          rw [hraw] at hpeer
          rw [Option.map_eq_none_iff.mp hpeer.symm]
          rfl
      | some user =>
          rw [hraw] at hpeer
          obtain ⟨peer, huser, hsame⟩ := Option.map_eq_some_iff.mp hpeer.symm
          rw [huser, Option.bind_some, Option.bind_some]
          split
          · rfl
          · rw [Option.map_some, Option.map_some, hsame]

theorem NewChat.drawn_raw (h : NoNulls documents store.users.docs) (userId : String) :
    (drawn userId store documents).map Prod.snd =
      (NewChat.users userId store).map fun peer => leading peer.raw := by
  have hlisted : ∀ test : String → Bool,
      ((snapshotUsers documents).filter fun user => test user.1.idText).map Prod.snd =
        (store.users.docs.filter fun user => test user.id).map UserModal.raw := by
    intro test
    have hid : ∀ user ∈ snapshotUsers documents,
        test user.1.idText = test (user.2.id.getD "null") := by
      intro user huser
      rw [(mem_snapshotUsers.mp huser).2]
      rfl
    calc ((snapshotUsers documents).filter fun user => test user.1.idText).map Prod.snd
        = ((snapshotUsers documents).filter fun user =>
            test (user.2.id.getD "null")).map Prod.snd := by
          rw [List.filter_congr hid]
      _ = ((snapshotUsers documents).map Prod.snd).filter fun user =>
            test (user.id.getD "null") := by
          rw [List.filter_map]
          rfl
      _ = (store.users.docs.map UserModal.raw).filter fun user =>
            test (user.id.getD "null") := by rw [h.snapshotUsers]
      _ = (store.users.docs.filter fun user => test user.id).map UserModal.raw :=
          List.filter_map
  have hdrawn := congrArg (List.map leading) (hlisted fun id =>
    !(peersId userId store).contains id && id ≠ userId)
  rw [List.map_map, List.map_map] at hdrawn
  rw [drawn, List.map_map]
  exact hdrawn

/-! ## The photo that is stored -/

namespace Account

/-- What a handler stores for the photo of its user. -/
def Op.photo : Op → Option (Option String)
  | .signUp _ _ user | .signInWithGoogle user => some user.photoUrl
  | .signInWithEmail _ => none
  | .uploadFile _ photoUrl => some (some photoUrl)

/-- What a handler stores for the photo of the user `uid`. -/
def Op.photoFor (uid : String) (op : Op) : Option (Option String) :=
  if uid = op.user then op.photo else none

/-- What the handlers store last for the photo of the user `uid`. -/
def lastPhoto (uid : String) : List Op → Option (Option String)
  | [] => none
  | op :: ops => (lastPhoto uid ops).or (op.photoFor uid)

/-- The photo in `users/uid`. -/
def photoOf (s : Account) (uid : String) : Option (Option String) :=
  (s.users.lookup uid).map UserDoc.photoUrl

/-- Every screen is right for every user on it, whatever the order of the
snapshot. -/
def AvatarsMatch (s : Account) : Prop :=
  ∀ (screen : Screen) (documents : List UserDoc), documents.Perm s.users.docs →
    ∀ p ∈ screen.drawn documents, p.2.Matches p.1.photoUrl

variable {s s' : Account} {op : Op}

theorem photoOf_insert (op : Op) {d : UserDoc} {prefs : Prefs}
    (h : op.photo = some d.photoUrl) (uid : String) :
    photoOf { users := s.users.insert op.user d, prefs := prefs } uid =
      (op.photoFor uid).or (s.photoOf uid) := by
  rw [photoOf, Collection.lookup_insert_eq, Op.photoFor]
  split
  · rw [h]
    rfl
  · rfl

/-- What a handler does to the photos. -/
theorem photoOf_run (h : s.run op = some s') (uid : String) :
    s'.photoOf uid = (op.photoFor uid).or (s.photoOf uid) := by
  cases op with
  | signUp name email user =>
      cases h
      exact photoOf_insert (.signUp name email user) rfl uid
  | signInWithEmail user =>
      obtain ⟨d, -, rfl⟩ := signInWithEmail_some h
      have hnone : (Op.signInWithEmail user).photoFor uid = none := ite_self none
      rw [hnone]
      rfl
  | signInWithGoogle user =>
      simp only [run, signInWithGoogle] at h
      split at h
      · cases h
        exact photoOf_insert (.signInWithGoogle user) rfl uid
      · obtain ⟨users, hupdate, rfl⟩ := Option.map_eq_some_iff.mp h
        obtain ⟨d, -, rfl⟩ := Collection.update_eq_some.mp hupdate
        exact photoOf_insert (.signInWithGoogle user) rfl uid
  | uploadFile userId photoUrl =>
      obtain ⟨users, hupdate, rfl⟩ := Option.map_eq_some_iff.mp h
      obtain ⟨d, -, rfl⟩ := Collection.update_eq_some.mp hupdate
      exact photoOf_insert (.uploadFile userId photoUrl) rfl uid

/-- A user has the photo that was stored last. -/
theorem photoOf_final (uid : String) :
    ∀ {s : Account} {tr : List (Op × Account)}, Run (StepOf run) s tr →
      (final s tr).photoOf uid = (lastPhoto uid (tr.map Prod.fst)).or (s.photoOf uid)
  | _, [], _ => rfl
  | s, (op, s') :: tr, ⟨h, hrun⟩ => by
      calc (final s' tr).photoOf uid
          = (lastPhoto uid (tr.map Prod.fst)).or (s'.photoOf uid) := photoOf_final uid hrun
        _ = (lastPhoto uid (tr.map Prod.fst)).or ((op.photoFor uid).or (s.photoOf uid)) := by
            rw [photoOf_run h uid]
        _ = ((lastPhoto uid (tr.map Prod.fst)).or (op.photoFor uid)).or (s.photoOf uid) :=
            Option.or_assoc.symm

theorem avatarsMatch_iff_photoOf : s.AvatarsMatch ↔ ∀ uid, s.photoOf uid ≠ some none := by
  constructor
  · intro h uid hnull
    obtain ⟨d, hd, hphoto⟩ := Option.map_eq_some_iff.mp hnull
    obtain ⟨screen, a, hdrawn⟩ := exists_drawn (Collection.mem_docs.mpr ⟨uid, hd⟩)
    exact (Screen.matches_iff screen _).mp (h screen _ (List.Perm.refl _)) _ hdrawn hphoto
  · intro h screen documents hperm
    refine (Screen.matches_iff screen documents).mpr fun p hp hnull => ?_
    obtain ⟨uid, huid⟩ := Collection.mem_docs.mp (hperm.mem_iff.mp (Screen.drawnFrom hp).1)
    exact h uid (by rw [photoOf, huid, Option.map_some, hnull])

/-- While all screens are right, a handler leaves them so exactly when it does
not store null. -/
theorem avatarsMatch_run (hs : s.AvatarsMatch) (h : s.run op = some s') :
    s'.AvatarsMatch ↔ op.photo ≠ some none := by
  rw [avatarsMatch_iff_photoOf] at hs ⊢
  constructor
  · intro hs' hnull
    refine hs' op.user ?_
    rw [photoOf_run h, Op.photoFor, if_pos rfl, hnull, Option.some_or]
  · intro hop uid hnull
    rw [photoOf_run h, Op.photoFor] at hnull
    rcases Option.or_eq_some_iff.mp hnull with hstored | ⟨-, hkept⟩
    · split at hstored
      · exact hop hstored
      · cases hstored
    · exact hs uid hkept

theorem photoOf_installed (prefs : Prefs) (uid : String) :
    (installed prefs).photoOf uid = none := by
  rw [photoOf, installed, AList.lookup_empty, Option.map_none]

/-- The avatars are right in every state of a run exactly when no handler of it
stores null, and in the last one exactly when null is for no user what was
stored last. -/
theorem avatarsMatch_iff (prefs : Prefs) {tr : List (Op × Account)}
    (hrun : Run (StepOf run) (installed prefs) tr) :
    (Always AvatarsMatch (installed prefs) tr ↔
        Guarded (fun _ op => op.photo ≠ some none) (installed prefs) tr) ∧
      ((final (installed prefs) tr).AvatarsMatch ↔
        ∀ uid, lastPhoto uid (tr.map Prod.fst) ≠ some none) := by
  have hstart : (installed prefs).AvatarsMatch := by
    rw [avatarsMatch_iff_photoOf]
    intro uid hnull
    rw [photoOf_installed] at hnull
    cases hnull
  constructor
  · exact always_iff_guarded (I := fun _ => True) (P := AvatarsMatch)
      (C := fun _ op => op.photo ≠ some none) (fun s op s' _ hs h => avatarsMatch_run hs h)
      (fun _ _ _ _ _ => trivial) trivial hstart hrun
  · rw [avatarsMatch_iff_photoOf]
    refine forall_congr' fun uid => ?_
    rw [photoOf_final uid hrun, photoOf_installed, Option.or_none]

/-- Carol signs in with a photo of Google, and uploads another one. -/
theorem avatarsMatch_carol :
    let prefs : Prefs :=
      { id := none, username := none, email := none, phone := none, photoUrl := none }
    let carol : FirebaseUser :=
      { uid := "carol", displayName := "Carol", email := "carol@mail.com", phoneNumber := none,
        photoUrl := "google.png" }
    ∃ tr : List (Op × Account),
      tr.map Prod.fst = [.signInWithGoogle carol, .uploadFile "carol" "carol.png"] ∧
        Always AvatarsMatch (installed prefs) tr := by
  intro prefs carol
  obtain ⟨tr, hacts, hrun, hguard⟩ := exists_run (f := run) (s := installed prefs)
    (P := fun tr => Guarded (fun _ op => op.photo ≠ some none) (installed prefs) tr)
    [.signInWithGoogle carol, .uploadFile "carol" "carol.png"] (by decide +kernel)
  exact ⟨tr, hacts, (avatarsMatch_iff prefs hrun).1.mpr hguard⟩

/-- Alice signs up by e-mail and accepts an invitation: her tile among the
participants is an image without a URL. -/
theorem avatarsMatch_email_fails :
    ¬ ∀ (prefs : Prefs) (tr : List (Op × Account)), Run (StepOf run) (installed prefs) tr →
      Always AvatarsMatch (installed prefs) tr := by
  intro h
  let prefs : Prefs :=
    { id := none, username := none, email := none, phone := none, photoUrl := none }
  let user : FirebaseUser :=
    { uid := "alice", displayName := none, email := "alice@mail.com", phoneNumber := none,
      photoUrl := none }
  let alice : UserDoc :=
    { id := "alice", username := "Alice", email := "alice@mail.com", phone := none,
      phoneNumber := none, photoUrl := none }
  obtain ⟨tr, -, hrun, hdrawn⟩ := exists_run (f := run) (s := installed prefs)
    (P := fun tr => (alice, Avatar.image none) ∈
      EventDetail.drawn ["alice"] (final (installed prefs) tr).users.docs)
    [.signUp "Alice" "alice@mail.com" user] (by decide +kernel)
  have hmatch := (h prefs tr hrun).final (.eventDetail ["alice"]) _ (List.Perm.refl _) _ hdrawn
  obtain ⟨url, hnull, -⟩ := hmatch.image none rfl
  cases hnull

end Account

end CalendarApp
