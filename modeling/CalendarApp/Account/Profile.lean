/-
# `Account.Profile` — the profile on the server and the one on the device

The user's document and the preferences both hold the username, e-mail, phone
and photo of the user.  Four handlers write them.

    handler              server, users/uid               preferences
    _signUp              setData, without a phone        the same; phone untouched
    _signInWithEmail     —                               documents[0]
    _signInWithGoogle    setData, from the identity      from the identity
      documents[0]       updateData, from the identity   documents[0]
    uploadFile           updateData, photoUrl            photoUrl

`documents` is the answer to the query for the users whose id is the uid, and
`documents[0]` is saved under its `phoneNumber`, a key that no handler writes,
where the server keeps the phone under `phone`.  In the fourth row it is the
document as it was before the update.

The two profiles agree after a handler exactly when it found them as
`Op.Agrees` says (`mirrors_iff`): a sign-up no phone of an earlier profile, an
e-mail sign-in a document whose `phoneNumber` is the phone, a Google sign-in no
document or one that says already what the identity says, and an upload two
profiles that differ in the photo at most.  A field that is absent and a field
that is null are both `none`, and `setString` with null removes the key.

In a collection that only these handlers have written, `documents[0]` is
`users/uid` and has no `phoneNumber`: whoever signs in and is known has no phone
on the device (`signInWithEmail_reachable`, `signInWithGoogle_reachable`).
-/
import CalendarApp.Lib.Collection
import CalendarApp.Lib.Run

namespace CalendarApp

open Lib

/-- What both copies hold. -/
@[ext] structure Profile where
  username : Option String
  email : Option String
  phone : Option String
  photoUrl : Option String
  deriving DecidableEq, Repr

/-- A document of the `users` collection. -/
structure UserDoc where
  id : Option String
  username : Option String
  email : Option String
  phone : Option String
  phoneNumber : Option String
  photoUrl : Option String
  deriving DecidableEq, Repr

/-- The keys of the preferences that the handlers set. -/
structure Prefs where
  id : Option String
  username : Option String
  email : Option String
  phone : Option String
  photoUrl : Option String
  deriving DecidableEq, Repr

/-- The identity that Firebase returns. -/
structure FirebaseUser where
  uid : String
  displayName : Option String
  email : Option String
  phoneNumber : Option String
  photoUrl : Option String
  deriving DecidableEq, Repr

def UserDoc.profile (d : UserDoc) : Profile :=
  { username := d.username, email := d.email, phone := d.phone, photoUrl := d.photoUrl }

def Prefs.profile (p : Prefs) : Profile :=
  { username := p.username, email := p.email, phone := p.phone, photoUrl := p.photoUrl }

def FirebaseUser.profile (u : FirebaseUser) : Profile :=
  { username := u.displayName, email := u.email, phone := u.phoneNumber,
    photoUrl := u.photoUrl }

/-- The preferences that a sign-in takes from `documents[0]`. -/
def UserDoc.saved (d : UserDoc) : Prefs :=
  { id := d.id, username := d.username, email := d.email, phone := d.phoneNumber,
    photoUrl := d.photoUrl }

/-- `updateData` with the five fields of the identity. -/
def UserDoc.identify (u : FirebaseUser) (d : UserDoc) : UserDoc :=
  { d with
    id := u.uid
    username := u.displayName
    email := u.email
    phone := u.phoneNumber
    photoUrl := u.photoUrl }

/-- The `users` collection and the preferences of the device. -/
structure Account where
  users : Collection UserDoc
  prefs : Prefs

namespace Account

inductive Op where
  | signUp (name email : Option String) (user : FirebaseUser)
  | signInWithEmail (user : FirebaseUser)
  | signInWithGoogle (user : FirebaseUser)
  | uploadFile (userId photoUrl : String)
  deriving DecidableEq, Repr

/-- Whose document the handler is about. -/
def Op.user : Op → String
  | .signUp _ _ user | .signInWithEmail user | .signInWithGoogle user => user.uid
  | .uploadFile userId _ => userId

/-- `where('id', isEqualTo: uid).getDocuments()` -/
def findById (s : Account) (uid : String) : List UserDoc :=
  s.users.docs.filter (·.id = some uid)

def signUp (s : Account) (name email : Option String) (user : FirebaseUser) : Account where
  users := s.users.insert user.uid
    { id := user.uid
      username := name
      email := email
      phone := none
      phoneNumber := none
      photoUrl := user.photoUrl }
  prefs :=
    { s.prefs with
      id := user.uid
      username := name
      email := email
      photoUrl := user.photoUrl }

/-- "User not exist" is no sign-in. -/
def signInWithEmail (s : Account) (user : FirebaseUser) : Option Account :=
  match s.findById user.uid with
  | [] => none
  | d :: _ => some { s with prefs := d.saved }

/-- The update of a known user is rejected if `users/uid` is not there. -/
def signInWithGoogle (s : Account) (user : FirebaseUser) : Option Account :=
  match s.findById user.uid with
  | [] =>
      some
        { users := s.users.insert user.uid
            { id := user.uid
              username := user.displayName
              email := user.email
              phone := user.phoneNumber
              phoneNumber := none
              photoUrl := user.photoUrl }
          prefs :=
            { id := user.uid
              username := user.displayName
              email := user.email
              phone := user.phoneNumber
              photoUrl := user.photoUrl } }
  | d :: _ =>
      (s.users.update user.uid (UserDoc.identify user)).map fun users =>
        { users := users, prefs := d.saved }

/-- The preferences are set when the server has answered the update. -/
def uploadFile (s : Account) (userId photoUrl : String) : Option Account :=
  (s.users.update userId ({ · with photoUrl := photoUrl })).map fun users =>
    { users := users, prefs := { s.prefs with photoUrl := photoUrl } }

/-- The account after a handler that completes, with its own write applied. -/
def run (s : Account) : Op → Option Account
  | .signUp name email user => some (s.signUp name email user)
  | .signInWithEmail user => s.signInWithEmail user
  | .signInWithGoogle user => s.signInWithGoogle user
  | .uploadFile userId photoUrl => s.uploadFile userId photoUrl

/-- The profile in `users/uid`. -/
def server (s : Account) (uid : String) : Profile :=
  match s.users.lookup uid with
  | none => { username := none, email := none, phone := none, photoUrl := none }
  | some d => d.profile

/-- The preferences have the profile of the user's document. -/
def Mirrors (s : Account) (uid : String) : Prop :=
  s.prefs.profile = s.server uid

instance (s : Account) (uid : String) : Decidable (s.Mirrors uid) :=
  inferInstanceAs (Decidable (_ = _))

/-- How a handler must find the two copies. -/
def Op.Agrees (s : Account) : Op → Prop
  | .signUp _ _ _ => s.prefs.phone = none
  | .signInWithEmail user =>
      ∀ d ∈ (s.findById user.uid).head?,
        d.username = (s.server user.uid).username ∧ d.email = (s.server user.uid).email ∧
          d.phoneNumber = (s.server user.uid).phone ∧
          d.photoUrl = (s.server user.uid).photoUrl
  | .signInWithGoogle user =>
      ∀ d ∈ (s.findById user.uid).head?,
        d.username = user.displayName ∧ d.email = user.email ∧
          d.phoneNumber = user.phoneNumber ∧ d.photoUrl = user.photoUrl
  | .uploadFile userId _ =>
      s.prefs.username = (s.server userId).username ∧ s.prefs.email = (s.server userId).email ∧
        s.prefs.phone = (s.server userId).phone

/-! ## The profile on the server after a write -/

theorem server_of_lookup {s : Account} {uid : String} {d : UserDoc}
    (h : s.users.lookup uid = some d) : s.server uid = d.profile := by
  simp only [server, h]

theorem server_insert (users : Collection UserDoc) (uid : String) (d : UserDoc) (p : Prefs) :
    server { users := users.insert uid d, prefs := p } uid = d.profile :=
  server_of_lookup (AList.lookup_insert users)

theorem profile_identify (u : FirebaseUser) (d : UserDoc) : (d.identify u).profile = u.profile :=
  rfl

/-! ## What each handler leaves -/

theorem signUp_mirrors (s : Account) (name email : Option String) (user : FirebaseUser) :
    (s.signUp name email user).Mirrors user.uid ↔ s.prefs.phone = none := by
  rw [Mirrors, signUp, server_insert]
  simp [Prefs.profile, UserDoc.profile]

theorem signInWithEmail_some {s s' : Account} {user : FirebaseUser}
    (h : s.signInWithEmail user = some s') :
    ∃ d, (s.findById user.uid).head? = some d ∧ s' = { s with prefs := d.saved } := by
  simp only [signInWithEmail] at h
  split at h
  · cases h
  · next d ds hfound =>
      cases h
      exact ⟨d, by rw [hfound, List.head?_cons], rfl⟩

theorem signInWithEmail_mirrors {s s' : Account} {user : FirebaseUser}
    (h : s.signInWithEmail user = some s') :
    s'.Mirrors user.uid ↔ (Op.signInWithEmail user).Agrees s := by
  obtain ⟨d, hd, rfl⟩ := signInWithEmail_some h
  have hserver : server { s with prefs := d.saved } user.uid = s.server user.uid := rfl
  simp only [Mirrors, hserver, Op.Agrees, hd, Option.mem_def, Option.some.injEq,
    forall_eq', Profile.ext_iff]
  rfl

/-- A Google sign-in leaves the identity on the server, and on the device the
identity or the document that it found. -/
theorem signInWithGoogle_some {s s' : Account} {user : FirebaseUser}
    (h : s.signInWithGoogle user = some s') :
    s'.server user.uid = user.profile ∧
      ((s.findById user.uid).head? = none ∧ s'.prefs.profile = user.profile ∨
        ∃ d, (s.findById user.uid).head? = some d ∧ s'.prefs = d.saved) := by
  simp only [signInWithGoogle] at h
  split at h
  · next hfound =>
      cases h
      exact ⟨server_insert _ _ _ _, Or.inl ⟨by rw [hfound, List.head?_nil], rfl⟩⟩
  · next d ds hfound =>
      obtain ⟨users, hupdate, rfl⟩ := Option.map_eq_some_iff.mp h
      obtain ⟨d', -, rfl⟩ := Collection.update_eq_some.mp hupdate
      refine ⟨?_, Or.inr ⟨d, by rw [hfound, List.head?_cons], rfl⟩⟩
      rw [server_insert, profile_identify]

theorem signInWithGoogle_mirrors {s s' : Account} {user : FirebaseUser}
    (h : s.signInWithGoogle user = some s') :
    s'.Mirrors user.uid ↔ (Op.signInWithGoogle user).Agrees s := by
  obtain ⟨hserver, hprefs⟩ := signInWithGoogle_some h
  simp only [Mirrors, hserver, Op.Agrees]
  rcases hprefs with ⟨hnone, hprefs⟩ | ⟨d, hd, hprefs⟩
  · exact iff_of_true hprefs (by simp [hnone])
  · simp only [hprefs, hd, Option.mem_def, Option.some.injEq, forall_eq', Profile.ext_iff]
    rfl

theorem uploadFile_some {s s' : Account} {userId photoUrl : String}
    (h : s.uploadFile userId photoUrl = some s') :
    s'.server userId = { s.server userId with photoUrl := some photoUrl } ∧
      s'.prefs = { s.prefs with photoUrl := some photoUrl } := by
  obtain ⟨users, hupdate, rfl⟩ := Option.map_eq_some_iff.mp h
  obtain ⟨d, hd, rfl⟩ := Collection.update_eq_some.mp hupdate
  refine ⟨?_, rfl⟩
  rw [server_insert, server_of_lookup hd]
  rfl

theorem uploadFile_mirrors {s s' : Account} {userId photoUrl : String}
    (h : s.uploadFile userId photoUrl = some s') :
    s'.Mirrors userId ↔ (Op.uploadFile userId photoUrl).Agrees s := by
  obtain ⟨hserver, hprefs⟩ := uploadFile_some h
  simp only [Mirrors, hserver, hprefs, Op.Agrees, Profile.ext_iff, Prefs.profile, and_true]

/-- After a handler, the preferences have the profile of the user's document
exactly when it found the two copies as `Op.Agrees` says. -/
theorem mirrors_iff {s s' : Account} {op : Op} (h : s.run op = some s') :
    s'.Mirrors op.user ↔ op.Agrees s := by
  cases op with
  | signUp name email user =>
      cases h
      exact signUp_mirrors s name email user
  | signInWithEmail user => exact signInWithEmail_mirrors h
  | signInWithGoogle user => exact signInWithGoogle_mirrors h
  | uploadFile userId photoUrl => exact uploadFile_mirrors h

/-- Alice signs up on a device without preferences. -/
theorem mirrors_signUp :
    let prefs : Prefs :=
      { id := none, username := none, email := none, phone := none, photoUrl := none }
    let user : FirebaseUser :=
      { uid := "alice", displayName := none, email := "alice@mail.com", phoneNumber := none,
        photoUrl := none }
    let op : Op := .signUp "Alice" "alice@mail.com" user
    ∃ s', run { users := ∅, prefs := prefs } op = some s' ∧ s'.Mirrors op.user := by
  intro prefs user op
  have hrun : run { users := ∅, prefs := prefs } op =
      some (signUp { users := ∅, prefs := prefs } "Alice" "alice@mail.com" user) := rfl
  exact ⟨_, hrun, (mirrors_iff hrun).mpr rfl⟩

/-- Alice has a phone on the server, and signs in by e-mail. -/
theorem mirrors_email_fails :
    ¬ ∀ (s s' : Account) (op : Op), s.run op = some s' → s'.Mirrors op.user := by
  intro h
  let prefs : Prefs :=
    { id := none, username := none, email := none, phone := none, photoUrl := none }
  let alice : UserDoc :=
    { id := "alice", username := "Alice", email := "alice@mail.com", phone := "+85223586000",
      phoneNumber := none, photoUrl := none }
  let user : FirebaseUser :=
    { uid := "alice", displayName := none, email := "alice@mail.com", phoneNumber := none,
      photoUrl := none }
  let s : Account := { users := AList.insert "alice" alice ∅, prefs := prefs }
  have hrun : s.run (.signInWithEmail user) = some { s with prefs := alice.saved } := rfl
  have hmirrors := h s _ _ hrun
  exact absurd hmirrors (by decide)

/-! ## Collections that only the app has written -/

/-- A document is the one of the user it names, and has no `phoneNumber`. -/
structure Kept (key : String) (d : UserDoc) : Prop where
  id : d.id = some key
  phoneNumber : d.phoneNumber = none

def WellKept (s : Account) : Prop :=
  ∀ key d, s.users.lookup key = some d → Kept key d

/-- Before the first user, on a device with any preferences. -/
def installed (prefs : Prefs) : Account where
  users := ∅
  prefs := prefs

theorem wellKept_run {s s' : Account} {op : Op} (hs : s.WellKept) (h : s.run op = some s') :
    s'.WellKept := by
  cases op with
  | signUp name email user =>
      cases h
      exact Collection.forall_insert hs ⟨rfl, rfl⟩
  | signInWithEmail user =>
      obtain ⟨d, -, rfl⟩ := signInWithEmail_some h
      exact hs
  | signInWithGoogle user =>
      simp only [run, signInWithGoogle] at h
      split at h
      · cases h
        exact Collection.forall_insert hs ⟨rfl, rfl⟩
      · obtain ⟨users, hupdate, rfl⟩ := Option.map_eq_some_iff.mp h
        obtain ⟨d, hd, rfl⟩ := Collection.update_eq_some.mp hupdate
        exact Collection.forall_insert hs ⟨rfl, (hs _ d hd).phoneNumber⟩
  | uploadFile userId photoUrl =>
      obtain ⟨users, hupdate, rfl⟩ := Option.map_eq_some_iff.mp h
      obtain ⟨d, hd, rfl⟩ := Collection.update_eq_some.mp hupdate
      exact Collection.forall_insert hs ⟨(hs _ d hd).id, (hs _ d hd).phoneNumber⟩

theorem reachable_wellKept {prefs : Prefs} {s : Account}
    (h : Reachable (StepOf run) (installed prefs) s) : s.WellKept := by
  have hinit : (installed prefs).WellKept := by
    intro key d hd
    rw [installed, AList.lookup_empty] at hd
    cases hd
  exact h.invariant (I := fun s : Account => s.WellKept) hinit
    (fun s a s' hs hstep => wellKept_run hs hstep)

theorem lookup_of_findById {s : Account} (hs : s.WellKept) {uid : String} {d : UserDoc}
    (hd : (s.findById uid).head? = some d) : s.users.lookup uid = some d := by
  have hmem : d ∈ s.findById uid := List.mem_of_head? hd
  obtain ⟨hdocs, hid⟩ := List.mem_filter.mp hmem
  obtain ⟨key, hkey⟩ := Collection.mem_docs.mp hdocs
  have hsame : some key = some uid := (hs key d hkey).id.symm.trans (of_decide_eq_true hid)
  rwa [Option.some.inj hsame] at hkey

theorem saved_profile {s : Account} (hs : s.WellKept) {uid : String} {d : UserDoc}
    (hd : (s.findById uid).head? = some d) :
    d.saved.profile = { s.server uid with phone := none } := by
  have hlookup := lookup_of_findById hs hd
  rw [server_of_lookup hlookup]
  simp only [UserDoc.saved, Prefs.profile, UserDoc.profile, (hs _ d hlookup).phoneNumber]

/-- In a collection that only the app has written, an e-mail sign-in loses the
phone of a user who has one, and nothing else. -/
theorem signInWithEmail_reachable {prefs : Prefs} {s s' : Account} {user : FirebaseUser}
    (hs : Reachable (StepOf run) (installed prefs) s)
    (h : s.signInWithEmail user = some s') :
    s'.prefs.profile = { s'.server user.uid with phone := none } := by
  obtain ⟨d, hd, rfl⟩ := signInWithEmail_some h
  exact saved_profile (reachable_wellKept hs) hd

/-- In such a collection a Google sign-in of a known user puts the identity on
the server and, on the device, what the server said before, without the phone. -/
theorem signInWithGoogle_reachable {prefs : Prefs} {s s' : Account} {user : FirebaseUser}
    (hs : Reachable (StepOf run) (installed prefs) s)
    (h : s.signInWithGoogle user = some s') (hknown : s.findById user.uid ≠ []) :
    s'.server user.uid = user.profile ∧
      s'.prefs.profile = { s.server user.uid with phone := none } := by
  obtain ⟨hserver, ⟨hnone, -⟩ | ⟨d, hd, hprefs⟩⟩ := signInWithGoogle_some h
  · exact absurd (List.head?_eq_none_iff.mp hnone) hknown
  · refine ⟨hserver, ?_⟩
    rw [hprefs]
    exact saved_profile (reachable_wellKept hs) hd

end Account

end CalendarApp
