/-
# `Account.Session` — three facts that survive a restart, set one await at a time

Whether someone is signed in is spread over three persistent facts: the Google
session, the Firebase session and the `id` of the preferences.  Every handler
is a list of awaited steps, each of which sets at most one of them.

    step                              google   firebase   id
    googleSignIn.signIn                true
    signInWithEmailAndPassword u                  u
    createUserWithEmailAndPassword u              u
    signInWithCredential u                        u
    prefs.setString('id', u)                               u
    FirebaseAuth.signOut                         none
    googleSignIn.disconnect / signOut  false
    prefs.clear                                           none

`push` and `timer` open `HomePage(prefs.getString('id'))`.  A sign-in or sign-up
has set both the Firebase session and the id by the time it opens the page.
`checkLogin` looks at the Google session and the id only, and never at the
Firebase session: it opens the page of the user who is signed in exactly when
it meets facts that are `Coherent`.  A handler that begins over such facts keeps
them so at each of its awaits in exactly these cases (`throughout_iff`).

    checkLogin              always
    sign-in, sign-up of u   nobody is logged in, or Firebase has u
    Google sign-in of u     the id is u already, and Firebase has u
    sign-out                nobody is logged in
-/
import CalendarApp.Chat.Room

namespace CalendarApp

/-- What persists across restarts. -/
structure Session where
  /-- `googleSignIn.isSignedIn()` -/
  google : Bool
  /-- the uid of `FirebaseAuth.instance.currentUser()` -/
  firebase : Option Uid
  /-- `prefs.getString('id')` -/
  id : Option Uid
  deriving DecidableEq

namespace Session

/-- The keys of the preferences other than `id` that the handlers set. -/
inductive ProfileKey where
  | username
  | email
  | phone
  | photoUrl
  deriving DecidableEq, Repr

inductive Step where
  | getInstance
  | signInWithEmailAndPassword (uid : Uid)
  | createUserWithEmailAndPassword (uid : Uid)
  /-- `googleSignIn.signIn()` -/
  | signIn
  | authentication
  | signInWithCredential (uid : Uid)
  /-- the query for the user whose id is the uid -/
  | getDocuments
  /-- `documents[0]['id']` and `currentUser.uid` are both the uid -/
  | setId (uid : Uid)
  | setString (key : ProfileKey)
  | push
  | isSignedIn
  | timer
  /-- `FirebaseAuth.instance.signOut()` -/
  | firebaseSignOut
  | disconnect
  | signOut
  | clear
  /-- `bloc.dispose()` and the navigation to the sign-in screen -/
  | dispose
  deriving DecidableEq

inductive Operation where
  | checkLogin
  | signInWithEmail (uid : Uid)
  | signInWithGoogle (uid : Uid)
  | signUp (uid : Uid)
  | handleSignOut
  deriving DecidableEq

/-- `setString` of the profile, as both sign-ins do it. -/
def setProfile : List Step :=
  [.setString .username, .setString .email, .setString .phone, .setString .photoUrl]

/-- The steps of a handler, to its end.  A new Google user goes through the
same awaits as a known one. -/
def Operation.steps : Operation → List Step
  | .checkLogin => [.getInstance, .isSignedIn, .timer]
  | .signInWithEmail uid =>
      [.getInstance, .signInWithEmailAndPassword uid, .getDocuments, .setId uid] ++
        setProfile ++ [.push]
  | .signInWithGoogle uid =>
      [.getInstance, .signIn, .authentication, .signInWithCredential uid, .getDocuments,
        .setId uid] ++ setProfile ++ [.push]
  | .signUp uid =>
      [.getInstance, .createUserWithEmailAndPassword uid, .setId uid, .setString .username,
        .setString .email, .setString .photoUrl, .push]
  | .handleSignOut =>
      [.firebaseSignOut, .disconnect, .signOut, .getInstance, .clear, .dispose]

/-- One of the three facts, and the value that it takes. -/
inductive Fact where
  | google (signedIn : Bool)
  | firebase (uid : Option Uid)
  | id (uid : Option Uid)
  deriving DecidableEq

/-- They set the same fact to the same value, or two different facts. -/
def Fact.Agrees : Fact → Fact → Prop
  | .google signedIn, .google signedIn' => signedIn = signedIn'
  | .firebase uid, .firebase uid' => uid = uid'
  | .id uid, .id uid' => uid = uid'
  | _, _ => True

/-- The fact that a step sets, if it sets one. -/
def Step.fact : Step → Option Fact
  | .signInWithEmailAndPassword uid | .createUserWithEmailAndPassword uid
  | .signInWithCredential uid => some (.firebase (some uid))
  | .signIn => some (.google true)
  | .setId uid => some (.id (some uid))
  | .firebaseSignOut => some (.firebase none)
  | .disconnect | .signOut => some (.google false)
  | .clear => some (.id none)
  | .getInstance | .authentication | .getDocuments | .setString _ | .push | .isSignedIn
  | .timer | .dispose => none

def set (s : Session) : Fact → Session
  | .google signedIn => { s with google := signedIn }
  | .firebase uid => { s with firebase := uid }
  | .id uid => { s with id := uid }

/-- What a step changes. -/
def perform (s : Session) (c : Step) : Session :=
  match c.fact with
  | none => s
  | some f => s.set f

/-- The fact has this value. -/
def Has (s : Session) : Fact → Prop
  | .google signedIn => s.google = signedIn
  | .firebase uid => s.firebase = uid
  | .id uid => s.id = uid

/-- `await googleSignIn.isSignedIn() || prefs.getString('id') != null` -/
def isLoggedIn (s : Session) : Bool :=
  s.google || s.id.isSome

/-- Whether the handler goes on after the step: `checkLogin` shows the two
buttons instead when nobody is logged in. -/
def goesOn (s : Session) : Step → Bool
  | .isSignedIn => s.isLoggedIn
  | _ => true

/-- Whether the step opens `HomePage(prefs.getString('id'))`. -/
def Step.opens : Step → Bool
  | .push | .timer => true
  | _ => false

/-- The id is the uid of the user who is signed in. -/
def Own (s : Session) : Prop :=
  s.id ≠ none ∧ s.id = s.firebase

/-- Nothing that `checkLogin` looks at is set, or the id is that of the user who
is signed in. -/
def Coherent (s : Session) : Prop :=
  s.isLoggedIn = false ∨ s.Own

instance : ∀ f g : Fact, Decidable (f.Agrees g)
  | .google _, .google _ | .firebase _, .firebase _ | .id _, .id _ =>
      inferInstanceAs (Decidable (_ = _))
  | .google _, .firebase _ | .google _, .id _ | .firebase _, .google _ | .firebase _, .id _
  | .id _, .google _ | .id _, .firebase _ => isTrue trivial

instance (s : Session) : Decidable s.Own := inferInstanceAs (Decidable (_ ∧ _))

instance (s : Session) : Decidable s.Coherent := inferInstanceAs (Decidable (_ ∨ _))

theorem own_iff_coherent {s : Session} (h : s.isLoggedIn = true) : s.Own ↔ s.Coherent := by
  simp [Coherent, h]

@[simp] theorem has_set_self (s : Session) (f : Fact) : (s.set f).Has f := by
  cases f <;> rfl

theorem has_set_of_agrees {s : Session} {f g : Fact} (hfg : f.Agrees g) (h : s.Has f) :
    (s.set g).Has f := by
  cases f <;> cases g <;> first | exact h | exact Eq.symm hfg

theorem perform_of_fact_none {s : Session} {c : Step} (h : c.fact = none) :
    s.perform c = s := by
  simp only [perform, h]

theorem perform_of_fact_some {s : Session} {c : Step} {f : Fact} (h : c.fact = some f) :
    s.perform c = s.set f := by
  simp only [perform, h]

/-! ## The steps of an operation -/

/-- The facts that an operation sets. -/
def Operation.facts (op : Operation) : List Fact :=
  op.steps.filterMap Step.fact

@[simp] theorem facts_signInWithEmail (uid : Uid) :
    (Operation.signInWithEmail uid).facts = [.firebase (some uid), .id (some uid)] := rfl

@[simp] theorem facts_signInWithGoogle (uid : Uid) :
    (Operation.signInWithGoogle uid).facts =
      [.google true, .firebase (some uid), .id (some uid)] := rfl

@[simp] theorem facts_signUp (uid : Uid) :
    (Operation.signUp uid).facts = [.firebase (some uid), .id (some uid)] := rfl

@[simp] theorem facts_handleSignOut :
    Operation.handleSignOut.facts =
      [.firebase none, .google false, .google false, .id none] := rfl

theorem agrees_of_facts {op : Operation} {f g : Fact} (hf : f ∈ op.facts)
    (hg : g ∈ op.facts) : f.Agrees g := by
  cases op with
  | checkLogin => exact absurd hf List.not_mem_nil
  | signInWithEmail uid | signUp uid =>
      simp only [facts_signInWithEmail, facts_signUp, List.mem_cons, List.not_mem_nil,
        or_false] at hf hg
      rcases hf with rfl | rfl <;> rcases hg with rfl | rfl <;> trivial
  | signInWithGoogle uid =>
      simp only [facts_signInWithGoogle, List.mem_cons, List.not_mem_nil, or_false] at hf hg
      rcases hf with rfl | rfl | rfl <;> rcases hg with rfl | rfl | rfl <;> trivial
  | handleSignOut =>
      simp only [facts_handleSignOut, List.mem_cons, List.not_mem_nil, or_false] at hf hg
      rcases hf with rfl | rfl | rfl | rfl <;> rcases hg with rfl | rfl | rfl | rfl <;>
        trivial

theorem own_of_has {s : Session} (uid : Uid) (hfirebase : s.Has (.firebase (some uid)))
    (hid : s.Has (.id (some uid))) : s.Own := by
  have hfirebase : s.firebase = some uid := hfirebase
  have hid : s.id = some uid := hid
  exact ⟨by simp [hid], hid.trans hfirebase.symm⟩

/-- An operation that opens the page, other than `checkLogin`, has its user's
facts once it has set them all. -/
theorem own_of_facts {op : Operation} {s : Session} {c : Step} (hop : op ≠ .checkLogin)
    (hc : c ∈ op.steps) (hopens : c.opens = true) (h : ∀ f ∈ op.facts, s.Has f) : s.Own := by
  cases op with
  | checkLogin => exact absurd rfl hop
  | signInWithEmail uid | signInWithGoogle uid | signUp uid =>
      exact own_of_has uid (h _ (by simp)) (h _ (by simp))
  | handleSignOut =>
      simp only [Operation.steps, List.mem_cons, List.not_mem_nil, or_false] at hc
      rcases hc with rfl | rfl | rfl | rfl | rfl | rfl <;> exact absurd hopens nofun

/-- The facts are coherent once an operation has set all of its own. -/
theorem coherent_of_facts {op : Operation} {s : Session} (hne : op.facts ≠ [])
    (h : ∀ f ∈ op.facts, s.Has f) : s.Coherent := by
  cases op with
  | checkLogin => exact absurd rfl hne
  | signInWithEmail uid | signInWithGoogle uid | signUp uid =>
      exact Or.inr (own_of_has uid (h _ (by simp)) (h _ (by simp)))
  | handleSignOut =>
      have hgoogle : s.google = false := h (.google false) (by simp)
      have hid : s.id = none := h (.id none) (by simp)
      exact Or.inl (by simp [isLoggedIn, hgoogle, hid])

theorem pairwise_steps (op : Operation) :
    op.steps.Pairwise fun c d => c.opens = true → d.fact = none := by
  cases op <;> simp [Operation.steps, setProfile, Step.opens]

theorem fact_of_opens {c : Step} (h : c.opens = true) : c.fact = none := by
  cases c with
  | push | timer => rfl
  | _ => exact absurd h nofun

/-! ## Where a handler may be stopped -/

/-- The facts are coherent wherever the handler is stopped. -/
def Throughout : List Step → Session → Prop
  | [], s => s.Coherent
  | c :: todo, s => s.Coherent ∧ Throughout todo (s.perform c)

theorem Throughout.coherent {todo : List Step} {s : Session} (h : Throughout todo s) :
    s.Coherent := by
  cases todo with
  | nil => exact h
  | cons c todo => exact h.1

/-- Where an operation may be stopped at any await. -/
def MayStop (s : Session) : Operation → Prop
  | .checkLogin => True
  | .signInWithEmail uid | .signUp uid => s.isLoggedIn = false ∨ s.firebase = some uid
  | .signInWithGoogle uid => s.Own ∧ s.firebase = some uid
  | .handleSignOut => s.isLoggedIn = false

theorem coherent_firebase {s : Session} (hs : s.Coherent) (uid : Uid) :
    Coherent { s with firebase := some uid } ↔
      s.isLoggedIn = false ∨ s.firebase = some uid := by
  have hsame : isLoggedIn { s with firebase := some uid } = s.isLoggedIn := rfl
  rcases hs with hout | ⟨hid, heq⟩
  · exact iff_of_true (Or.inl hout) (Or.inl hout)
  · constructor
    · rintro (hout | ⟨-, hown⟩)
      · exact Or.inl hout
      · exact Or.inr (heq.symm.trans hown)
    · rintro (hout | hfirebase)
      · exact Or.inl hout
      · exact Or.inr ⟨hid, heq.trans hfirebase⟩

theorem coherent_google {s : Session} :
    Coherent { s with google := true } ↔ s.Own := by
  simp [Coherent, isLoggedIn, Own]

/-- From coherent facts, the operations that may be stopped at any await. -/
theorem throughout_iff {s : Session} (hs : s.Coherent) (op : Operation) :
    Throughout op.steps s ↔ MayStop s op := by
  have hset : ∀ (g : Bool) (uid : Uid),
      Coherent { google := g, firebase := some uid, id := some uid } :=
    fun g uid => Or.inr ⟨nofun, rfl⟩
  cases op with
  | checkLogin => simp [Operation.steps, Throughout, perform, Step.fact, MayStop, hs]
  | signInWithEmail uid =>
      simp [Operation.steps, setProfile, Throughout, perform, Step.fact, Session.set, MayStop, hs,
        hset, coherent_firebase hs]
  | signUp uid =>
      simp [Operation.steps, Throughout, perform, Step.fact, Session.set, MayStop, hs, hset,
        coherent_firebase hs]
  | signInWithGoogle uid =>
      have hgoogle : Coherent { google := true, firebase := some uid, id := s.id } ↔
          s.id = some uid := by
        simp only [Coherent, isLoggedIn, Own, Bool.true_or, Bool.true_eq_false, false_or]
        exact ⟨And.right, fun h => ⟨by simp [h], h⟩⟩
      have hown : s.Own ∧ s.id = some uid ↔ s.Own ∧ s.firebase = some uid :=
        and_congr_right fun h => by rw [h.2]
      simp [Operation.steps, setProfile, Throughout, perform, Step.fact, Session.set, MayStop, hs,
        hset, coherent_google, hgoogle, hown]
  | handleSignOut =>
      have hfirebase : Coherent { google := s.google, firebase := none, id := s.id } ↔
          s.isLoggedIn = false := by
        simp only [Coherent, isLoggedIn, Own, or_iff_left_iff_imp]
        rintro ⟨hid, hnone⟩
        exact absurd hnone hid
      simp only [Operation.steps, Throughout, perform, Step.fact, Session.set, MayStop, hs,
        hfirebase, true_and]
      constructor
      · rintro ⟨hout, -⟩
        exact hout
      · intro hout
        obtain ⟨hgoogle, hid⟩ := Bool.or_eq_false_iff.mp hout
        rw [Option.isSome_eq_false_iff, Option.isNone_iff_eq_none] at hid
        simp [Coherent, isLoggedIn, hgoogle, hid]

/-- The facts after each of the steps. -/
theorem throughout_iff_take {todo : List Step} {s : Session} :
    Throughout todo s ↔ ∀ k, ((todo.take k).foldl perform s).Coherent := by
  induction todo generalizing s with
  | nil => simp only [Throughout, List.take_nil, List.foldl_nil, forall_const]
  | cons c todo ih =>
      rw [Throughout, ih]
      constructor
      · rintro ⟨hs, htodo⟩ (_ | k)
        · exact hs
        · exact htodo k
      · exact fun h => ⟨h 0, fun k => h (k + 1)⟩

end Session

end CalendarApp
