/-
# `Account.SignIn` — the three handlers that sign a user in

`_signInWithEmail`, `_signInWithGoogle` and `_signUp` set `isLoading` while they
wait for Firebase, the store and the preferences.  What they wait for can return
anything or throw (`Calls`), and a handler is a computation on the screen that
can throw too.

    handler              awaits inside try          no user
    _signInWithEmail     all but getInstance        ends as it is
    _signInWithGoogle    nothing                    toast
    _signUp              all but getInstance        NoSuchMethodError

The catch block shows what stands between the first two `', '` of the text of
the exception, and throws itself when there is no `', '` in it.  A handler
leaves the screen usable (`Unstuck`) exactly under the conditions of
`unstuck_iff`.
-/
import CalendarApp.Account.Profile
import CalendarApp.Lib.Lists

namespace CalendarApp

open Lib

namespace SignIn

/-- What the user is told. -/
inductive Notice where
  /-- `Fluttertoast.showToast` -/
  | toast (msg : String)
  /-- the text under the form -/
  | error (errormsg : String)
  /-- `HomePage(userId)` is opened -/
  | homePage (userId : Option String)
  deriving DecidableEq, Repr

/-- The state of the screen, and what the handler has told the user. -/
structure Screen where
  isLoading : Bool
  /-- `_error` -/
  error : Bool
  errormsg : String
  prefs : Prefs
  told : List Notice
  deriving DecidableEq, Repr

/-- The keys of the preferences. -/
inductive Key where
  | id | username | email | phone | photoUrl
  deriving DecidableEq, Repr

/-- The preferences with a new value; null removes it. -/
def setPref (prefs : Prefs) (value : Option String) : Key → Prefs
  | .id => { prefs with id := value }
  | .username => { prefs with username := value }
  | .email => { prefs with email := value }
  | .phone => { prefs with phone := value }
  | .photoUrl => { prefs with photoUrl := value }

/-- What the awaited calls return, or the text of the exception they throw. -/
structure Calls where
  /-- `SharedPreferences.getInstance()` -/
  getInstance : Except String Unit
  /-- `googleSignIn.signIn()`, which returns null when the dialog is cancelled -/
  googleSignIn : Except String (Option Unit)
  /-- `googleUser.authentication` -/
  authentication : Except String Unit
  /-- the call to Firebase that returns the user -/
  firebaseUser : Except String (Option FirebaseUser)
  /-- `where('id', isEqualTo: firebaseUser.uid).getDocuments()` -/
  getDocuments : Except String (List UserDoc)
  setString : Key → Except String Unit

/-- A handler: it changes the screen, and may throw. -/
abbrev Handler := ExceptT String (StateM Screen)

def await {α : Type} (call : Except String α) : Handler α := ExceptT.mk (pure call)

def tell (notice : Notice) : Handler Unit :=
  modify fun s => { s with told := s.told ++ [notice] }

/-- The text of the exception for `googleUser.authentication` or
`firebaseUser.uid` on null. -/
def noSuchMethodError (getter : String) : String :=
  "NoSuchMethodError: The getter '" ++ getter ++ "' was called on null.\nReceiver: null\n" ++
    "Tried calling: " ++ getter

/-- The text of the exception for an index outside a list. -/
def rangeError : String := "RangeError (index): Invalid value: Only valid value is 0: 1"

/-- The block `catch (e)`. -/
def catchError (e : String) : Handler Unit :=
  match (splitPair ',' ' ' e.toList)[1]? with
  | none => throw rangeError
  | some errormsg => do
      modify fun s =>
        { s with errormsg := String.ofList errormsg, isLoading := false, error := true }
      tell (.error (String.ofList errormsg))

variable (c : Calls)

/-- `prefs.setString`: the value is there at once, and saving it is awaited. -/
def setString (key : Key) (value : Option String) : Handler Unit := do
  modify fun s => { s with prefs := setPref s.prefs value key }
  await (c.setString key)

/-- Several values, one after the other. -/
def setStrings : List (Key × Option String) → Handler Unit
  | [] => pure ()
  | (key, value) :: rest => do
      setString c key value
      setStrings rest

/-- The values of `documents[0]`. -/
def documentValues (d : UserDoc) : List (Key × Option String) :=
  [(.id, d.id), (.username, d.username), (.email, d.email), (.phone, d.phoneNumber),
    (.photoUrl, d.photoUrl)]

/-- The values of the user that Firebase returns. -/
def userValues (u : FirebaseUser) : List (Key × Option String) :=
  [(.id, some u.uid), (.username, u.displayName), (.email, u.email), (.phone, u.phoneNumber),
    (.photoUrl, u.photoUrl)]

/-- The end of a successful handler. -/
def openHomePage (msg : String) : Handler Unit := do
  tell (.toast msg)
  modify fun s => { s with isLoading := false }
  tell (.homePage (← get).prefs.id)

/-- "User not exist" -/
def userNotExist : Handler Unit := do
  tell (.toast "User not exist")
  modify fun s => { s with isLoading := false }

/-- The block `try` of `_signInWithEmail`. -/
def tryEmail : Handler Unit := do
  match ← await c.firebaseUser with
  | none => pure ()
  | some _ =>
      match ← await c.getDocuments with
      | [] => userNotExist
      | d :: _ =>
          setStrings c (documentValues d)
          openHomePage "Sign in success"

/-- `_signInWithEmail()`, with the fields `_email` and `_password`. -/
def signInWithEmail (email password : Option String) : Handler Unit := do
  await c.getInstance
  modify fun s => { s with isLoading := true, error := false }
  if email = none then
    modify fun s => { s with errormsg := "Please filled in your email address" }
  else if password = none then
    modify fun s => { s with errormsg := "Please filled in your password" }
  else tryCatchThe String (tryEmail c) catchError

/-- `_signInWithGoogle()`.  The writes to the collection `users` are not awaited. -/
def signInWithGoogle : Handler Unit := do
  await c.getInstance
  modify fun s => { s with isLoading := true }
  match ← await c.googleSignIn with
  | none => throw (noSuchMethodError "authentication")
  | some _ =>
      await c.authentication
      match ← await c.firebaseUser with
      | none => userNotExist
      | some user =>
          match ← await c.getDocuments with
          | [] => setStrings c (userValues user)
          | d :: _ => setStrings c (documentValues d)
          openHomePage "Sign in success"

/-- The block `try` of `_signUp`.  The write to the collection `users` is not
awaited. -/
def trySignUp (name email : Option String) : Handler Unit := do
  match ← await c.firebaseUser with
  | none => throw (noSuchMethodError "uid")
  | some user =>
      setStrings c [(.id, some user.uid), (.username, name), (.email, email),
        (.photoUrl, user.photoUrl)]
      openHomePage "Sign up success"

/-- `_signUp()`, with the fields `_name` and `_email`. -/
def signUp (name email : Option String) : Handler Unit := do
  await c.getInstance
  modify fun s => { s with isLoading := true, error := false }
  tryCatchThe String (trySignUp c name email) catchError

/-! ## How a handler ends -/

/-- How the handler ends on a screen: its exception, if any, and the screen. -/
def run (handler : Handler Unit) (s : Screen) : Except String Unit × Screen :=
  (ExceptT.run handler).run s

/-- The handler has ended, nothing is loading, and the home page was opened, a
toast shown, or the text of an error is shown. -/
structure Unstuck (result : Except String Unit × Screen) : Prop where
  returned : result.1 = .ok ()
  notLoading : result.2.isLoading = false
  told : (∃ userId, .homePage userId ∈ result.2.told) ∨ (∃ msg, .toast msg ∈ result.2.told) ∨
    result.2.error = true ∧ .error result.2.errormsg ∈ result.2.told

/-- The text has a `', '`. -/
def Splits (e : String) : Prop := [',', ' '] <:+: e.toList

instance (e : String) : Decidable (Splits e) := inferInstanceAs (Decidable (_ <:+: _))

namespace Calls

/-- Saving the values of some keys in turn. -/
def saved : List Key → Except String Unit
  | [] => .ok ()
  | key :: rest => (c.setString key).bind fun _ => saved rest

/-- The calls that `_signInWithEmail` makes inside `try`. -/
def email : Except String Unit :=
  c.firebaseUser.bind fun
    | none => .ok ()
    | some _ => c.getDocuments.bind fun
      | [] => .ok ()
      | _ :: _ => c.saved [.id, .username, .email, .phone, .photoUrl]

/-- The calls that `_signInWithGoogle` makes once Google has an account. -/
def google : Except String Unit :=
  c.firebaseUser.bind fun
    | none => .ok ()
    | some _ => c.getDocuments.bind fun _ => c.saved [.id, .username, .email, .phone, .photoUrl]

/-- The calls that `_signUp` makes inside `try`. -/
def signUp : Except String Unit :=
  c.firebaseUser.bind fun
    | none => .error (noSuchMethodError "uid")
    | some _ => c.saved [.id, .username, .email, .photoUrl]

end Calls

variable {c}

theorem setStrings_run : ∀ (l : List (Key × Option String)) (s : Screen),
    ∃ prefs, run (setStrings c l) s = (c.saved (l.map Prod.fst), { s with prefs := prefs })
  | [], s => ⟨s.prefs, rfl⟩
  | (key, value) :: rest, s => by
      obtain ⟨prefs, hrest⟩ :=
        setStrings_run rest { s with prefs := setPref s.prefs value key }
      rw [List.map_cons, Calls.saved]
      cases hkey : c.setString key with
      | error e =>
          refine ⟨setPref s.prefs value key, ?_⟩
          simp only [setStrings, setString, hkey]
          rfl
      | ok u =>
          refine ⟨prefs, ?_⟩
          have hrun : run (setStrings c ((key, value) :: rest)) s =
              run (setStrings c rest) { s with prefs := setPref s.prefs value key } := by
            simp only [setStrings, setString, hkey]
            rfl
          rw [hrun, hrest]
          rfl

/-! ## The end of each handler -/

theorem unstuck_openHomePage (msg : String) (s : Screen) :
    (run (openHomePage msg) s).1 = .ok () ∧ Unstuck (run (openHomePage msg) s) := by
  refine ⟨rfl, rfl, rfl, Or.inl ⟨s.prefs.id, ?_⟩⟩
  exact List.mem_append_right _ (List.mem_singleton_self _)

theorem unstuck_userNotExist (s : Screen) : Unstuck (run userNotExist s) :=
  ⟨rfl, rfl, Or.inr (Or.inl ⟨"User not exist",
    List.mem_append_right _ (List.mem_singleton_self _)⟩)⟩

/-- The catch block leaves the screen usable exactly when the text has a second
part; else it throws. -/
theorem unstuck_catchError (e : String) (s : Screen) :
    Unstuck (run (catchError e) s) ↔ Splits e := by
  rw [Splits, ← splitPair_second]
  cases hpart : (splitPair ',' ' ' e.toList)[1]? with
  | none =>
      refine iff_of_false (fun h => ?_) nofun
      have hthrow : (run (catchError e) s).1 = .error rangeError := by
        simp only [catchError, hpart]
        rfl
      rw [h.returned] at hthrow
      cases hthrow
  | some errormsg =>
      refine iff_of_true ?_ rfl
      have hrun : run (catchError e) s = (.ok (), { s with
          errormsg := String.ofList errormsg
          isLoading := false
          error := true
          told := s.told ++ [.error (String.ofList errormsg)] }) := by
        simp only [catchError, hpart]
        rfl
      rw [hrun]
      exact ⟨rfl, rfl, Or.inr (Or.inr ⟨rfl,
        List.mem_append_right _ (List.mem_singleton_self _)⟩)⟩

theorem unstuck_try {body : Handler Unit} {s s' : Screen} {result : Except String Unit}
    (h : run body s = (result, s')) :
    Unstuck (run (tryCatchThe String body catchError) s) ↔
      (∀ e, result = .error e → Splits e) ∧ (result = .ok () → Unstuck (.ok (), s')) := by
  have hbody : StateT.run (body : StateM Screen (Except String Unit)) s = (result, s') := h
  have hrun : run (tryCatchThe String body catchError) s =
      StateT.run (match result with
        | .ok u => (pure (.ok u) : StateM Screen (Except String Unit))
        | .error e => catchError e) s' := by
    simp only [run, tryCatchThe, MonadExceptOf.tryCatch, ExceptT.tryCatch, ExceptT.run, ExceptT.mk,
      StateT.run_bind, hbody]
    cases result <;> rfl
  rw [hrun]
  cases result with
  | ok u => exact ⟨fun hu => ⟨nofun, fun _ => hu⟩, fun hu => hu.2 rfl⟩
  | error e =>
      refine (unstuck_catchError e s').trans ⟨fun he => ⟨?_, nofun⟩, fun he => he.1 e rfl⟩
      rintro e' ⟨⟩
      exact he

theorem run_bind (m : Handler Unit) (f : Unit → Handler Unit) (s : Screen) :
    run (m >>= f) s = match run m s with
      | (.ok u, s') => run (f u) s'
      | (.error e, s') => (.error e, s') := by
  simp only [run, ExceptT.run, bind, ExceptT.bind, ExceptT.mk, StateT.bind, StateT.run,
    ExceptT.bindCont]
  generalize m s = r
  obtain ⟨result, s'⟩ := r
  cases result <;> rfl

theorem run_saveAndOpen (l : List (Key × Option String)) (msg : String) (s : Screen) :
    ∃ s', run (setStrings c l >>= fun _ => openHomePage msg) s = (c.saved (l.map Prod.fst), s') ∧
      (c.saved (l.map Prod.fst) = .ok () → Unstuck (.ok (), s')) := by
  obtain ⟨prefs, hsave⟩ := setStrings_run (c := c) l s
  rw [run_bind, hsave]
  cases hsaved : c.saved (l.map Prod.fst) with
  | error e => exact ⟨_, rfl, nofun⟩
  | ok u =>
      obtain ⟨hok, hopen⟩ := unstuck_openHomePage msg { s with prefs := prefs }
      refine ⟨(run (openHomePage msg) { s with prefs := prefs }).2, Prod.ext hok rfl, fun _ => ?_⟩
      rw [← hok]
      exact hopen

/-- The block of `_signInWithEmail` makes its calls, and leaves a screen that is
loading as it is only when Firebase returns no user. -/
theorem run_tryEmail {s : Screen} (hs : s.isLoading = true) :
    ∃ s', run (tryEmail c) s = (c.email, s') ∧
      (c.email = .ok () → (Unstuck (.ok (), s') ↔ c.firebaseUser ≠ .ok none)) := by
  unfold tryEmail Calls.email
  cases huser : c.firebaseUser with
  | error e => exact ⟨s, rfl, nofun⟩
  | ok user =>
      cases user with
      | none =>
          refine ⟨s, rfl, fun _ => iff_of_false (fun h => ?_) (fun h => h rfl)⟩
          rw [h.notLoading] at hs
          cases hs
      | some user =>
          cases hdocs : c.getDocuments with
          | error e => exact ⟨s, rfl, nofun⟩
          | ok documents =>
              cases documents with
              | nil =>
                  exact ⟨_, rfl, fun _ => iff_of_true (unstuck_userNotExist s) nofun⟩
              | cons d rest =>
                  obtain ⟨s', hrun, hopen⟩ :=
                    run_saveAndOpen (c := c) (documentValues d) "Sign in success" s
                  exact ⟨s', hrun, fun hok => iff_of_true (hopen hok) nofun⟩

theorem run_trySignUp (name email : Option String) (s : Screen) :
    ∃ s', run (trySignUp c name email) s = (c.signUp, s') ∧
      (c.signUp = .ok () → Unstuck (.ok (), s')) := by
  unfold trySignUp Calls.signUp
  cases huser : c.firebaseUser with
  | error e => exact ⟨s, rfl, nofun⟩
  | ok user =>
      cases user with
      | none => exact ⟨s, rfl, nofun⟩
      | some user =>
          obtain ⟨s', hrun, hopen⟩ := run_saveAndOpen (c := c)
            [(.id, some user.uid), (.username, name), (.email, email), (.photoUrl, user.photoUrl)]
            "Sign up success" s
          exact ⟨s', hrun, hopen⟩

theorem not_unstuck_error {e : String} {s : Screen} : ¬ Unstuck (.error e, s) := fun h =>
  nomatch h.returned

/-! ## When the screen is left usable -/

theorem signInWithEmail_unstuck (email password : Option String) (s : Screen) :
    Unstuck (run (signInWithEmail c email password) s) ↔
      c.getInstance = .ok () ∧ email ≠ none ∧ password ≠ none ∧ c.firebaseUser ≠ .ok none ∧
        ∀ e, c.email = .error e → Splits e := by
  unfold signInWithEmail
  cases hinstance : c.getInstance with
  | error e => exact iff_of_false not_unstuck_error fun h => nomatch h.1
  | ok u =>
      by_cases hemail : email = none
      · subst hemail
        exact iff_of_false (fun h => nomatch h.notLoading) fun h => h.2.1 rfl
      by_cases hpassword : password = none
      · subst hpassword
        rw [if_neg hemail]
        exact iff_of_false (fun h => nomatch h.notLoading) fun h => h.2.2.1 rfl
      rw [if_neg hemail, if_neg hpassword, and_iff_right rfl, and_iff_right hemail,
        and_iff_right hpassword]
      obtain ⟨s', hrun, hopen⟩ :=
        run_tryEmail (c := c) (s := { s with isLoading := true, error := false }) rfl
      refine (unstuck_try hrun).trans ?_
      rw [and_comm]
      refine and_congr_left fun htexts => ?_
      cases hcalls : c.email with
      | ok u => exact ⟨fun h => (hopen hcalls).mp (h rfl), fun h _ => (hopen hcalls).mpr h⟩
      | error e =>
          refine iff_of_true nofun fun hnone => ?_
          rw [Calls.email, hnone] at hcalls
          cases hcalls

theorem unstuck_saveAndOpen (l : List (Key × Option String)) (msg : String) (s : Screen) :
    Unstuck (run (setStrings c l >>= fun _ => openHomePage msg) s) ↔
      c.saved (l.map Prod.fst) = .ok () := by
  obtain ⟨s', hrun, hopen⟩ := run_saveAndOpen (c := c) l msg s
  rw [hrun]
  refine ⟨fun h => h.returned, fun h => ?_⟩
  rw [h]
  exact hopen h

theorem signInWithGoogle_unstuck (s : Screen) :
    Unstuck (run (signInWithGoogle c) s) ↔
      c.getInstance = .ok () ∧ c.googleSignIn = .ok (some ()) ∧ c.authentication = .ok () ∧
        c.google = .ok () := by
  unfold signInWithGoogle Calls.google
  cases hinstance : c.getInstance with
  | error e => exact iff_of_false not_unstuck_error fun h => nomatch h.1
  | ok u =>
      rcases hgoogle : c.googleSignIn with e | (_ | account)
      · exact iff_of_false not_unstuck_error fun h => nomatch h.2.1
      · exact iff_of_false not_unstuck_error fun h => nomatch h.2.1
      cases hauth : c.authentication with
      | error e => exact iff_of_false not_unstuck_error fun h => nomatch h.2.2.1
      | ok u =>
          rw [and_iff_right rfl, and_iff_right rfl, and_iff_right rfl]
          rcases huser : c.firebaseUser with e | (_ | user)
          · exact iff_of_false not_unstuck_error nofun
          · exact iff_of_true (unstuck_userNotExist _) rfl
          rcases hdocs : c.getDocuments with e | (_ | ⟨d, rest⟩)
          · exact iff_of_false not_unstuck_error nofun
          · exact unstuck_saveAndOpen (userValues user) _ { s with isLoading := true }
          · exact unstuck_saveAndOpen (documentValues d) _ { s with isLoading := true }

theorem signUp_unstuck (name email : Option String) (s : Screen) :
    Unstuck (run (signUp c name email) s) ↔
      c.getInstance = .ok () ∧ c.firebaseUser ≠ .ok none ∧
        ∀ e, c.signUp = .error e → Splits e := by
  unfold signUp
  cases hinstance : c.getInstance with
  | error e => exact iff_of_false not_unstuck_error fun h => nomatch h.1
  | ok u =>
      rw [and_iff_right rfl]
      obtain ⟨s', hrun, hopen⟩ :=
        run_trySignUp (c := c) name email { s with isLoading := true, error := false }
      refine (unstuck_try hrun).trans ⟨fun h => ⟨fun hnone => ?_, h.1⟩, fun h => ⟨h.2, hopen⟩⟩
      -- the text of the error on null has no second part
      have hcalls : c.signUp = .error (noSuchMethodError "uid") := by
        rw [Calls.signUp, hnone]
        rfl
      exact absurd (h.1 _ hcalls) (by decide +kernel)

/-- The screen is left usable, with the home page opened or the user told,
exactly under these conditions: by `_signInWithEmail` when the preferences load,
both fields have been set, Firebase does not return null, and the exception that
ends the calls, if one does, has a `', '` in its text; by `_signInWithGoogle`
when the dialog is not cancelled and no call throws; by `_signUp` when the
preferences load, Firebase does not return null, and the exception that ends the
calls, if one does, has a `', '` in its text. -/
theorem unstuck_iff (c : Calls) (s : Screen) (name email password : Option String) :
    (Unstuck (run (signInWithEmail c email password) s) ↔
      c.getInstance = .ok () ∧ email ≠ none ∧ password ≠ none ∧ c.firebaseUser ≠ .ok none ∧
        ∀ e, c.email = .error e → Splits e) ∧
    (Unstuck (run (signInWithGoogle c) s) ↔
      c.getInstance = .ok () ∧ c.googleSignIn = .ok (some ()) ∧ c.authentication = .ok () ∧
        c.google = .ok ()) ∧
    (Unstuck (run (signUp c name email) s) ↔
      c.getInstance = .ok () ∧ c.firebaseUser ≠ .ok none ∧
        ∀ e, c.signUp = .error e → Splits e) :=
  ⟨signInWithEmail_unstuck email password s, signInWithGoogle_unstuck s,
    signUp_unstuck name email s⟩

/-- Calls that return, but for the Google dialog, which is cancelled. -/
def cancelled : Calls where
  getInstance := .ok ()
  googleSignIn := .ok none
  authentication := .ok ()
  firebaseUser := .ok none
  getDocuments := .ok []
  setString _ := .ok ()

/-- The form as it is opened. -/
def opened : Screen where
  isLoading := false
  error := false
  errormsg := "error"
  prefs := ⟨none, none, none, none, none⟩
  told := []

/-- The dialog is cancelled, and the screen keeps loading. -/
theorem unstuck_cancelled_fails :
    (run (signInWithGoogle cancelled) opened).2.isLoading = true ∧
      ¬ ∀ (c : Calls) (s : Screen) (name email password : Option String), s.told = [] →
        Unstuck (run (signInWithEmail c email password) s) ∧
          Unstuck (run (signInWithGoogle c) s) ∧ Unstuck (run (signUp c name email) s) := by
  refine ⟨rfl, fun h => ?_⟩
  have hgoogle := (h cancelled opened none none none rfl).2.1
  exact absurd hgoogle.notLoading (by decide)

end SignIn

end CalendarApp
