/-
# `Account.Handlers` — the handlers of `Account.Session`, interleaved

A handler that is at a step either takes it (`proceed`) or ends there (`stop`):
the step throws, the user it returns is null, or the query of the e-mail
sign-in finds nobody.  `kill` ends all of them.  The buttons stay enabled while
a handler awaits, so handlers interleave; only `checkLogin` runs by itself, over
a blank screen.

A handler that has set all of its facts opens the page of its user, if nobody
else has set them to other values since; `checkLogin` does, if the facts are
coherent.  Hence the two demands on a step (`Undisturbed`): it sets no fact to
another value than a handler that runs has set it to, and it ends no handler
half-way over facts that are not coherent.  A run whose steps meet them opens
the page of the user who is signed in whenever it opens one
(`opensOwn_of_undisturbed`).
-/
import CalendarApp.Account.Session
import CalendarApp.Lib.Lists
import CalendarApp.Lib.Run

namespace CalendarApp

open Lib Session

/-- A handler that runs, and how many of its steps it has taken. -/
structure Handler where
  op : Operation
  taken : Nat
  deriving DecidableEq

namespace Handler

/-- The steps still to come. -/
def todo (h : Handler) : List Session.Step :=
  h.op.steps.drop h.taken

/-- The facts that it has set. -/
def facts (h : Handler) : List Fact :=
  (h.op.steps.take h.taken).filterMap Step.fact

def proceed (h : Handler) : Handler :=
  { h with taken := h.taken + 1 }

/-- It has set a fact, and has another one to set. -/
def UnderWay (h : Handler) : Prop :=
  h.facts ≠ [] ∧ ∃ c ∈ h.todo, c.fact ≠ none

instance (h : Handler) : Decidable h.UnderWay := inferInstanceAs (Decidable (_ ∧ _))

theorem facts_append (h : Handler) :
    h.op.facts = h.facts ++ h.todo.filterMap Step.fact := by
  rw [Operation.facts, facts, todo, ← List.filterMap_append, List.take_append_drop]

theorem facts_subset {h : Handler} {f : Fact} (hf : f ∈ h.facts) : f ∈ h.op.facts := by
  rw [facts_append]
  exact List.mem_append_left _ hf

theorem mem_steps_of_todo {h : Handler} {c : Session.Step} (hc : c ∈ h.todo) :
    c ∈ h.op.steps :=
  List.mem_of_mem_drop hc

theorem facts_of_todo {h : Handler} (htodo : ∀ c ∈ h.todo, c.fact = none) :
    h.facts = h.op.facts := by
  rw [facts_append, List.filterMap_eq_nil_iff.mpr htodo, List.append_nil]

theorem todo_proceed {h : Handler} {c : Session.Step} {todo : List Session.Step}
    (htodo : h.todo = c :: todo) : h.proceed.todo = todo := by
  have htail : h.proceed.todo = h.todo.tail := List.tail_drop.symm
  rw [htail, htodo, List.tail_cons]

theorem facts_proceed {h : Handler} {c : Session.Step} {todo : List Session.Step}
    (htodo : h.todo = c :: todo) : h.proceed.facts = h.facts ++ c.fact.toList := by
  have hnext : h.op.steps[h.taken]? = some c := by
    rw [← List.head?_drop]
    exact congrArg List.head? htodo
  have hone : [c].filterMap Step.fact = c.fact.toList := by
    cases hf : c.fact <;> simp [hf]
  rw [facts, facts, proceed, List.take_add_one, hnext, List.filterMap_append]
  exact congrArg _ hone

theorem facts_of_opens {h : Handler} {c : Session.Step} {todo : List Session.Step}
    (htodo : h.todo = c :: todo) (hopens : c.opens = true) : h.facts = h.op.facts := by
  have hpair : (c :: todo).Pairwise fun c d => c.opens = true → d.fact = none := by
    rw [← htodo]
    exact (pairwise_steps h.op).drop
  apply facts_of_todo
  rw [htodo]
  intro d hd
  rcases List.mem_cons.mp hd with rfl | hd
  · exact fact_of_opens hopens
  · exact (List.pairwise_cons.mp hpair).1 d hd hopens

/-- A handler that has set a fact, and is not under way, has set all of them. -/
theorem facts_of_not_underWay {h : Handler} (hne : h.facts ≠ []) (hnot : ¬ h.UnderWay) :
    h.facts = h.op.facts := by
  apply facts_of_todo
  intro c hc
  by_contra hfact
  exact hnot ⟨hne, c, hc, hfact⟩

theorem not_underWay_checkLogin {h : Handler} (hop : h.op = .checkLogin) : ¬ h.UnderWay := by
  rintro ⟨hne, -⟩
  have hnil : h.facts = [] := by
    rw [List.eq_nil_iff_forall_not_mem]
    intro f hf
    have hmem : f ∈ h.op.facts := facts_subset hf
    rw [hop] at hmem
    exact List.not_mem_nil hmem
  exact hne hnil

end Handler

/-- The app: the three facts, and the handlers that run. -/
structure AccountState where
  session : Session
  running : List Handler
  deriving DecidableEq

namespace AccountState

inductive Action where
  | begin (op : Operation)
  /-- the `i`-th handler takes its next step -/
  | proceed (i : Nat)
  /-- the `i`-th handler ends at an await -/
  | stop (i : Nat)
  /-- the app is killed -/
  | kill
  deriving DecidableEq

/-- Before the first start. -/
def installed : AccountState where
  session := { google := false, firebase := none, id := none }
  running := []

/-- `checkLogin` runs at the start of the app, and there are no buttons on the
screen until it ends. -/
def MayBegin (s : AccountState) (op : Operation) : Prop :=
  s.running = [] ∨ op ≠ .checkLogin ∧ ∀ h ∈ s.running, h.op ≠ .checkLogin

instance (s : AccountState) (op : Operation) : Decidable (s.MayBegin op) :=
  inferInstanceAs (Decidable (_ ∨ _))

/-- The handlers that run after the `i`-th one has taken the step `c`. -/
def resumed (s : AccountState) (i : Nat) (h : Handler) (c : Session.Step) : List Handler :=
  if s.session.goesOn c ∧ h.proceed.todo ≠ [] then s.running.set i h.proceed
  else s.running.eraseIdx i

def step (s : AccountState) : Action → Option AccountState
  | .begin op =>
      if s.MayBegin op then some { s with running := s.running ++ [⟨op, 0⟩] } else none
  | .proceed i =>
      match s.running[i]? with
      | none => none
      | some h =>
          match h.todo with
          | [] => none
          | c :: _ => some { session := s.session.perform c, running := s.resumed i h c }
  | .stop i =>
      match s.running[i]? with
      | none => none
      | some _ => some { s with running := s.running.eraseIdx i }
  | .kill => some { s with running := [] }

/-- The step that an action takes. -/
def taken (s : AccountState) : Action → Option Session.Step
  | .proceed i => s.running[i]?.bind fun h => h.todo.head?
  | _ => none

/-- The argument of the `HomePage` that an action opens. -/
def opened (s : AccountState) (a : Action) : Option (Option Uid) :=
  match s.taken a with
  | none => none
  | some c => if c.opens then some s.session.id else none

/-- A `HomePage(id)` that is opened has the uid of the Firebase user as its id. -/
def OpensOwn (s : AccountState) (a : Action) (_ : AccountState) : Prop :=
  ∀ id ∈ s.opened a, id ≠ none ∧ id = s.session.firebase

/-- A step sets no fact to another value than a handler that runs has set it to,
and no handler is ended half-way over facts that are not coherent. -/
def Undisturbed (s : AccountState) : Action → Prop
  | .begin _ => True
  | .proceed i =>
      ∀ c ∈ s.taken (.proceed i), ∀ g ∈ c.fact,
        ∀ h ∈ s.running.eraseIdx i, ∀ f ∈ h.facts, f.Agrees g
  | .stop i => ∀ h ∈ s.running[i]?, h.UnderWay → s.session.Coherent
  | .kill => ∀ h ∈ s.running, h.UnderWay → s.session.Coherent

instance (s : AccountState) (a : Action) (s' : AccountState) : Decidable (OpensOwn s a s') :=
  inferInstanceAs (Decidable (∀ id ∈ s.opened a, id ≠ none ∧ id = s.session.firebase))

instance (s : AccountState) : DecidablePred s.Undisturbed
  | .begin _ => inferInstanceAs (Decidable True)
  | .proceed i => inferInstanceAs (Decidable (∀ c ∈ s.taken (.proceed i), _))
  | .stop i => inferInstanceAs (Decidable (∀ h ∈ s.running[i]?, _))
  | .kill => inferInstanceAs (Decidable (∀ h ∈ s.running, _))

/-- Everything a step can do. -/
inductive Stepped (s : AccountState) : Action → AccountState → Prop where
  | begin (op : Operation) (h : s.MayBegin op) :
      Stepped s (.begin op) { s with running := s.running ++ [⟨op, 0⟩] }
  | proceed {i : Nat} {h : Handler} {c : Session.Step} {todo : List Session.Step}
      (hh : s.running[i]? = some h) (htodo : h.todo = c :: todo) :
      Stepped s (.proceed i) { session := s.session.perform c, running := s.resumed i h c }
  | stop {i : Nat} {h : Handler} (hh : s.running[i]? = some h) :
      Stepped s (.stop i) { s with running := s.running.eraseIdx i }
  | kill : Stepped s .kill { s with running := [] }

theorem Stepped.of_step {s s' : AccountState} {a : Action} (h : StepOf step s a s') :
    Stepped s a s' := by
  cases a with
  | begin op =>
      simp only [StepOf, step] at h
      split at h
      · rename_i hmay
        cases h
        exact .begin op hmay
      · cases h
  | proceed i =>
      simp only [StepOf, step] at h
      split at h
      · cases h
      · rename_i g hg
        split at h
        · cases h
        · rename_i c todo htodo
          cases h
          exact .proceed hg htodo
  | stop i =>
      simp only [StepOf, step] at h
      split at h
      · cases h
      · rename_i g hg
        cases h
        exact .stop hg
  | kill =>
      simp only [StepOf, step] at h
      cases h
      exact .kill

/-! ## What the handlers that run have set -/

/-- The invariant: what the handlers have set still is so, `checkLogin` runs by
itself, and it waits for the timer only when someone is logged in; with no
handler under way the facts are coherent. -/
structure Settled (s : AccountState) : Prop where
  has : ∀ h ∈ s.running, ∀ f ∈ h.facts, s.session.Has f
  apart : s.running.length ≤ 1 ∨ ∀ h ∈ s.running, h.op ≠ .checkLogin
  loggedIn : ∀ h ∈ s.running, h.op = .checkLogin → 2 ≤ h.taken → s.session.isLoggedIn = true
  coherent : (∀ h ∈ s.running, ¬ h.UnderWay) → s.session.Coherent

theorem settled_of_coherent {s : Session} (hs : s.Coherent) : Settled ⟨s, []⟩ where
  has := nofun
  apart := Or.inl (Nat.zero_le 1)
  loggedIn := nofun
  coherent := fun _ => hs

theorem Settled.begin {s : AccountState} (hI : s.Settled) {op : Operation}
    (hmay : s.MayBegin op) : Settled { s with running := s.running ++ [⟨op, 0⟩] } where
  has := by
    intro h hh f hf
    rcases List.mem_append.mp hh with hh | hh
    · exact hI.has h hh f hf
    · rw [List.mem_singleton.mp hh] at hf
      exact absurd hf List.not_mem_nil
  apart := by
    rcases hmay with hnil | ⟨hop, hothers⟩
    · left
      simp [hnil]
    · right
      intro h hh
      rcases List.mem_append.mp hh with hh | hh
      · exact hothers h hh
      · rw [List.mem_singleton.mp hh]
        exact hop
  loggedIn := by
    intro h hh hop htaken
    rcases List.mem_append.mp hh with hh | hh
    · exact hI.loggedIn h hh hop htaken
    · rw [List.mem_singleton.mp hh] at htaken
      exact absurd htaken (Nat.not_succ_le_zero 1)
  coherent := fun hnot => hI.coherent fun h hh => hnot h (List.mem_append_left _ hh)

/-- Ending a handler that is not half-way, or over coherent facts. -/
theorem Settled.stop {s : AccountState} (hI : s.Settled) {i : Nat} {h : Handler}
    (hh : s.running[i]? = some h) (hstop : h.UnderWay → s.session.Coherent) :
    Settled { s with running := s.running.eraseIdx i } where
  has := fun g hg => hI.has g (List.mem_of_mem_eraseIdx hg)
  apart := hI.apart.imp (fun h => (List.length_eraseIdx_le ..).trans h)
    fun h g hg => h g (List.mem_of_mem_eraseIdx hg)
  loggedIn := fun g hg => hI.loggedIn g (List.mem_of_mem_eraseIdx hg)
  coherent := by
    intro hnot
    by_cases hway : h.UnderWay
    · exact hstop hway
    · apply hI.coherent
      intro g hg
      rcases (mem_iff_eraseIdx hh).mp hg with rfl | hg
      · exact hway
      · exact hnot g hg

theorem mem_resumed {s : AccountState} {i : Nat} {h g : Handler} {c : Session.Step}
    (hh : s.running[i]? = some h) (hg : g ∈ s.resumed i h c) :
    g ∈ s.running.eraseIdx i ∨ g = h.proceed ∧ s.session.goesOn c = true := by
  rw [resumed] at hg
  split at hg
  · rename_i hgo
    rcases (mem_set_iff hh).mp hg with rfl | hg
    · exact Or.inr ⟨rfl, hgo.1⟩
    · exact Or.inl hg
  · exact Or.inl hg

theorem rest_subset_resumed {s : AccountState} {i : Nat} {h g : Handler} {c : Session.Step}
    (hh : s.running[i]? = some h) (hg : g ∈ s.running.eraseIdx i) : g ∈ s.resumed i h c := by
  rw [resumed]
  split
  · exact (mem_set_iff hh).mpr (Or.inr hg)
  · exact hg

theorem length_resumed_le {s : AccountState} {i : Nat} {h : Handler} {c : Session.Step} :
    (s.resumed i h c).length ≤ s.running.length := by
  rw [resumed]
  split
  · rw [List.length_set]
  · exact List.length_eraseIdx_le ..

theorem perform_checkLogin {h : Handler} {c : Session.Step} (s : Session) (hc : c ∈ h.todo)
    (hop : h.op = .checkLogin) : s.perform c = s := by
  have hmem : c ∈ Operation.checkLogin.steps := hop ▸ Handler.mem_steps_of_todo hc
  simp only [Operation.steps, List.mem_cons, List.not_mem_nil, or_false] at hmem
  rcases hmem with rfl | rfl | rfl <;> rfl

theorem goesOn_of_ne_checkLogin {h : Handler} {c : Session.Step} (s : Session)
    (hc : c ∈ h.todo) (hop : h.op ≠ .checkLogin) : s.goesOn c = true := by
  have hmem : c ∈ h.op.steps := Handler.mem_steps_of_todo hc
  have hne : c ≠ .isSignedIn := by
    rintro rfl
    cases hcase : h.op with
    | checkLogin => exact hop hcase
    | _ =>
        rw [hcase] at hmem
        simp [Operation.steps, setProfile] at hmem
  cases c with
  | isSignedIn => exact absurd rfl hne
  | _ => rfl

theorem Settled.has_proceed {s : AccountState} (hI : s.Settled) {i : Nat} {h : Handler}
    {c : Session.Step} {todo : List Session.Step} (hh : s.running[i]? = some h)
    (htodo : h.todo = c :: todo) : ∀ f ∈ h.proceed.facts, (s.session.perform c).Has f := by
  have hown : ∀ f ∈ h.facts, s.session.Has f := hI.has h (List.mem_of_getElem? hh)
  intro f hf
  rw [Handler.facts_proceed htodo] at hf
  cases hfact : c.fact with
  | none =>
      rw [hfact, Option.toList_none, List.append_nil] at hf
      rw [perform_of_fact_none hfact]
      exact hown f hf
  | some e =>
      have hc : c ∈ h.op.steps := Handler.mem_steps_of_todo (by simp [htodo])
      have he : e ∈ h.op.facts := List.mem_filterMap.mpr ⟨c, hc, hfact⟩
      rw [hfact, Option.toList_some] at hf
      rw [perform_of_fact_some hfact]
      rcases List.mem_append.mp hf with hf | hf
      · exact has_set_of_agrees (agrees_of_facts (Handler.facts_subset hf) he) (hown f hf)
      · rw [List.mem_singleton.mp hf]
        exact has_set_self _ e

theorem Settled.loggedIn_proceed {s : AccountState} (hI : s.Settled) {i : Nat} {h : Handler}
    {c : Session.Step} {todo : List Session.Step} (hh : s.running[i]? = some h)
    (htodo : h.todo = c :: todo) (hgo : s.session.goesOn c = true) (hop : h.op = .checkLogin)
    (htaken : 2 ≤ h.proceed.taken) : (s.session.perform c).isLoggedIn = true := by
  have hc : c ∈ h.todo := by simp [htodo]
  rw [perform_checkLogin s.session hc hop]
  by_cases hlate : 2 ≤ h.taken
  · exact hI.loggedIn h (List.mem_of_getElem? hh) hop hlate
  · -- the step is `isSignedIn`, and the handler has gone on after it
    have hone : h.taken = 1 := by
      have hsucc : h.proceed.taken = h.taken + 1 := rfl
      omega
    rw [Handler.todo, hop, hone] at htodo
    have hstep : c = .isSignedIn := (List.cons.inj htodo).1.symm
    rw [hstep] at hgo
    exact hgo

/-- A step that agrees with the other handlers leaves alone what they have set. -/
theorem Settled.has_others {s : AccountState} (hI : s.Settled) {i : Nat} {c : Session.Step}
    (hquiet : ∀ e ∈ c.fact, ∀ g ∈ s.running.eraseIdx i, ∀ f ∈ g.facts, f.Agrees e) :
    ∀ g ∈ s.running.eraseIdx i, ∀ f ∈ g.facts, (s.session.perform c).Has f := by
  intro g hg f hf
  have hhas : s.session.Has f := hI.has g (List.mem_of_mem_eraseIdx hg) f hf
  cases hfact : c.fact with
  | none =>
      rw [perform_of_fact_none hfact]
      exact hhas
  | some e =>
      rw [perform_of_fact_some hfact]
      exact has_set_of_agrees (hquiet e hfact g hg f hf) hhas

theorem Settled.proceed {s : AccountState} (hI : s.Settled) {i : Nat} {h : Handler}
    {c : Session.Step} {todo : List Session.Step} (hh : s.running[i]? = some h)
    (htodo : h.todo = c :: todo)
    (hquiet : ∀ e ∈ c.fact, ∀ g ∈ s.running.eraseIdx i, ∀ f ∈ g.facts, f.Agrees e) :
    Settled { session := s.session.perform c, running := s.resumed i h c } where
  has := by
    intro g hg
    rcases mem_resumed hh hg with hg | ⟨rfl, -⟩
    · exact hI.has_others hquiet g hg
    · exact hI.has_proceed hh htodo
  apart := by
    refine hI.apart.imp length_resumed_le.trans fun hnone g hg => ?_
    rcases mem_resumed hh hg with hg | ⟨rfl, -⟩
    · exact hnone g (List.mem_of_mem_eraseIdx hg)
    · exact hnone h (List.mem_of_getElem? hh)
  loggedIn := by
    intro g hg hop htaken
    rcases mem_resumed hh hg with hg | ⟨rfl, hgo⟩
    · -- `checkLogin` is the only one that runs
      rcases hI.apart with hlength | hnone
      · have hlt : i < s.running.length := (List.getElem?_eq_some_iff.mp hh).1
        have hrest : (s.running.eraseIdx i).length = s.running.length - 1 :=
          List.length_eraseIdx_of_lt hlt
        have hpos : 0 < (s.running.eraseIdx i).length := List.length_pos_of_mem hg
        omega
      · exact absurd hop (hnone g (List.mem_of_mem_eraseIdx hg))
    · exact hI.loggedIn_proceed hh htodo hgo hop htaken
  coherent := by
    intro hnot
    have hc : c ∈ h.todo := by simp [htodo]
    have hself : ¬ h.proceed.UnderWay := by
      intro hway
      have hop : h.op ≠ .checkLogin := fun hop =>
        Handler.not_underWay_checkLogin (h := h.proceed) hop hway
      obtain ⟨-, d, hd, -⟩ := id hway
      have hgoes : s.session.goesOn c ∧ h.proceed.todo ≠ [] :=
        ⟨goesOn_of_ne_checkLogin s.session hc hop, List.ne_nil_of_mem hd⟩
      have hin : h.proceed ∈ s.resumed i h c := by
        rw [resumed, if_pos hgoes]
        exact (mem_set_iff hh).mpr (Or.inl rfl)
      exact hnot h.proceed hin hway
    by_cases hnil : h.proceed.facts = []
    · -- it has set nothing so far, this step included
      rw [Handler.facts_proceed htodo, List.append_eq_nil_iff] at hnil
      obtain ⟨hfacts, hfact⟩ := hnil
      rw [perform_of_fact_none (Option.toList_eq_nil_iff.mp hfact)]
      apply hI.coherent
      intro g hg
      rcases (mem_iff_eraseIdx hh).mp hg with rfl | hg
      · exact fun hway => hway.1 hfacts
      · exact hnot g (rest_subset_resumed hh hg)
    · have hall : h.proceed.facts = h.op.facts := Handler.facts_of_not_underWay hnil hself
      have hhas : ∀ f ∈ h.op.facts, (s.session.perform c).Has f := by
        rw [← hall]
        exact hI.has_proceed hh htodo
      exact coherent_of_facts (hall ▸ hnil) hhas

/-- The handler whose step opens the page finds its user's facts. -/
theorem Settled.own {s : AccountState} (hI : s.Settled) {i : Nat} {h : Handler}
    {c : Session.Step} {todo : List Session.Step} (hh : s.running[i]? = some h)
    (htodo : h.todo = c :: todo) (hopens : c.opens = true) : s.session.Own := by
  have hmem : h ∈ s.running := List.mem_of_getElem? hh
  have hc : c ∈ h.op.steps := Handler.mem_steps_of_todo (by simp [htodo])
  by_cases hop : h.op = .checkLogin
  · -- the timer: someone is logged in, and no handler is under way
    have htaken : 2 ≤ h.taken := by
      by_contra hearly
      rw [Handler.todo, hop] at htodo
      have hcases : h.taken = 0 ∨ h.taken = 1 := by omega
      rcases hcases with hzero | hone
      · rw [hzero] at htodo
        rw [← (List.cons.inj htodo).1] at hopens
        exact absurd hopens nofun
      · rw [hone] at htodo
        rw [← (List.cons.inj htodo).1] at hopens
        exact absurd hopens nofun
    have hcoherent : s.session.Coherent := by
      apply hI.coherent
      intro g hg
      rcases hI.apart with hlength | hnone
      · obtain ⟨x, hx⟩ : ∃ x, s.running = [x] :=
          List.length_eq_one_iff.mp (Nat.le_antisymm hlength (List.length_pos_of_mem hmem))
        rw [hx] at hmem hg
        rw [List.mem_singleton.mp hg, ← List.mem_singleton.mp hmem]
        exact Handler.not_underWay_checkLogin hop
      · exact absurd hop (hnone h hmem)
    exact (own_iff_coherent (hI.loggedIn h hmem hop htaken)).mpr hcoherent
  · have hfacts : ∀ f ∈ h.op.facts, s.session.Has f := by
      rw [← Handler.facts_of_opens htodo hopens]
      exact hI.has h hmem
    exact own_of_facts hop hc hopens hfacts

theorem settled_step {s s' : AccountState} {a : Action} (hI : s.Settled)
    (h : StepOf step s a s') (hquiet : s.Undisturbed a) : OpensOwn s a s' ∧ s'.Settled := by
  cases Stepped.of_step h with
  | begin op hmay => exact ⟨nofun, hI.begin hmay⟩
  | stop hh => exact ⟨nofun, hI.stop hh (hquiet _ hh)⟩
  | kill =>
      refine ⟨nofun, settled_of_coherent ?_⟩
      by_cases hway : ∃ g ∈ s.running, g.UnderWay
      · obtain ⟨g, hg, hway⟩ := hway
        exact hquiet g hg hway
      · exact hI.coherent fun g hg hgway => hway ⟨g, hg, hgway⟩
  | @proceed i g c todo hh htodo =>
      have htaken : s.taken (.proceed i) = some c := by
        simp only [taken, hh, Option.bind_some, htodo, List.head?_cons]
      refine ⟨?_, hI.proceed hh htodo (hquiet c htaken)⟩
      intro id hid
      rw [opened, htaken] at hid
      split at hid
      · cases hid
      · rename_i d hd
        cases hd
        split at hid
        · rename_i hopens
          cases hid
          exact hI.own hh htodo hopens
        · cases hid

/-! ## A handler that runs by itself -/

/-- A handler begins when no other one runs, and where it may be stopped. -/
def BeginsAlone (s : AccountState) (a : Action) : Prop :=
  ∀ op, a = .begin op → s.running = [] ∧ MayStop s.session op

/-- At most one handler runs, and it may be stopped at any await. -/
inductive Alone (s : AccountState) : Prop where
  | nobody (h : s.running = []) (hs : s.session.Coherent)
  | one {h : Handler} (hh : s.running = [h]) (hs : Throughout h.todo s.session)

theorem Alone.coherent {s : AccountState} (hI : s.Alone) : s.session.Coherent := by
  cases hI with
  | nobody hnil hs => exact hs
  | one hh hs => exact hs.coherent

theorem Alone.eq_one {s : AccountState} (hI : s.Alone) {i : Nat} {h : Handler}
    (hh : s.running[i]? = some h) :
    i = 0 ∧ s.running = [h] ∧ Throughout h.todo s.session := by
  cases hI with
  | nobody hnil hs =>
      rw [hnil] at hh
      cases hh
  | @one g hg hs =>
      rw [hg, List.getElem?_singleton] at hh
      split at hh
      · rename_i hi
        cases hh
        exact ⟨hi, hg, hs⟩
      · cases hh

theorem alone_step {s s' : AccountState} {a : Action} (hI : s.Alone) (h : StepOf step s a s')
    (hC : s.BeginsAlone a) : s.Undisturbed a ∧ s'.Alone := by
  cases Stepped.of_step h with
  | begin op hmay =>
      obtain ⟨hnil, hstop⟩ := hC op rfl
      refine ⟨trivial, .one (h := ⟨op, 0⟩) (by simp [hnil]) ?_⟩
      exact (throughout_iff hI.coherent op).mpr hstop
  | kill => exact ⟨fun _ _ _ => hI.coherent, .nobody rfl hI.coherent⟩
  | stop hh =>
      obtain ⟨rfl, hone, -⟩ := hI.eq_one hh
      exact ⟨fun _ _ _ => hI.coherent, .nobody (by simp [hone]) hI.coherent⟩
  | @proceed i g c todo hh htodo =>
      obtain ⟨rfl, hone, hthroughout⟩ := hI.eq_one hh
      rw [htodo] at hthroughout
      constructor
      · intro c _ e _ k hk
        rw [hone] at hk
        exact absurd hk List.not_mem_nil
      · by_cases hgo : s.session.goesOn c ∧ g.proceed.todo ≠ []
        · refine .one (h := g.proceed) (by simp [resumed, hgo, hone]) ?_
          rw [Handler.todo_proceed htodo]
          exact hthroughout.2
        · exact .nobody (by simp only [resumed, if_neg hgo, hone]; rfl) hthroughout.2.coherent

/-- The app is started, and nobody stops it. -/
def appStart : List Action :=
  [.begin .checkLogin, .proceed 0, .proceed 0, .proceed 0]

/-- A start of the app opens no page of anybody else exactly when it meets
coherent facts. -/
theorem coherent_iff_appStart {s : Session} :
    s.Coherent ↔ ∀ tr, Run (StepOf step) ⟨s, []⟩ tr → tr.map Prod.fst = appStart →
      Along OpensOwn ⟨s, []⟩ tr := by
  constructor
  · intro hs tr hrun hacts
    have hguard : Guarded (fun _ a => a ∈ appStart) ⟨s, []⟩ tr :=
      Guarded.of_actions fun a ha => hacts ▸ ha
    refine Along.of_guarded (I := fun t : AccountState => t.Settled ∧ t.Alone)
      (fun t a t' hI h ha => ?_) ⟨settled_of_coherent hs, .nobody rfl hs⟩ hrun hguard
    have hbegins : t.BeginsAlone a := by
      rintro op rfl
      have hop : op = .checkLogin := by simpa [appStart] using ha
      subst hop
      cases Stepped.of_step h with
      | begin op hmay =>
          exact ⟨hmay.resolve_right fun hother => hother.1 rfl, trivial⟩
    obtain ⟨hquiet, halone⟩ := alone_step hI.2 h hbegins
    obtain ⟨hopens, hsettled⟩ := settled_step hI.1 h hquiet
    exact ⟨hopens, hsettled, halone⟩
  · intro hall
    by_cases hlogged : s.isLoggedIn = true
    · have hrun : Run (StepOf step) ⟨s, []⟩
          [(.begin .checkLogin, ⟨s, [⟨.checkLogin, 0⟩]⟩), (.proceed 0, ⟨s, [⟨.checkLogin, 1⟩]⟩),
            (.proceed 0, ⟨s, [⟨.checkLogin, 2⟩]⟩), (.proceed 0, ⟨s, []⟩)] := by
        refine ⟨rfl, rfl, ?_, rfl, trivial⟩
        simp [StepOf, step, resumed, Handler.todo, Handler.proceed, Operation.steps, goesOn,
          hlogged, perform, Step.fact]
      have hopens := (hall _ hrun rfl).2.2.2.1
      exact Or.inr (hopens s.id rfl)
    · exact Or.inl (Bool.eq_false_iff.mpr hlogged)

/-! ## Runs -/

/-- A run opens the page of the user who is signed in, each time it opens one,
if its steps disturb no handler and end none half-way over incoherent facts.
So they do if each handler begins by itself and where it may be stopped, which
is where the facts stay coherent at each of its awaits; and a start of the app
opens a wrong page whenever they are not. -/
theorem opensOwn_of_undisturbed {tr : List (Action × AccountState)}
    (hrun : Run (StepOf step) installed tr) :
    (Guarded Undisturbed installed tr → Along OpensOwn installed tr) ∧
      (Guarded BeginsAlone installed tr → Guarded Undisturbed installed tr) ∧
      (∀ s : Session, s.Coherent → ∀ op,
        (MayStop s op ↔ ∀ k, ((op.steps.take k).foldl perform s).Coherent)) ∧
      ∀ s : Session, s.Coherent ↔ ∀ tr, Run (StepOf step) ⟨s, []⟩ tr →
        tr.map Prod.fst = appStart → Along OpensOwn ⟨s, []⟩ tr := by
  have hstart : installed.session.Coherent := Or.inl rfl
  refine ⟨fun hquiet => ?_, fun halone => ?_, fun s hs op => ?_, fun s => coherent_iff_appStart⟩
  · exact Along.of_guarded (C := Undisturbed) (I := Settled)
      (fun s a s' hI h hC => settled_step hI h hC) (settled_of_coherent hstart) hrun hquiet
  · exact Along.of_guarded (C := BeginsAlone) (I := Alone)
      (fun s a s' hI h hC => alone_step hI h hC) (.nobody rfl hstart) hrun halone
  · rw [← throughout_iff hs op, throughout_iff_take]

/-- A sign-up, and the app started again. -/
theorem opensOwn_signUp :
    let uid : Uid := ⟨"alice", by decide, by decide⟩
    ∃ tr : List (Action × AccountState),
      tr.map Prod.fst =
        [.begin (.signUp uid)] ++ List.replicate 7 (.proceed 0) ++ [.kill] ++ appStart ∧
      Along OpensOwn installed tr := by
  intro uid
  obtain ⟨tr, hacts, hrun, hguard⟩ :=
    exists_run (f := step) (s := installed) (P := Guarded Undisturbed installed)
      ([.begin (.signUp uid)] ++ List.replicate 7 (.proceed 0) ++ [.kill] ++ appStart)
      (by decide)
  exact ⟨tr, hacts, (opensOwn_of_undisturbed hrun).1 hguard⟩

/-- Bob's Google sign-in reaches Firebase while Alice's e-mail sign-in awaits the
query: her page is opened with his session. -/
example :
    let alice : Uid := ⟨"alice", by decide, by decide⟩
    let bob : Uid := ⟨"bob", by decide, by decide⟩
    (exec step installed
      ([.begin (.signInWithEmail alice), .proceed 0, .proceed 0,
        .begin (.signInWithGoogle bob)] ++ List.replicate 4 (.proceed 1) ++
          List.replicate 7 (.proceed 0))).any
      (fun tr => decide (¬ Along OpensOwn installed tr)) = true := by
  decide

/-- A Google sign-in that stops after its first step: the next start of the app
opens the page without an id. -/
theorem opensOwn_google_fails :
    ¬ ∀ tr, Run (StepOf step) installed tr → Along OpensOwn installed tr := by
  intro h
  let uid : Uid := ⟨"alice", by decide, by decide⟩
  obtain ⟨tr, -, hrun, hbad⟩ :=
    exists_run (f := step) (s := installed) (P := fun tr => ¬ Along OpensOwn installed tr)
      ([.begin (.signInWithGoogle uid), .proceed 0, .proceed 0, .stop 0, .kill] ++ appStart)
      (by decide)
  exact hbad (h tr hrun)

end AccountState

end CalendarApp
