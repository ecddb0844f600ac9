/-
# `Event.Dates` — choosing a date by year, month and day

The three date setters of a side rebuild its date from one chosen field and
the other two as they stand, and a `DateTime` rolls a day that its month does
not have over into the next month.

    setter     date built                    if the month lacks the day
    year       (y, month, day)               29 February becomes 1 March
    month      (year, m, day)                the first days of month m + 1
    day        (year, month, d)              the first days of the next month

So the order of three selections matters.  The chosen date comes out exactly
when the dates with the first field replaced, and with the first two replaced,
exist; a year set first may roll 29 February over, since both other fields are
chosen after it (`selects_iff`).
-/
import CalendarApp.Event.Document
import Mathlib.Data.List.Basic
import Mathlib.Tactic.Tauto

namespace CalendarApp

open Lib

inductive DateField where
  | year | month | day
  deriving DecidableEq, Repr

/-- A date with one field taken from the target. -/
def put (target date : Date) : DateField → Date
  | .year => { date with year := target.year }
  | .month => { date with month := target.month }
  | .day => { date with day := target.day }

/-- The date a setter builds, which rolls over if it does not exist. -/
def roll (target date : Date) (f : DateField) : Date :=
  rolledDate (put target date f).year (put target date f).month (put target date f).day

/-- The condition on the start and the target: the dates on the way exist, or
the first selection is a year that lacks 29 February. -/
def Clear (start target : Date) : List DateField → Prop
  | f :: g :: _ =>
      (put target start f).Valid ∧ (put target (put target start f) g).Valid ∨
        f = .year ∧ ¬ (put target start f).Valid
  | _ => True

instance (start target : Date) : ∀ order, Decidable (Clear start target order)
  | _ :: _ :: _ => inferInstanceAs (Decidable (_ ∧ _ ∨ _ ∧ ¬ _))
  | [] | [_] => inferInstanceAs (Decidable True)

namespace EventModal

/-- A selection on the date wheels of a side, at the index of the target's
value. -/
def select (z : Zone) (s : Side) (target : Date) (e : EventModal) :
    DateField → Option EventModal
  | .year => e.year z s (indexOf yearlist target.year).toNat
  | .month => some (e.month z s (target.month - 1).toNat)
  | .day => some (e.day z s (target.day - 1).toNat)

/-- The selections of an order leave the side on the target's date, and change
nothing else. -/
def Selects (z : Zone) (s : Side) (target : Date) (order : List DateField)
    (e : EventModal) : Prop :=
  order.foldlM (select z s target) e =
    some (e.setDate s (z.dateTime target.year target.month target.day))

end EventModal

/-! ## Dates that roll over -/

variable {target date : Date}

theorem roll_of_valid {f : DateField} (h : (put target date f).Valid) :
    roll target date f = put target date f := by
  obtain ⟨h₁, h₂, h₃, h₄⟩ := h
  exact rolledDate_of_le h₁ h₂ h₃ h₄

theorem put_range (hd : date.Valid) (ht : target.Valid) (f : DateField) :
    1 ≤ (put target date f).month ∧ (put target date f).month ≤ 12 ∧
      1 ≤ (put target date f).day ∧ (put target date f).day ≤ 31 := by
  obtain ⟨h₁, h₂, h₃, h₄⟩ := hd
  obtain ⟨t₁, t₂, t₃, t₄⟩ := ht
  have hlen := (@monthLength_range (isLeap date.year) _ h₁ h₂).2
  have tlen := (@monthLength_range (isLeap target.year) _ t₁ t₂).2
  cases f with
  | year => exact ⟨h₁, h₂, h₃, h₄.trans hlen⟩
  | month => exact ⟨t₁, t₂, h₃, h₄.trans hlen⟩
  | day => exact ⟨h₁, h₂, t₃, t₄.trans tlen⟩

/-- A date that does not exist becomes one of the first days of the next
month. -/
theorem roll_of_not_valid {f : DateField} (hd : date.Valid) (ht : target.Valid)
    (h : ¬ (put target date f).Valid) :
    ∃ d, 1 ≤ d ∧ d ≤ 3 ∧ d < (put target date f).day ∧ (put target date f).month ≤ 11 ∧
      roll target date f = ⟨(put target date f).year, (put target date f).month + 1, d⟩ := by
  obtain ⟨h₁, h₂, h₃, h₄⟩ := put_range hd ht f
  have hlen := @monthLength_range (isLeap (put target date f).year) _ h₁ h₂
  have hgt : monthLength (isLeap (put target date f).year) (put target date f).month <
      (put target date f).day := by
    by_contra hle
    exact h ⟨h₁, h₂, h₃, Int.not_lt.mp hle⟩
  have hm : (put target date f).month ≠ 12 := by
    intro h12
    rw [h12, monthLength_december] at hgt
    omega
  refine ⟨_, ?_, ?_, ?_, ?_, rolledDate_of_gt h₁ h₂ h₄ hgt⟩ <;> omega

theorem roll_valid (target date : Date) (f : DateField) : (roll target date f).Valid :=
  dateOf_valid _

theorem february_of_not_valid (hd : date.Valid) (h : ¬ (put target date .year).Valid) :
    date.month = 2 := by
  by_contra hm
  obtain ⟨h₁, h₂, h₃, h₄⟩ := hd
  refine h ⟨h₁, h₂, h₃, ?_⟩
  show date.day ≤ monthLength (isLeap target.year) date.month
  rw [monthLength_eq _ (isLeap date.year) h₁ h₂ hm]
  exact h₄

theorem roll_of_small {f : DateField} (hd : date.Valid) (ht : target.Valid)
    (hday : date.day ≤ 28) (hf : f ≠ .day) : roll target date f = put target date f := by
  refine roll_of_valid ?_
  obtain ⟨h₁, h₂, h₃, -⟩ := put_range hd ht f
  have hlen := (@monthLength_range (isLeap (put target date f).year) _ h₁ h₂).1
  refine ⟨h₁, h₂, h₃, Int.le_trans ?_ hlen⟩
  cases f with
  | year => exact hday
  | month => exact hday
  | day => exact absurd rfl hf

theorem month_le_roll {f : DateField} (hd : date.Valid) (ht : target.Valid)
    (hf : f ≠ .month) : date.month ≤ (roll target date f).month := by
  have hmonth : (put target date f).month = date.month := by
    cases f with
    | year => rfl
    | month => exact absurd rfl hf
    | day => rfl
  by_cases h : (put target date f).Valid
  · rw [roll_of_valid h, hmonth]
  · obtain ⟨d, -, -, -, -, hroll⟩ := roll_of_not_valid hd ht h
    rw [hroll, ← hmonth]
    show _ ≤ (put target date f).month + 1
    omega

theorem foldl_roll_valid : ∀ {order : List DateField} {date : Date}, date.Valid →
    (order.foldl (roll target) date).Valid
  | [], _, h => h
  | f :: _, date, _ => by
      rw [List.foldl_cons]
      exact foldl_roll_valid (roll_valid target date f)

/-! ## A roll is not made good -/

/-- No selection of `rest` can bring the date to the target: the month is past
the target's, or the day short of it, and it is not selected again. -/
def Lost (target date : Date) (rest : List DateField) : Prop :=
  (.month ∉ rest ∧ target.month < date.month) ∨
    (.day ∉ rest ∧ date.day < target.day ∧ date.day ≤ 28)

theorem lost_of_not_valid {f : DateField} {rest : List DateField} (hd : date.Valid)
    (ht : target.Valid) (h : ¬ (put target date f).Valid)
    (hfield : (.month ∉ rest ∧ (put target date f).month = target.month) ∨
      (.day ∉ rest ∧ (put target date f).day = target.day)) :
    Lost target (roll target date f) rest := by
  obtain ⟨d, -, hd₃, hlt, -, hroll⟩ := roll_of_not_valid hd ht h
  rw [hroll]
  rcases hfield with ⟨hrest, hm⟩ | ⟨hrest, hday⟩
  · refine Or.inl ⟨hrest, ?_⟩
    show target.month < (put target date f).month + 1
    omega
  · refine Or.inr ⟨hrest, ?_, ?_⟩
    · rw [← hday]
      exact hlt
    · show d ≤ 28
      omega

theorem Lost.selected {f : DateField} {rest : List DateField} (hd : date.Valid) (ht : target.Valid)
    (h : Lost target date (f :: rest)) : Lost target (roll target date f) rest := by
  rcases h with ⟨hrest, hm⟩ | ⟨hrest, hlt, hsmall⟩
  · rw [List.mem_cons, not_or] at hrest
    exact Or.inl ⟨hrest.2, hm.trans_le (month_le_roll hd ht (Ne.symm hrest.1))⟩
  · rw [List.mem_cons, not_or] at hrest
    refine Or.inr ⟨hrest.2, ?_⟩
    have hday : (put target date f).day = date.day := by
      cases f with
      | year => rfl
      | month => rfl
      | day => exact absurd rfl hrest.1
    rw [roll_of_small hd ht hsmall (Ne.symm hrest.1), hday]
    exact ⟨hlt, hsmall⟩

theorem Lost.foldl_ne (ht : target.Valid) : ∀ {rest : List DateField} {date : Date},
    date.Valid → Lost target date rest → rest.foldl (roll target) date ≠ target
  | [], date, _, h => by
      rw [List.foldl_nil]
      rcases h with ⟨-, hm⟩ | ⟨-, hlt, -⟩
      · exact fun hend => absurd (congrArg Date.month hend) (ne_of_gt hm)
      · exact fun hend => absurd (congrArg Date.day hend) (ne_of_lt hlt)
  | f :: _, date, hd, h => by
      rw [List.foldl_cons]
      exact Lost.foldl_ne ht (roll_valid target date f) (h.selected hd ht)

/-! ## Three selections -/

theorem foldl_of_march (ht : target.Valid) {d : Int} (h₁ : 1 ≤ d) (h₃ : d ≤ 3) :
    [DateField.month, .day].foldl (roll target) ⟨target.year, 3, d⟩ = target ∧
      [DateField.day, .month].foldl (roll target) ⟨target.year, 3, d⟩ = target := by
  have hmonth : (1 : Int) ≤ 3 ∧ (3 : Int) ≤ 12 := by decide
  have hmarch : (⟨target.year, 3, d⟩ : Date).Valid := by
    refine ⟨hmonth.1, hmonth.2, h₁, ?_⟩
    rw [monthLength_march]
    exact h₃.trans (by decide)
  have hday : (put target ⟨target.year, 3, d⟩ .day).Valid := by
    refine ⟨hmonth.1, hmonth.2, ht.2.2.1, ?_⟩
    show target.day ≤ monthLength (isLeap target.year) 3
    rw [monthLength_march]
    exact ht.2.2.2.trans (monthLength_range ht.1 ht.2.1).2
  constructor
  · rw [List.foldl_cons, roll_of_small hmarch ht (h₃.trans (by decide)) (by decide)]
    exact roll_of_valid (f := .day) ht
  · rw [List.foldl_cons, roll_of_valid hday]
    exact roll_of_valid (f := .month) ht

/-- Whether three selections end on the target. -/
theorem foldl_roll_iff {order : List DateField} (hd : date.Valid) (ht : target.Valid)
    (horder : order.Perm [.year, .month, .day]) :
    order.foldl (roll target) date = target ↔ Clear date target order := by
  obtain ⟨f, g, h, rfl⟩ : ∃ f g h, order = [f, g, h] := List.length_eq_three.mp horder.length_eq
  have hnd : [f, g, h].Nodup := horder.nodup_iff.mpr (by decide)
  have hall : put target (put target (put target date f) g) h = target := by
    cases f <;> cases g <;> cases h <;> first | rfl | exact absurd hnd (by decide)
  simp only [Clear]
  by_cases h₁ : (put target date f).Valid
  · rw [List.foldl_cons, roll_of_valid h₁]
    by_cases h₂ : (put target (put target date f) g).Valid
    · rw [List.foldl_cons, roll_of_valid h₂, List.foldl_cons, roll_of_valid (hall.symm ▸ ht), hall]
      exact iff_of_true rfl (Or.inl ⟨h₁, h₂⟩)
    · -- the month or the day is one of the two fields selected
      refine iff_of_false ?_ fun hclear => hclear.elim (fun hv => h₂ hv.2) fun hv => hv.2 h₁
      rw [List.foldl_cons]
      refine Lost.foldl_ne ht (roll_valid _ _ g) (lost_of_not_valid h₁ ht h₂ ?_)
      cases f <;> cases g <;> cases h <;>
        first
        | exact Or.inl ⟨by decide, rfl⟩
        | exact Or.inr ⟨by decide, rfl⟩
        | exact absurd hnd (by decide)
  · rw [List.foldl_cons]
    cases f with
    | year =>
        refine iff_of_true ?_ (Or.inr ⟨rfl, h₁⟩)
        obtain ⟨d, hd₁, hd₃, -, -, hroll⟩ := roll_of_not_valid hd ht h₁
        have hmarch : roll target date .year = ⟨target.year, 3, d⟩ := by
          rw [hroll, Date.mk.injEq]
          refine ⟨rfl, ?_, rfl⟩
          show date.month + 1 = 3
          rw [february_of_not_valid hd h₁]
          rfl
        have hrest : g = .month ∧ h = .day ∨ g = .day ∧ h = .month := by
          cases g <;> cases h <;> first | decide | exact absurd hnd (by decide)
        rw [hmarch]
        rcases hrest with ⟨rfl, rfl⟩ | ⟨rfl, rfl⟩
        · exact (foldl_of_march ht hd₁ hd₃).1
        · exact (foldl_of_march ht hd₁ hd₃).2
    | month =>
        refine iff_of_false ?_ fun hclear => hclear.elim (fun hv => h₁ hv.1) fun hv => nomatch hv.1
        exact Lost.foldl_ne ht (roll_valid _ _ _)
          (lost_of_not_valid hd ht h₁ (Or.inl ⟨(List.nodup_cons.mp hnd).1, rfl⟩))
    | day =>
        refine iff_of_false ?_ fun hclear => hclear.elim (fun hv => h₁ hv.1) fun hv => nomatch hv.1
        exact Lost.foldl_ne ht (roll_valid _ _ _)
          (lost_of_not_valid hd ht h₁ (Or.inr ⟨(List.nodup_cons.mp hnd).1, rfl⟩))

/-! ## The setters -/

theorem number_roll (target date : Date) (f : DateField) :
    (roll target date f).number =
      rolledDay (put target date f).year (put target date f).month (put target date f).day :=
  dayNumber_dateOf _

namespace EventModal

variable {z : Zone} {s : Side} {e : EventModal}

theorem setDate_setDate (e : EventModal) (s : Side) (d d' : Int) :
    (e.setDate s d).setDate s d' = e.setDate s d' := by
  cases s <;> rfl

theorem select_eq (ht : target.Valid) (hyear : target.year ∈ yearlist) (f : DateField) :
    select z s target e f =
      some (e.setDate s (z.midnight (roll target (z.date (e.date s)) f).number)) := by
  rw [number_roll]
  obtain ⟨hm, -, hd, -⟩ := ht
  cases f with
  | year =>
      obtain ⟨i, hi, hget⟩ := indexOf_of_mem hyear
      rw [select, EventModal.year, hi, Int.toNat_natCast, hget]
      rfl
  | month =>
      have hindex : ((target.month - 1).toNat : Int) + 1 = target.month := by omega
      rw [select, EventModal.month, hindex]
      rfl
  | day =>
      have hindex : ((target.day - 1).toNat : Int) + 1 = target.day := by omega
      rw [select, EventModal.day, hindex]
      rfl

/-- Where no day is skipped, the date read back is the rolled one. -/
theorem date_select (hz : z.EveryDay) (f : DateField) :
    z.date ((e.setDate s (z.midnight (roll target date f).number)).date s) =
      roll target date f := by
  rw [date_setDate_self, Zone.date, hz]
  exact dateOf_dayNumber (roll_valid target date f)

theorem foldlM_select (hz : z.EveryDay) (ht : target.Valid) (hyear : target.year ∈ yearlist) :
    ∀ (f : DateField) (rest : List DateField) (e : EventModal),
      (f :: rest).foldlM (select z s target) e = some (e.setDate s
        (z.midnight ((f :: rest).foldl (roll target) (z.date (e.date s))).number))
  | f, [], e => by
      rw [List.foldlM_cons, select_eq ht hyear]
      rfl
  | f, g :: rest, e => by
      rw [List.foldlM_cons, select_eq ht hyear, Option.bind_eq_bind, Option.bind_some,
        foldlM_select hz ht hyear g rest, date_select hz, setDate_setDate]
      rfl

/-- Selecting the fields of a date in some order sets it, and nothing else,
exactly when the way there is clear. -/
theorem selects_iff (z : Zone) (hz : z.EveryDay) (s : Side) (e : EventModal) (target : Date)
    (htarget : target.Valid) (hyear : target.year ∈ yearlist) (order : List DateField)
    (horder : order.Perm [.year, .month, .day]) :
    Selects z s target order e ↔ Clear (z.date (e.date s)) target order := by
  have hstart : (z.date (e.date s)).Valid := dateOf_valid _
  rw [← foldl_roll_iff hstart htarget horder]
  obtain ⟨f, rest, rfl⟩ : ∃ f rest, order = f :: rest := by
    cases order with
    | nil => exact absurd horder.length_eq (by decide)
    | cons f rest => exact ⟨f, rest, rfl⟩
  have hnumber : z.dateTime target.year target.month target.day = z.midnight target.number :=
    congrArg z.midnight (rolledDay_eq htarget.1 htarget.2.1)
  rw [Selects, foldlM_select hz htarget hyear, hnumber]
  constructor
  · intro hend
    have hdate := congrArg (fun e => e.date s) (Option.some.inj hend)
    simp only [date_setDate_self] at hdate
    have hday := congrArg z.day hdate
    rw [hz, hz] at hday
    have hvalid : ((f :: rest).foldl (roll target) (z.date (e.date s))).Valid := by
      rw [List.foldl_cons]
      exact foldl_roll_valid (roll_valid _ _ f)
    exact (dateOf_dayNumber hvalid).symm.trans
      ((congrArg dateOf hday).trans (dateOf_dayNumber htarget))
  · intro hend
    rw [hend]

/-- 31 January 2019, Hong Kong. -/
def januaryMeeting : EventModal :=
  { mayMeeting with startDate := 1548864000000, endDate := 1548864000000 }

/-- 15 February, day first. -/
theorem selects_february :
    Selects (Zone.fixed 28800000) .start ⟨2019, 2, 15⟩ [.day, .month, .year] januaryMeeting :=
  (selects_iff (Zone.fixed 28800000) (Zone.fixed_everyDay 28800000) .start januaryMeeting
    ⟨2019, 2, 15⟩ (by decide) (by decide) [.day, .month, .year] (by decide)).mpr (by decide)

/-- Month first, the 31st of February becomes 3 March, and 15 March is set. -/
theorem selects_february_fails : ¬ ∀ (z : Zone), z.EveryDay → ∀ (s : Side) (e : EventModal)
    (target : Date), target.Valid → target.year ∈ yearlist → ∀ order : List DateField,
      order.Perm [.year, .month, .day] → Selects z s target order e := by
  intro h
  have hclaim := h (Zone.fixed 28800000) (Zone.fixed_everyDay 28800000) .start januaryMeeting
    ⟨2019, 2, 15⟩ (by decide) (by decide) [.month, .day, .year] (by decide)
  have hmarch : [DateField.month, .day, .year].foldlM
      (select (Zone.fixed 28800000) .start ⟨2019, 2, 15⟩) januaryMeeting =
        some { januaryMeeting with startDate := 1552579200000 } := by decide
  rw [Selects, hmarch] at hclaim
  exact absurd (congrArg EventFields.startDate
    (congrArg EventModal.toEventFields (Option.some.inj hclaim))) (by decide)

end EventModal

end CalendarApp
