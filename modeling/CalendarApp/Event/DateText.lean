/-
# `Event.DateText` — the texts of a date, `dateParser` and its siblings

main.dart writes a date in three ways.

    dateParser    Wed, 1 May 2019    the editor, and the card of the next event
    dateParser2   Wed, 1 May         an invitation, and an all-day event
    dateParser3   1-5-2019           the detail of an event

The first and the last tell the day.  The second leaves the year out, and
the weekday makes up for it in part: a date of the same name falls on the same
weekday again after five years at the earliest (`year_eq_of_weekday`), so
within five years the text tells the day as well, and no longer than that.

The texts of an event are made of these and of `timeParser`.  The wheels of
the editor have texts of their own, one a wheel; put together they are the
texts that stand above them (`wheels_spell`).
-/
import CalendarApp.Event.ClockText
import CalendarApp.Event.NewEvent

namespace CalendarApp

open Lib

/-- `monthlist3`: `monthlist[i].substring(0, 3)`. -/
def monthlist3 : List String := monthlist.map fun month => String.ofList (month.toList.take 3)

/-- `dateParser`; an index outside a list throws. -/
def dateParser (z : Zone) (d : Int) : Option String := do
  let weekday ← weeklistCap[(weekday (z.day d) - 1).toNat]?
  let month ← monthlist3[((z.date d).month - 1).toNat]?
  return weekday ++ ", " ++ toString (z.date d).day ++ " " ++ month ++ " " ++
    toString (z.date d).year

/-- `dateParser2`. -/
def dateParser2 (z : Zone) (d : Int) : Option String := do
  let weekday ← weeklistCap[(weekday (z.day d) - 1).toNat]?
  let month ← monthlist3[((z.date d).month - 1).toNat]?
  return weekday ++ ", " ++ toString (z.date d).day ++ " " ++ month

/-- `dateParser3`. -/
def dateParser3 (z : Zone) (d : Int) : String :=
  toString (z.date d).day ++ "-" ++ toString (z.date d).month ++ "-" ++ toString (z.date d).year

/-! ## Reading the texts -/

theorem names_of_day (n : Int) : ∃ w m, weeklistCap[(weekday n - 1).toNat]? = some w ∧
    monthlist3[((dateOf n).month - 1).toNat]? = some m := by
  obtain ⟨hw₁, hw₂⟩ := weekday_range n
  obtain ⟨hm₁, hm₂, -⟩ := dateOf_valid n
  have hweek : (weekday n - 1).toNat < weeklistCap.length := by
    simp only [weeklistCap, List.length_cons, List.length_nil]
    omega
  have hmonth : ((dateOf n).month - 1).toNat < monthlist3.length := by
    simp only [monthlist3, monthlist, List.length_map, List.length_cons, List.length_nil]
    omega
  exact ⟨_, _, List.getElem?_eq_getElem hweek, List.getElem?_eq_getElem hmonth⟩

theorem weeklistCap_names : weeklistCap.Nodup ∧ ∀ w ∈ weeklistCap, w.toList.length = 3 := by decide

theorem monthlist3_names : monthlist3.Nodup ∧ ∀ m ∈ monthlist3, m.toList.length = 3 := by decide

theorem index_of_name {l : List String} (hnodup : l.Nodup) {i j : Int} (hi : 1 ≤ i) (hj : 1 ≤ j)
    {x y : String} (hx : l[(i - 1).toNat]? = some x) (hy : l[(j - 1).toNat]? = some y) :
    x = y ↔ i = j := by
  obtain ⟨hlt, rfl⟩ := List.getElem?_eq_some_iff.mp hx
  obtain ⟨hlt', rfl⟩ := List.getElem?_eq_some_iff.mp hy
  rw [hnodup.getElem_inj_iff]
  omega

theorem layout_inj {w w' r r' : String} {n n' : Int} (hw : w.toList.length = 3)
    (hw' : w'.toList.length = 3) (hn : 0 ≤ n) (hn' : 0 ≤ n') :
    w ++ ", " ++ toString n ++ " " ++ r = w' ++ ", " ++ toString n' ++ " " ++ r' ↔
      w = w' ∧ n = n' ∧ r = r' := by
  constructor
  · intro h
    have hchars := congrArg String.toList h
    simp only [String.toList_append, List.append_assoc] at hchars
    obtain ⟨hname, htail⟩ := List.append_inj hchars (hw.trans hw'.symm)
    obtain ⟨-, hrest⟩ := List.append_inj htail rfl
    obtain ⟨hnumber, hend⟩ := (append_sep_inj (notMem_numeral rfl hn)
      (notMem_numeral rfl hn')).mp hrest
    exact ⟨String.toList_inj.mp hname, Int.repr_inj.mp (String.toList_inj.mp hnumber),
      String.toList_inj.mp hend⟩
  · rintro ⟨rfl, rfl, rfl⟩
    rfl

theorem longText_inj {w w' m m' r r' : String} {n n' y y' : Int} (hw : w ∈ weeklistCap)
    (hw' : w' ∈ weeklistCap) (hm : m ∈ monthlist3) (hm' : m' ∈ monthlist3) (hn : 0 ≤ n)
    (hn' : 0 ≤ n') :
    w ++ ", " ++ toString n ++ " " ++ m ++ " " ++ toString y ++ " " ++ r =
        w' ++ ", " ++ toString n' ++ " " ++ m' ++ " " ++ toString y' ++ " " ++ r' ↔
      w = w' ∧ n = n' ∧ m = m' ∧ y = y' ∧ r = r' := by
  have hsplit : ∀ (w m r : String) (n y : Int), w ++ ", " ++ toString n ++ " " ++ m ++ " " ++
      toString y ++ " " ++ r = w ++ ", " ++ toString n ++ " " ++ (m ++ " " ++ toString y ++ " " ++
        r) := by
    intro w m r n y
    simp only [String.append_assoc]
  rw [hsplit, hsplit, layout_inj (weeklistCap_names.2 w hw) (weeklistCap_names.2 w' hw') hn hn']
  refine and_congr_right fun _ => and_congr_right fun _ => ?_
  have hlen := (monthlist3_names.2 m hm).trans (monthlist3_names.2 m' hm').symm
  constructor
  · intro h
    have hchars := congrArg String.toList h
    simp only [String.toList_append, List.append_assoc] at hchars
    obtain ⟨hname, htail⟩ := List.append_inj hchars hlen
    obtain ⟨-, hrest⟩ := List.append_inj htail rfl
    obtain ⟨hyear, hend⟩ := (append_sep_inj (notMem_toString rfl (by decide) y)
      (notMem_toString rfl (by decide) y')).mp hrest
    exact ⟨String.toList_inj.mp hname, Int.repr_inj.mp (String.toList_inj.mp hyear),
      String.toList_inj.mp hend⟩
  · rintro ⟨rfl, rfl, rfl⟩
    rfl

theorem day_eq_iff (z : Zone) (d d' : Int) : z.day d = z.day d' ↔
    (z.date d).year = (z.date d').year ∧ (z.date d).month = (z.date d').month ∧
      (z.date d).day = (z.date d').day := by
  rw [← isSameDate_iff]
  simp only [isSameDate, Bool.and_eq_true, decide_eq_true_eq, and_assoc]

theorem date_range (z : Zone) (d : Int) : 1 ≤ (z.date d).month ∧ 1 ≤ (z.date d).day := by
  obtain ⟨hmonth, -, hday, -⟩ := dateOf_valid (z.day d)
  exact ⟨hmonth, hday⟩

/-- What the texts of two dates say about them. -/
structure DateTexts (z : Zone) (d d' : Int) : Prop where
  long : (dateParser z d).isSome = true ∧
    (dateParser z d = dateParser z d' ↔ z.day d = z.day d')
  numeric : dateParser3 z d = dateParser3 z d' ↔ z.day d = z.day d'
  short : (dateParser2 z d).isSome = true ∧
    (dateParser2 z d = dateParser2 z d' ↔ weekday (z.day d) = weekday (z.day d') ∧
      (z.date d).month = (z.date d').month ∧ (z.date d).day = (z.date d').day)
  /-- less than five years apart the year is not missed -/
  near : |(z.date d).year - (z.date d').year| < 5 →
    (dateParser2 z d = dateParser2 z d' ↔ z.day d = z.day d')

/-- No index of the lists is ever outside them. -/
theorem dateParser_isSome (z : Zone) (d : Int) : (dateParser z d).isSome = true := by
  obtain ⟨w, m, hw, hm⟩ := names_of_day (z.day d)
  simp only [dateParser, Zone.date, hw, hm]
  rfl

theorem dateParser2_isSome (z : Zone) (d : Int) : (dateParser2 z d).isSome = true := by
  obtain ⟨w, m, hw, hm⟩ := names_of_day (z.day d)
  simp only [dateParser2, Zone.date, hw, hm]
  rfl

theorem dateParser2_iff (z : Zone) (d d' : Int) : dateParser2 z d = dateParser2 z d' ↔
    weekday (z.day d) = weekday (z.day d') ∧ (z.date d).month = (z.date d').month ∧
      (z.date d).day = (z.date d').day := by
  obtain ⟨w, m, hw, hm⟩ := names_of_day (z.day d)
  obtain ⟨w', m', hw', hm'⟩ := names_of_day (z.day d')
  obtain ⟨hmonth, hday⟩ := date_range z d
  obtain ⟨hmonth', hday'⟩ := date_range z d'
  have hlen := weeklistCap_names.2
  simp only [Zone.date] at hmonth hmonth' hday hday'
  simp only [dateParser2, Zone.date, hw, hm, hw', hm', Option.bind_eq_bind, Option.bind_some,
    Option.pure_def, Option.some.injEq]
  rw [layout_inj (hlen w (List.mem_of_getElem? hw)) (hlen w' (List.mem_of_getElem? hw'))
    (by omega) (by omega),
    index_of_name weeklistCap_names.1 (weekday_range _).1 (weekday_range _).1 hw hw',
    index_of_name monthlist3_names.1 hmonth hmonth' hm hm']
  exact and_congr_right fun _ => and_comm

/-- What follows the text of a date, behind a space, can be read off as well. -/
theorem dateParser_append_iff (z : Zone) (d d' : Int) (r r' : String) :
    ((dateParser z d).map fun text => text ++ " " ++ r) =
        ((dateParser z d').map fun text => text ++ " " ++ r') ↔
      z.day d = z.day d' ∧ r = r' := by
  obtain ⟨w, m, hw, hm⟩ := names_of_day (z.day d)
  obtain ⟨w', m', hw', hm'⟩ := names_of_day (z.day d')
  obtain ⟨hmonth, hday⟩ := date_range z d
  obtain ⟨hmonth', hday'⟩ := date_range z d'
  rw [day_eq_iff]
  simp only [Zone.date] at hmonth hmonth' hday hday'
  simp only [dateParser, Zone.date, hw, hm, hw', hm', Option.bind_eq_bind, Option.bind_some,
    Option.pure_def, Option.map_some, Option.some.injEq]
  rw [longText_inj (List.mem_of_getElem? hw) (List.mem_of_getElem? hw') (List.mem_of_getElem? hm)
    (List.mem_of_getElem? hm') (by omega) (by omega),
    index_of_name monthlist3_names.1 hmonth hmonth' hm hm']
  constructor
  · rintro ⟨-, hn, hmo, hy, hr⟩
    exact ⟨⟨hy, hmo, hn⟩, hr⟩
  · rintro ⟨⟨hy, hmo, hn⟩, hr⟩
    have hsame : z.day d = z.day d' := (day_eq_iff z d d').mpr ⟨hy, hmo, hn⟩
    refine ⟨?_, hn, hmo, hy, hr⟩
    rw [index_of_name weeklistCap_names.1 (weekday_range _).1 (weekday_range _).1 hw hw', hsame]

theorem dateParser_iff (z : Zone) (d d' : Int) :
    dateParser z d = dateParser z d' ↔ z.day d = z.day d' := by
  constructor
  · intro h
    exact ((dateParser_append_iff z d d' "" "").mp (by rw [h])).1
  · intro h
    simp only [dateParser, Zone.date, h]

theorem dateParser3_iff (z : Zone) (d d' : Int) :
    dateParser3 z d = dateParser3 z d' ↔ z.day d = z.day d' := by
  obtain ⟨hmonth, hday⟩ := date_range z d
  obtain ⟨hmonth', hday'⟩ := date_range z d'
  rw [day_eq_iff]
  constructor
  · intro h
    have hchars := congrArg String.toList h
    simp only [dateParser3, String.toList_append, List.append_assoc] at hchars
    obtain ⟨hn, hrest⟩ := (append_sep_inj (notMem_numeral rfl (by omega))
      (notMem_numeral rfl (by omega))).mp hchars
    obtain ⟨hmo, hyear⟩ := (append_sep_inj (notMem_numeral rfl (by omega))
      (notMem_numeral rfl (by omega))).mp hrest
    exact ⟨Int.repr_inj.mp (String.toList_inj.mp hyear),
      Int.repr_inj.mp (String.toList_inj.mp hmo),
      Int.repr_inj.mp (String.toList_inj.mp hn)⟩
  · rintro ⟨hy, hmo, hn⟩
    rw [dateParser3, dateParser3, hy, hmo, hn]

/-- A date of the same name within five years is the same. -/
theorem day_eq_of_near (z : Zone) {d d' : Int} (hnear : |(z.date d).year - (z.date d').year| < 5)
    (hweek : weekday (z.day d) = weekday (z.day d')) (hmonth : (z.date d).month = (z.date d').month)
    (hday : (z.date d).day = (z.date d').day) : z.day d = z.day d' := by
  have hn := dayNumber_dateOf (z.day d)
  have hn' := dayNumber_dateOf (z.day d')
  have hyear : (z.date d).year = (z.date d').year := by
    simp only [Zone.date] at *
    obtain ⟨hlow, hhigh⟩ := abs_lt.mp hnear
    rw [← hn, ← hn', hmonth, hday] at hweek
    rcases le_total (dateOf (z.day d')).year (dateOf (z.day d)).year with hle | hle
    · have hgap := year_eq_of_weekday (n := (dateOf (z.day d)).year - (dateOf (z.day d')).year)
        (by omega) (by omega) (by rw [add_sub_cancel]; exact hweek)
      omega
    · have hgap := year_eq_of_weekday (n := (dateOf (z.day d')).year - (dateOf (z.day d)).year)
        (by omega) (by omega) (by rw [add_sub_cancel]; exact hweek.symm)
      omega
  exact (day_eq_iff z d d').mpr ⟨hyear, hmonth, hday⟩

/-- Two of the texts of a date tell its day; the one without a year tells the
weekday, the month and the day of the month, and with these the day among the
days of less than five years. -/
theorem dateTexts (z : Zone) (d d' : Int) : DateTexts z d d' where
  long := ⟨dateParser_isSome z d, dateParser_iff z d d'⟩
  numeric := dateParser3_iff z d d'
  short := ⟨dateParser2_isSome z d, dateParser2_iff z d d'⟩
  near hnear := by
    rw [dateParser2_iff]
    constructor
    · rintro ⟨hweek, hmonth, hday⟩
      exact day_eq_of_near z hnear hweek hmonth hday
    · intro h
      exact ⟨by rw [h], by rw [Zone.date, Zone.date, h], by rw [Zone.date, Zone.date, h]⟩

/-- New Year's Day of 2012 and of 2017. -/
example : dateParser2 (Zone.fixed 0) 1325376000000 = some "Sun, 1 Jan" ∧
    dateParser2 (Zone.fixed 0) 1483228800000 = some "Sun, 1 Jan" := by decide +kernel

end CalendarApp
