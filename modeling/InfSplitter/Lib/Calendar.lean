import Mathlib.Data.Prod.Lex
import Mathlib.Order.Lattice
import Mathlib.Order.Monotone.Basic
import Mathlib.Tactic.IntervalCases

/-!
# The Gregorian calendar

A `Date` is a year, a month and a day of the month, and carries the proof that there is such a day.
The calendar is what comes after a date (`Date.next`): the next day of the month, or the first of
the next month. Counted from the first of March of the year 0, the days have numbers;
`Date.daysFromCivil` is the formula that is commonly used for them, and `Date.ofDays` is the date of
a number.

The year of the formula begins in March, so that the day that is only there in some years is its
last one, and the months before have always the same lengths.
-/

set_option autoImplicit false

namespace InfSplitter.Lib

/-! ## Dates -/

def IsLeap (year : Nat) : Prop := year % 4 = 0 ∧ (year % 100 ≠ 0 ∨ year % 400 = 0)

instance (year : Nat) : Decidable (IsLeap year) := inferInstanceAs (Decidable (_ ∧ _))

def monthLength (year month : Nat) : Nat :=
  if month = 2 then if IsLeap year then 29 else 28
  else if month = 4 ∨ month = 6 ∨ month = 9 ∨ month = 11 then 30
  else 31

structure Date where
  year : Nat
  month : Nat
  day : Nat
  month_pos : 0 < month
  month_le : month ≤ 12
  day_pos : 0 < day
  day_le : day ≤ monthLength year month
deriving DecidableEq

theorem monthLength_pos (year month : Nat) : 0 < monthLength year month := by
  unfold monthLength
  split_ifs <;> simp

theorem monthLength_le (year month : Nat) : monthLength year month ≤ 31 := by
  unfold monthLength
  split_ifs <;> simp

namespace Date

def triple (date : Date) : Nat × Nat × Nat := (date.year, date.month, date.day)

theorem triple_injective : Function.Injective triple := by
  intro a b h
  cases a
  cases b
  simpa [triple] using h

/-- Earlier dates have the smaller year, then the smaller month, then the smaller day. -/
instance : LinearOrder Date :=
  LinearOrder.lift' (fun date => toLex (date.year, toLex (date.month, date.day))) fun a b h =>
    triple_injective (by simpa [triple] using h)

theorem lt_iff {a b : Date} :
    a < b ↔ a.year < b.year ∨
      a.year = b.year ∧ (a.month < b.month ∨ a.month = b.month ∧ a.day < b.day) := by
  have h : a < b ↔ toLex (a.year, toLex (a.month, a.day)) <
      toLex (b.year, toLex (b.month, b.day)) := Iff.rfl
  simp [h, Prod.Lex.toLex_lt_toLex]

/-- The first of January. -/
def newYear (year : Nat) : Date :=
  { year := year, month := 1, day := 1, month_pos := Nat.one_pos, month_le := by decide,
    day_pos := Nat.one_pos, day_le := monthLength_pos _ _ }

theorem year_lt_of_lt_newYear {date : Date} {year : Nat} (h : date < newYear year) :
    date.year < year := by
  have hmonth := date.month_pos
  have hday := date.day_pos
  rcases lt_iff.mp h with hlt | ⟨_, hlt | ⟨_, hlt⟩⟩
  · exact hlt
  all_goals
    simp only [newYear] at hlt
    omega

/-- The day after. -/
def next (date : Date) : Date :=
  if hday : date.day < monthLength date.year date.month then
    { date with day := date.day + 1, day_pos := Nat.succ_pos _, day_le := hday }
  else if hmonth : date.month < 12 then
    { year := date.year, month := date.month + 1, day := 1, month_pos := Nat.succ_pos _,
      month_le := hmonth, day_pos := Nat.one_pos, day_le := monthLength_pos _ _ }
  else newYear (date.year + 1)

theorem next_cases (date : Date) :
    (date.day < monthLength date.year date.month ∧
      date.next.triple = (date.year, date.month, date.day + 1)) ∨
    (date.day = monthLength date.year date.month ∧ date.month < 12 ∧
      date.next.triple = (date.year, date.month + 1, 1)) ∨
    (date.day = monthLength date.year date.month ∧ date.month = 12 ∧
      date.next.triple = (date.year + 1, 1, 1)) := by
  have hday := date.day_le
  have hmonth := date.month_le
  unfold next
  split_ifs with h h'
  · exact .inl ⟨h, rfl⟩
  · exact .inr (.inl ⟨by omega, h', rfl⟩)
  · exact .inr (.inr ⟨by omega, by omega, rfl⟩)

theorem lt_next (date : Date) : date < date.next := by
  rw [lt_iff]
  rcases date.next_cases with ⟨_, h⟩ | ⟨_, _, h⟩ | ⟨_, _, h⟩
  all_goals
    simp only [triple, Prod.mk.injEq] at h
    omega

/-! ## The number of a day -/

/-- The first of March of the year 0. -/
def marchFirst : Date :=
  { year := 0, month := 3, day := 1, month_pos := by decide, month_le := by decide,
    day_pos := by decide, day_le := by decide }

/-- The year the day is in if years begin in March. -/
def marchYear (date : Date) : Nat := if date.month ≤ 2 then date.year - 1 else date.year

/-- The month of such a year, from 0. -/
def marchMonth (date : Date) : Nat := if date.month ≤ 2 then date.month + 9 else date.month - 3

/-- The day of such a year, from 0. -/
def marchDay (date : Date) : Nat := (153 * date.marchMonth + 2) / 5 + date.day - 1

/-- The days since the first of March of the year 0, counted in eras of 400 years. -/
def daysFromCivil (date : Date) : Nat :=
  let era := date.marchYear / 400
  let yoe := date.marchYear - era * 400
  let doe := yoe * 365 + yoe / 4 - yoe / 100 + date.marchDay
  era * 146097 + doe

/-- The days in the years before a year that begins in March. -/
def daysBefore (y : Nat) : Nat := 365 * y + (y / 4 - y / 100 + y / 400)

theorem daysFromCivil_eq (date : Date) :
    date.daysFromCivil = daysBefore date.marchYear + date.marchDay := by
  simp only [daysFromCivil, daysBefore]
  generalize date.marchYear = y
  have hfour : y / 4 = 100 * (y / 400) + (y - y / 400 * 400) / 4 := by omega
  have hhundred : y / 100 = 4 * (y / 400) + (y - y / 400 * 400) / 100 := by omega
  omega

/-- A year has one day more if it ends with a leap day. -/
theorem daysBefore_succ (y : Nat) :
    daysBefore (y + 1) = daysBefore y + if IsLeap (y + 1) then 366 else 365 := by
  have hle : y / 100 ≤ y / 4 := by omega
  unfold daysBefore
  by_cases hleap : IsLeap (y + 1)
  · rw [if_pos hleap]
    obtain ⟨hfour, hhundred | hera⟩ := hleap
    · have hcenturies : (y + 1) / 100 = y / 100 := by omega
      have heras : (y + 1) / 400 = y / 400 := by omega
      omega
    · have hcenturies : (y + 1) / 100 = y / 100 + 1 := by omega
      have heras : (y + 1) / 400 = y / 400 + 1 := by omega
      omega
  · rw [if_neg hleap]
    by_cases hfour : (y + 1) % 4 = 0
    · have hends : (y + 1) % 100 = 0 ∧ (y + 1) % 400 ≠ 0 := by
        simpa [IsLeap, hfour, imp_and] using hleap
      have hcenturies : (y + 1) / 100 = y / 100 + 1 := by omega
      have heras : (y + 1) / 400 = y / 400 := by omega
      omega
    · have hquads : (y + 1) / 4 = y / 4 := by omega
      have hcenturies : (y + 1) / 100 = y / 100 := by omega
      have heras : (y + 1) / 400 = y / 400 := by omega
      omega

theorem marchFirst_le_iff {date : Date} : marchFirst ≤ date ↔ 0 < date.year ∨ 3 ≤ date.month := by
  have hday := date.day_pos
  rw [← not_lt, lt_iff]
  simp only [marchFirst]
  omega

/-- **The day after has the next number.** -/
theorem daysFromCivil_next {date : Date} (h : marchFirst ≤ date) :
    date.next.daysFromCivil = date.daysFromCivil + 1 := by
  rw [marchFirst_le_iff] at h
  have hpos := date.day_pos
  have hmonth := date.month_pos
  rw [daysFromCivil_eq, daysFromCivil_eq]
  rcases date.next_cases with ⟨hday, hnext⟩ | ⟨hday, hlt, hnext⟩ | ⟨hday, hlast, hnext⟩
  all_goals
    simp only [triple, Prod.mk.injEq] at hnext
    obtain ⟨hy, hm, hd⟩ := hnext
    simp only [marchDay, marchYear, marchMonth, hy, hm, hd]
  · omega
  · rw [hday]
    by_cases hfeb : date.month = 2
    · -- February ends a year that begins in March
      obtain ⟨y, hyear⟩ : ∃ y, date.year = y + 1 := ⟨date.year - 1, by omega⟩
      simp only [hfeb, hyear, monthLength]
      by_cases hleap : IsLeap (y + 1) <;> simp [daysBefore_succ, hleap]
    · generalize date.month = m at *
      interval_cases m <;> simp [monthLength] at hfeb ⊢
  · simp [hday, hlast, monthLength]

/-! ## The date of a number -/

/-- The day that comes so many days after the first of March of the year 0. -/
def ofDays (z : Nat) : Date := next^[z] marchFirst

@[simp] theorem ofDays_zero : ofDays 0 = marchFirst := rfl

theorem ofDays_succ (z : Nat) : ofDays (z + 1) = (ofDays z).next :=
  Function.iterate_succ_apply' next z marchFirst

/-- **Later days have later dates.** -/
theorem strictMono_ofDays : StrictMono ofDays :=
  strictMono_nat_of_lt_succ fun z => by
    rw [ofDays_succ]
    exact lt_next _

theorem marchFirst_le_ofDays (z : Nat) : marchFirst ≤ ofDays z :=
  strictMono_ofDays.monotone (Nat.zero_le z)

/-- **The formula counts the days.** -/
theorem daysFromCivil_ofDays (z : Nat) : (ofDays z).daysFromCivil = z := by
  induction z with
  | zero => rfl
  | succ z ih => rw [ofDays_succ, daysFromCivil_next (marchFirst_le_ofDays z), ih]

/-! ## The parts of a year that begins in March -/

section
variable (date : Date)

theorem marchMonth_le : date.marchMonth ≤ 11 := by
  have hmonth := date.month_le
  unfold marchMonth
  split <;> omega

/-- Eleven of the months have lengths of their own. -/
theorem day_le_of_march (h : date.marchMonth < 11) :
    (153 * date.marchMonth + 2) / 5 + date.day ≤ (153 * (date.marchMonth + 1) + 2) / 5 := by
  have hpos := date.month_pos
  have hle := date.month_le
  have hday := date.day_le
  unfold monthLength at hday
  unfold marchMonth at h ⊢
  generalize date.month = m at *
  interval_cases m <;> simp at h hday ⊢ <;> omega

/-- The last month has a leap day in some years. -/
theorem day_le_of_february (hfirst : marchFirst ≤ date) (h : date.marchMonth = 11) :
    date.day ≤ 29 ∧ (date.day = 29 → IsLeap (date.marchYear + 1)) := by
  have hle := date.month_le
  have hday := date.day_le
  have hmonth : date.month = 2 := by
    unfold marchMonth at h
    split at h <;> omega
  have hyear : date.marchYear + 1 = date.year := by
    rw [marchFirst_le_iff] at hfirst
    simp only [marchYear, hmonth, le_refl, if_true]
    omega
  rw [hmonth, monthLength, if_pos rfl] at hday
  rw [hyear]
  by_cases hleap : IsLeap date.year
  · rw [if_pos hleap] at hday
    exact ⟨hday, fun _ => hleap⟩
  · rw [if_neg hleap] at hday
    exact ⟨by omega, by omega⟩

theorem marchDay_le (hfirst : marchFirst ≤ date) :
    date.marchDay ≤ 365 ∧ (date.marchDay = 365 → IsLeap (date.marchYear + 1)) := by
  have hpos := date.day_pos
  have hmonth := date.marchMonth_le
  unfold marchDay
  by_cases hfeb : date.marchMonth = 11
  · obtain ⟨hday, hleap⟩ := date.day_le_of_february hfirst hfeb
    rw [hfeb]
    exact ⟨by omega, fun hlast => hleap (by omega)⟩
  · have hday := date.day_le_of_march (by omega)
    omega

end

end Date

end InfSplitter.Lib
