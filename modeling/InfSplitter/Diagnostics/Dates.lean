import InfSplitter.Diagnostics.FileNames
import InfSplitter.Lib.Calendar

/-!
# Dates and timestamps

`civil_from_days` turns the number of a day into a date. It is a chain of divisions on unsigned
numbers, and every subtraction in it would fail if it went below zero (`civilFromDaysChecked`). It
does not: the day is counted from the first of March of the year 0, and the division by the average
length of a year is corrected so that its quotient is the year of the era (`yearOfEra_eq`), whatever
the day of the year. So the date of every number from 0 on is the one of the calendar
(`civilFromDaysChecked_eq`).

The texts that are made of the dates and of the times of day are padded with zeros, and come one
after another as the days and the seconds do.
-/

set_option autoImplicit false

namespace InfSplitter.Diagnostics

open Lib

/-! ## The code -/

/-- A subtraction of unsigned numbers; `none` if the result is below zero. -/
def checkedSub (a b : Nat) : Option Nat := if b ≤ a then some (a - b) else none

/-- The result of a `u32` operation. -/
def checkedU32 (n : Nat) : Option Nat := if n < 2 ^ 32 then some n else none

/-- The line of `yoe`. -/
def checkedYearOfEra (doe : Nat) : Option Nat := do
  let short ← checkedSub doe (doe / 1460)
  let long ← checkedU32 (short + doe / 36524)
  let days ← checkedSub long (doe / 146096)
  return days / 365

/-- The line of `doy`. -/
def checkedDayOfYear (doe yoe : Nat) : Option Nat := do
  let years ← checkedU32 (365 * yoe)
  let quads ← checkedU32 (years + yoe / 4)
  let start ← checkedSub quads (yoe / 100)
  checkedSub doe start

/-- The lines of `mp`, `d` and `m`. -/
def checkedMonthDay (doy : Nat) : Option (Nat × Nat) := do
  let fifths ← checkedU32 (5 * doy + 2)
  let mp := fifths / 153
  let months ← checkedU32 (153 * mp + 2)
  let day ← checkedSub doy (months / 5)
  let m ← (if mp < 10 then some (mp + 3) else checkedSub mp 9)
  return (m, day + 1)

/-- `civil_from_days` with its types: the days and the year are `i64`, the rest is `u32`. -/
def civilFromDaysChecked (days : Int) : Option (Int × Nat × Nat) := do
  let z := days
  let era := (if 0 ≤ z then z else z - 146096).tdiv 146097
  let doe := ((z - era * 146097) % 2 ^ 32).toNat
  let yoe ← checkedYearOfEra doe
  let y := (yoe : Int) + era * 400
  let doy ← checkedDayOfYear doe yoe
  let (m, d) ← checkedMonthDay doy
  let y := if m ≤ 2 then y + 1 else y
  return (y, m, d)

/-- `chrono_now`, at so many seconds after the epoch. -/
def chronoNow (secs : Nat) : FileName := chronoDay (secs / 86400)

/-- The time of a day that `ts_string` writes, at so many seconds of the day. -/
def clockText (s : Nat) : List Char :=
  'T' :: padded 2 (s / 3600) ++ ':' :: padded 2 (s % 3600 / 60) ++ ':' :: padded 2 (s % 60) ++ ['Z']

/-- `ts_string`, at so many seconds after the epoch. -/
def tsString (secs : Nat) : List Char :=
  let (d, s) := (secs / 86400, secs % 86400)
  dateText (civilFromDays (d + 719468)) ++ clockText s

/-! ## The year of the era -/

/-- A day of an era of 400 years: the year, the day of the year and the day of the era. A year has
the day 365 if it ends with a leap day. -/
structure DayOfEra (yoe doy doe : Nat) : Prop where
  year_lt : yoe < 400
  day_le : doy ≤ 365
  leap : doy = 365 → IsLeap (yoe + 1)
  eq : doe = 365 * yoe + yoe / 4 - yoe / 100 + doy

/-- The divisions, for the year as centuries, groups of four years and years. -/
theorem yearOfEra_parts {c q r doy doe : Nat} (hc : c ≤ 3) (hq : q ≤ 24) (hr : r ≤ 3)
    (hdoy : doy ≤ 365) (hleap : doy = 365 → r = 3 ∧ (q < 24 ∨ c = 3))
    (hdoe : doe = 36524 * c + 1461 * q + 365 * r + doy) :
    (doe - doe / 1460 + doe / 36524 - doe / 146096) / 365 = 100 * c + 4 * q + r := by
  by_cases hend : doe = 146096
  · -- the last day of the era is the only one that the last correction is for
    have hlast : c = 3 ∧ q = 24 ∧ r = 3 := by omega
    obtain ⟨rfl, rfl, rfl⟩ := hlast
    rw [hend]
  · have hcentury : doe / 36524 = c := by omega
    have hera : doe / 146096 = 0 := by omega
    have hfour : doe / 1460 = 25 * c + q + (24 * c + q + 365 * r + doy) / 1460 := by omega
    rw [hcentury, hera, hfour]
    -- one day is too many where the leap days so far, and the day itself, are a year
    by_cases hlong : 1460 ≤ 24 * c + q + 365 * r + doy
    · have hone : (24 * c + q + 365 * r + doy) / 1460 = 1 := by omega
      rw [hone]
      omega
    · have hzero : (24 * c + q + 365 * r + doy) / 1460 = 0 := by omega
      rw [hzero]
      omega

theorem DayOfEra.yearOfEra_eq {yoe doy doe : Nat} (h : DayOfEra yoe doy doe) :
    (doe - doe / 1460 + doe / 36524 - doe / 146096) / 365 = yoe := by
  obtain ⟨hyear, hday, hleap, hdoe⟩ := h
  have hparts : 100 * (yoe / 100) + 4 * (yoe % 100 / 4) + yoe % 4 = yoe := by omega
  have hends : doy = 365 → yoe % 4 = 3 ∧ (yoe % 100 / 4 < 24 ∨ yoe / 100 = 3) := by
    intro hlast
    obtain ⟨hfour, hcentury⟩ := hleap hlast
    omega
  rw [yearOfEra_parts (by omega) (by omega) (by omega) hday hends (by omega), hparts]

theorem DayOfEra.lt {yoe doy doe : Nat} (h : DayOfEra yoe doy doe) : doe < 146097 := by
  obtain ⟨hyear, hday, hleap, hdoe⟩ := h
  have hends : doy = 365 → yoe % 4 = 3 := by
    intro hlast
    obtain ⟨hfour, hcentury⟩ := hleap hlast
    omega
  omega

/-! ## The date of a day -/

section
variable {date : Date} (hfirst : Date.marchFirst ≤ date)
include hfirst

theorem dayOfEra : DayOfEra (date.marchYear % 400) date.marchDay
    (365 * (date.marchYear % 400) + date.marchYear % 400 / 4 - date.marchYear % 400 / 100 +
      date.marchDay) := by
  obtain ⟨hday, hleap⟩ := date.marchDay_le hfirst
  refine ⟨Nat.mod_lt _ (by decide), hday, fun hlast => ?_, rfl⟩
  obtain ⟨hfour, hcentury⟩ := hleap hlast
  exact ⟨by omega, by omega⟩

theorem era_eq : ∃ doe, date.daysFromCivil = date.marchYear / 400 * 146097 + doe ∧
    DayOfEra (date.marchYear % 400) date.marchDay doe := by
  refine ⟨_, ?_, dayOfEra hfirst⟩
  have hmod : date.marchYear - date.marchYear / 400 * 400 = date.marchYear % 400 := by omega
  rw [Date.daysFromCivil, hmod, Nat.mul_comm (date.marchYear % 400)]

/-- The month and the day of the month, from the day of the year. -/
theorem monthOfYear_eq : (5 * date.marchDay + 2) / 153 = date.marchMonth ∧
    date.marchDay = (153 * date.marchMonth + 2) / 5 + (date.day - 1) := by
  have hpos := date.day_pos
  have hmonth := date.marchMonth_le
  unfold Date.marchDay
  refine ⟨?_, by omega⟩
  by_cases hfeb : date.marchMonth = 11
  · have hday := (date.day_le_of_february hfirst hfeb).1
    omega
  · have hday := date.day_le_of_march (by omega)
    omega

theorem year_eq : (if date.month ≤ 2 then date.marchYear + 1 else date.marchYear) = date.year := by
  rw [Date.marchFirst_le_iff] at hfirst
  unfold Date.marchYear
  split <;> omega

end

theorem month_eq (date : Date) :
    (if date.marchMonth < 10 then date.marchMonth + 3 else date.marchMonth - 9) = date.month := by
  have hpos := date.month_pos
  have hle := date.month_le
  unfold Date.marchMonth
  split <;> split <;> omega

/-! ## The checks -/

theorem checkedSub_of_le {a b : Nat} (h : b ≤ a) : checkedSub a b = some (a - b) := if_pos h

theorem checkedU32_of_lt {n : Nat} (h : n < 2 ^ 32) : checkedU32 n = some n := if_pos h

theorem DayOfEra.checkedYearOfEra_eq {yoe doy doe : Nat} (h : DayOfEra yoe doy doe) :
    checkedYearOfEra doe = some yoe := by
  have hlt := h.lt
  have hlast : doe / 146096 ≤ doe - doe / 1460 + doe / 36524 := by
    by_cases hend : doe < 146096
    · rw [Nat.div_eq_of_lt hend]
      exact Nat.zero_le _
    · omega
  unfold checkedYearOfEra
  rw [checkedSub_of_le (Nat.div_le_self doe 1460), Option.bind_eq_bind, Option.bind_some,
    checkedU32_of_lt (by omega), Option.bind_some, checkedSub_of_le hlast, Option.bind_some,
    h.yearOfEra_eq]
  rfl

theorem DayOfEra.checkedDayOfYear_eq {yoe doy doe : Nat} (h : DayOfEra yoe doy doe) :
    checkedDayOfYear doe yoe = some doy := by
  have hyear := h.year_lt
  have hdoe := h.eq
  unfold checkedDayOfYear
  rw [checkedU32_of_lt (by omega), Option.bind_eq_bind, Option.bind_some,
    checkedU32_of_lt (by omega), Option.bind_some, checkedSub_of_le (by omega), Option.bind_some,
    checkedSub_of_le (by omega), hdoe, Nat.add_sub_cancel_left]

theorem checkedMonthDay_eq {date : Date} (hfirst : Date.marchFirst ≤ date) :
    checkedMonthDay date.marchDay = some (date.month, date.day) := by
  obtain ⟨hmonth, hday⟩ := monthOfYear_eq hfirst
  have hpos := date.day_pos
  have hle := (date.marchDay_le hfirst).1
  have hmp := date.marchMonth_le
  have hm : (if date.marchMonth < 10 then some (date.marchMonth + 3)
      else checkedSub date.marchMonth 9) = some date.month := by
    rw [← month_eq date]
    split
    · rfl
    · exact checkedSub_of_le (by omega)
  unfold checkedMonthDay
  rw [checkedU32_of_lt (by omega), Option.bind_eq_bind, Option.bind_some, hmonth]
  dsimp only
  rw [checkedU32_of_lt (by omega), Option.bind_some, checkedSub_of_le (by omega), Option.bind_some,
    hm, hday, Nat.add_sub_cancel_left, Nat.sub_add_cancel hpos]
  rfl

/-- **No operation fails**, and the result is the date. -/
theorem civilFromDaysChecked_daysFromCivil {date : Date} (hfirst : Date.marchFirst ≤ date) :
    civilFromDaysChecked date.daysFromCivil = some ((date.year : Int), date.month, date.day) := by
  obtain ⟨doe, hdays, hera⟩ := era_eq hfirst
  have hlt := hera.lt
  have hyear := year_eq hfirst
  have hera' : (if (0 : Int) ≤ (date.daysFromCivil : Int) then (date.daysFromCivil : Int)
      else (date.daysFromCivil : Int) - 146096).tdiv 146097 = (date.marchYear / 400 : Nat) := by
    rw [if_pos (Int.natCast_nonneg _), Int.tdiv_eq_ediv_of_nonneg (Int.natCast_nonneg _)]
    omega
  have hdoe :
      (((date.daysFromCivil : Int) - (date.marchYear / 400 : Nat) * 146097) % 2 ^ 32).toNat =
        doe := by
    omega
  unfold civilFromDaysChecked
  simp only [hera', hdoe, hera.checkedYearOfEra_eq, hera.checkedDayOfYear_eq,
    checkedMonthDay_eq hfirst, Option.bind_eq_bind, Option.bind_some]
  have hparts : ((date.marchYear % 400 : Nat) : Int) + (date.marchYear / 400 : Nat) * 400 =
      (date.marchYear : Int) := by
    omega
  rw [hparts, ← hyear]
  split <;> rfl

/-- **The date of the number of a date.** -/
theorem civilFromDays_daysFromCivil {date : Date} (hfirst : Date.marchFirst ≤ date) :
    civilFromDays date.daysFromCivil = date.triple := by
  obtain ⟨doe, hdays, hera⟩ := era_eq hfirst
  obtain ⟨hmonth, hday⟩ := monthOfYear_eq hfirst
  have hlt := hera.lt
  have hpos := date.day_pos
  have hquotient : date.daysFromCivil / 146097 = date.marchYear / 400 := by omega
  have hrest : date.daysFromCivil - date.marchYear / 400 * 146097 = doe := by omega
  have hdoy : doe - (365 * (date.marchYear % 400) + date.marchYear % 400 / 4 -
      date.marchYear % 400 / 100) = date.marchDay := by
    rw [hera.eq, Nat.add_sub_cancel_left]
  have hparts : date.marchYear % 400 + date.marchYear / 400 * 400 = date.marchYear := by omega
  have hd : date.marchDay - (153 * date.marchMonth + 2) / 5 + 1 = date.day := by omega
  simp only [civilFromDays, hquotient, hrest, hera.yearOfEra_eq, hdoy, hmonth, hd, hparts,
    month_eq, year_eq hfirst, Date.triple]

theorem ofDays_daysFromCivil {date : Date} (hfirst : Date.marchFirst ≤ date) :
    Date.ofDays date.daysFromCivil = date := by
  have hsame := civilFromDays_daysFromCivil (Date.marchFirst_le_ofDays date.daysFromCivil)
  rw [Date.daysFromCivil_ofDays, civilFromDays_daysFromCivil hfirst] at hsame
  exact Date.triple_injective hsame.symm

theorem ofDays_lt {date : Date} {z : Nat} (hfirst : Date.marchFirst ≤ date)
    (h : z < date.daysFromCivil) : Date.ofDays z < date := by
  have hlt := Date.strictMono_ofDays h
  rwa [ofDays_daysFromCivil hfirst] at hlt

theorem civilFromDays_eq (z : Nat) : civilFromDays z = (Date.ofDays z).triple := by
  have h := civilFromDays_daysFromCivil (Date.marchFirst_le_ofDays z)
  rwa [Date.daysFromCivil_ofDays] at h

/-! ## Texts -/

theorem length_padded_two {n : Nat} (h : n < 100) : (padded 2 n).length = 2 :=
  length_padded (by decide) h

theorem length_padded_month (date : Date) : (padded 2 date.month).length = 2 :=
  length_padded_two (by have := date.month_le; omega)

theorem length_padded_day (date : Date) : (padded 2 date.day).length = 2 :=
  length_padded_two (by
    have := date.day_le
    have := monthLength_le date.year date.month
    omega)

/-- **Later dates have later texts.** -/
theorem textBefore_dateText {a b : Date} (h : a < b) :
    TextBefore (dateText a.triple) (dateText b.triple) := by
  simp only [dateText, Date.triple]
  rcases Date.lt_iff.mp h with hlt | ⟨hy, hlt | ⟨hm, hlt⟩⟩
  · exact ((textBefore_padded 4 hlt).append (by simp [length_padded_month])).append
      (by simp [length_padded_day])
  · rw [hy]
    exact (((textBefore_padded 2 hlt).append_left ['-']).append_left _).append
      (by simp [length_padded_day])
  · rw [hy, hm]
    exact ((textBefore_padded 2 hlt).append_left ['-']).append_left _

theorem length_dateText {date : Date} (h : date.year < 10000) :
    (dateText date.triple).length = 10 := by
  simp [dateText, Date.triple, length_padded_month, length_padded_day,
    @length_padded 4 _ (by decide) h]

/-- **Later times of a day have later texts.** -/
theorem textBefore_clockText {s t : Nat} (h : s < t) :
    TextBefore (clockText s) (clockText t) := by
  have hminute (n : Nat) : (padded 2 (n % 3600 / 60)).length = 2 := length_padded_two (by omega)
  have hsecond (n : Nat) : (padded 2 (n % 60)).length = 2 := length_padded_two (by omega)
  unfold clockText
  refine TextBefore.append ?_ rfl
  rcases Nat.lt_or_ge (s / 3600) (t / 3600) with hlt | hle
  · exact ((((textBefore_padded 2 hlt).append_left ['T']).append (by simp [hminute])).append
      (by simp [hsecond]))
  · have hhour : s / 3600 = t / 3600 := by omega
    rw [hhour]
    rcases Nat.lt_or_ge (s % 3600 / 60) (t % 3600 / 60) with hlt | hle
    · exact ((((textBefore_padded 2 hlt).append_left [':']).append_left _).append
        (by simp [hsecond]))
    · have hsame : s % 3600 / 60 = t % 3600 / 60 := by omega
      have hlt : s % 60 < t % 60 := by omega
      rw [hsame]
      exact ((textBefore_padded 2 hlt).append_left [':']).append_left _

theorem length_clockText {s : Nat} (h : s < 86400) : (clockText s).length = 10 := by
  have hhour : (padded 2 (s / 3600)).length = 2 := length_padded_two (by omega)
  have hminute : (padded 2 (s % 3600 / 60)).length = 2 := length_padded_two (by omega)
  have hsecond : (padded 2 (s % 60)).length = 2 := length_padded_two (by omega)
  simp [clockText, hhour, hminute, hsecond]

theorem textBefore_chronoNow {secs secs' : Nat} (h : secs / 86400 < secs' / 86400) :
    TextBefore (chronoNow secs) (chronoNow secs') := by
  unfold chronoNow chronoDay
  rw [civilFromDays_eq, civilFromDays_eq]
  exact textBefore_dateText (Date.strictMono_ofDays (by omega))

theorem textBefore_tsString {secs secs' : Nat} (h : secs < secs') :
    TextBefore (tsString secs) (tsString secs') := by
  have hclock (n : Nat) : (clockText (n % 86400)).length = 10 := length_clockText (by omega)
  rcases Nat.lt_or_ge (secs / 86400) (secs' / 86400) with hlt | hle
  · exact (textBefore_chronoNow hlt).append (by simp [hclock])
  · have hday : secs / 86400 = secs' / 86400 := by omega
    simp only [tsString, hday]
    exact (textBefore_clockText (by omega)).append_left _

/-- The first second of the year 10000. -/
def yearTenThousand : Nat := 253402300800

theorem length_chronoNow {secs : Nat} (h : secs < yearTenThousand) :
    (chronoNow secs).length = 10 := by
  have hnumber : (Date.newYear 10000).daysFromCivil = 3652365 := by decide
  have hlt : Date.ofDays (secs / 86400 + 719468) < Date.newYear 10000 := by
    refine ofDays_lt (Date.marchFirst_le_iff.mpr (.inl (by decide))) ?_
    unfold yearTenThousand at h
    omega
  unfold chronoNow chronoDay
  rw [civilFromDays_eq]
  exact length_dateText (Date.year_lt_of_lt_newYear hlt)

/-- Up to the year 9999 the texts have one length, and are in the plain order of texts. -/
theorem chronoNow_lt {secs secs' : Nat} (h : secs / 86400 < secs' / 86400)
    (hyear : secs' < yearTenThousand) : chronoNow secs < chronoNow secs' := by
  rcases textBefore_chronoNow h with hlt | ⟨_, hlt⟩
  · rw [length_chronoNow hyear, length_chronoNow (by omega)] at hlt
    exact absurd hlt (lt_irrefl _)
  · exact hlt

/-- **The calendar conversion.** From day 0 on no unsigned operation fails, the date is a date of
the calendar, its number is the number it was made of, every date from that day on is reached, and
later days have later dates; so the dates in the names of rotated files are in the order of the
days, and the timestamps in the order of the seconds. -/
theorem civilFromDays_calendar :
    (∀ z : Nat, ∃ date : Date,
      civilFromDaysChecked z = some ((date.year : Int), date.month, date.day) ∧
        civilFromDays z = (date.year, date.month, date.day) ∧ date.daysFromCivil = z) ∧
    (∀ date : Date, Date.marchFirst ≤ date →
      civilFromDaysChecked date.daysFromCivil = some ((date.year : Int), date.month, date.day)) ∧
    (∀ (z z' : Nat) (date date' : Date), z < z' →
      civilFromDaysChecked z = some ((date.year : Int), date.month, date.day) →
      civilFromDaysChecked z' = some ((date'.year : Int), date'.month, date'.day) → date < date') ∧
    (∀ secs secs', secs / 86400 < secs' / 86400 →
      TextBefore (chronoNow secs) (chronoNow secs')) ∧
    ∀ secs secs', secs < secs' → TextBefore (tsString secs) (tsString secs') := by
  have hdate (z : Nat) : civilFromDaysChecked z =
      some (((Date.ofDays z).year : Int), (Date.ofDays z).month, (Date.ofDays z).day) := by
    have h := civilFromDaysChecked_daysFromCivil (Date.marchFirst_le_ofDays z)
    rwa [Date.daysFromCivil_ofDays] at h
  have heq {z : Nat} {date : Date}
      (h : civilFromDaysChecked z = some ((date.year : Int), date.month, date.day)) :
      date = Date.ofDays z := by
    rw [hdate] at h
    exact Date.triple_injective (by simpa [Date.triple] using h.symm)
  refine ⟨fun z => ⟨Date.ofDays z, hdate z, civilFromDays_eq z, Date.daysFromCivil_ofDays z⟩,
    fun date hfirst => civilFromDaysChecked_daysFromCivil hfirst, ?_,
    fun _ _ => textBefore_chronoNow, fun _ _ => textBefore_tsString⟩
  intro z z' date date' hlt h h'
  rw [heq h, heq h']
  exact Date.strictMono_ofDays hlt

/-- The last day of an era. -/
def leapDay : Date :=
  { year := 2000, month := 2, day := 29, month_pos := by decide, month_le := by decide,
    day_pos := by decide, day_le := by decide }

theorem civilFromDays_calendar_leapDay :
    civilFromDaysChecked leapDay.daysFromCivil = some (2000, 2, 29) ∧
      Date.marchFirst < leapDay ∧ TextBefore (chronoNow 86399) (chronoNow 86400) ∧
      TextBefore (tsString 86399) (tsString 86400) := by
  obtain ⟨-, hinverse, hdates, hnames, htimes⟩ := civilFromDays_calendar
  have hleap := hinverse leapDay (Date.marchFirst_le_iff.mpr (.inl (by decide)))
  exact ⟨hleap, hdates 0 leapDay.daysFromCivil _ _ (by decide) (by decide) hleap,
    hnames _ _ (by decide), htimes _ _ (by decide)⟩

end InfSplitter.Diagnostics
