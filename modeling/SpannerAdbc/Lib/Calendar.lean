import Mathlib.Algebra.Order.Ring.Int
import Mathlib.Data.List.Basic

/-!
# SpannerAdbc.Lib.Calendar

The proleptic Gregorian calendar. A `Date` is a day that exists; `dayNumber` counts days from
0001-01-01, which is day 1, and `ofDayNumber` is its inverse on all of ℤ. The year of a day is found
by the four periods of the calendar (400, 100, 4 and 1 years), the month by its table.

* `dayNumber_ofDayNumber`, `ofDayNumber_dayNumber`: the two are inverse to each other.
* `year_le_of_dayNumber_le`: later years have later days.

A `DateTime` is an instant of UTC: a day and a time of day.
-/

namespace SpannerAdbc
namespace Lib

/-! ## Years -/

def isLeap (y : Int) : Bool := y % 4 = 0 ∧ (y % 100 ≠ 0 ∨ y % 400 = 0)

def daysInYear (y : Int) : Int := if isLeap y then 366 else 365

/-- The days of all years before `y`, from year 1 on. -/
def daysBeforeYear (y : Int) : Int := 365 * (y - 1) + (y - 1) / 4 - (y - 1) / 100 + (y - 1) / 400

theorem isLeap_iff (y : Int) : isLeap y = true ↔ y % 4 = 0 ∧ (y % 100 ≠ 0 ∨ y % 400 = 0) := by
  simp [isLeap]

theorem daysBeforeYear_succ (y : Int) : daysBeforeYear (y + 1) = daysBeforeYear y + daysInYear y := by
  unfold daysBeforeYear daysInYear
  split
  · rename_i h
    rw [isLeap_iff] at h
    omega
  · rename_i h
    rw [isLeap_iff] at h
    omega

theorem daysBeforeYear_le {y y' : Int} (h : y < y') :
    daysBeforeYear y + daysInYear y ≤ daysBeforeYear y' := by
  rw [← daysBeforeYear_succ]
  unfold daysBeforeYear
  omega

/-- The year of the day `n`, counted from 0 on 0001-01-01, and the day of that year from 0. The last
of the four centuries and of the four years takes the extra day of its period. -/
def yearOf (n : Int) : Int × Int :=
  let q400 := n / 146097
  let r := n % 146097
  let q100 := min 3 (r / 36524)
  let r := r - q100 * 36524
  let q4 := r / 1461
  let r := r % 1461
  let q1 := min 3 (r / 365)
  (400 * q400 + 100 * q100 + 4 * q4 + q1 + 1, r - 365 * q1)

theorem daysBeforeYear_periods {a b c d : Int} (hb : 0 ≤ b ∧ b ≤ 3) (hc : 0 ≤ c ∧ c ≤ 24)
    (hd : 0 ≤ d ∧ d ≤ 3) :
    daysBeforeYear (400 * a + 100 * b + 4 * c + d + 1) =
      146097 * a + 36524 * b + 1461 * c + 365 * d := by
  have h4 : (400 * a + 100 * b + 4 * c + d) / 4 = 100 * a + 25 * b + c := by omega
  have h100 : (400 * a + 100 * b + 4 * c + d) / 100 = 4 * a + b := by omega
  have h400 : (400 * a + 100 * b + 4 * c + d) / 400 = a := by omega
  rw [daysBeforeYear, Int.add_sub_cancel, h4, h100, h400]
  omega

theorem isLeap_periods {a b c d : Int} (hb : 0 ≤ b ∧ b ≤ 3) (hc : 0 ≤ c ∧ c ≤ 24)
    (hd : 0 ≤ d ∧ d ≤ 3) :
    isLeap (400 * a + 100 * b + 4 * c + d + 1) = true ↔ d = 3 ∧ (c ≠ 24 ∨ b = 3) := by
  rw [isLeap_iff]
  omega

theorem yearOf_spec (n : Int) :
    daysBeforeYear (yearOf n).1 + (yearOf n).2 = n ∧ 0 ≤ (yearOf n).2 ∧
      (yearOf n).2 < daysInYear (yearOf n).1 := by
  obtain ⟨a, b, c, d, k, hn, hb, hc, hd, hk, hk', e⟩ : ∃ a b c d k : Int,
      n = 146097 * a + 36524 * b + 1461 * c + 365 * d + k ∧ (0 ≤ b ∧ b ≤ 3) ∧ (0 ≤ c ∧ c ≤ 24) ∧
      (0 ≤ d ∧ d ≤ 3) ∧ 0 ≤ k ∧ (k < 365 ∨ (k = 365 ∧ d = 3 ∧ (c ≠ 24 ∨ b = 3))) ∧
      yearOf n = (400 * a + 100 * b + 4 * c + d + 1, k) := by
    refine ⟨n / 146097, min 3 (n % 146097 / 36524),
      (n % 146097 - min 3 (n % 146097 / 36524) * 36524) / 1461,
      min 3 ((n % 146097 - min 3 (n % 146097 / 36524) * 36524) % 1461 / 365), _, ?_, ?_, ?_, ?_, ?_,
      ?_, rfl⟩ <;> omega
  rw [e, daysBeforeYear_periods hb hc hd]
  refine ⟨by omega, hk, ?_⟩
  rw [daysInYear]
  have hleap := isLeap_periods (a := a) hb hc hd
  split
  · omega
  · rename_i hno
    rw [hleap] at hno
    show k < 365
    omega

/-- The year of a day is the only one it lies in. -/
theorem yearOf_eq {y k : Int} (h0 : 0 ≤ k) (hk : k < daysInYear y) :
    yearOf (daysBeforeYear y + k) = (y, k) := by
  obtain ⟨he, hlo, hhi⟩ := yearOf_spec (daysBeforeYear y + k)
  have hy : (yearOf (daysBeforeYear y + k)).1 = y := by
    rcases lt_trichotomy (yearOf (daysBeforeYear y + k)).1 y with h | h | h
    · have := daysBeforeYear_le h
      omega
    · exact h
    · have := daysBeforeYear_le h
      omega
  refine Prod.ext hy ?_
  rw [hy] at he
  show (yearOf (daysBeforeYear y + k)).2 = k
  omega

/-! ## Months -/

def daysInMonth (leap : Bool) : Nat → Nat
  | 1 => 31
  | 2 => if leap then 29 else 28
  | 3 => 31
  | 4 => 30
  | 5 => 31
  | 6 => 30
  | 7 => 31
  | 8 => 31
  | 9 => 30
  | 10 => 31
  | 11 => 30
  | 12 => 31
  | _ => 0

/-- The days of the year before month `m`. -/
def daysBeforeMonth (leap : Bool) : Nat → Nat
  | 0 => 0
  | m + 1 => daysBeforeMonth leap m + daysInMonth leap m

/-- The month that day `d` (from 0) lies in when month `m` begins with day 0, and the day of that
month from 1. -/
def monthFrom (leap : Bool) : (fuel m d : Nat) → Nat × Nat
  | 0, m, d => (m, d + 1)
  | fuel + 1, m, d =>
    if d < daysInMonth leap m then (m, d + 1)
    else monthFrom leap fuel (m + 1) (d - daysInMonth leap m)

theorem daysBeforeMonth_year (y : Int) : (daysBeforeMonth (isLeap y) 13 : Int) = daysInYear y := by
  rw [daysInYear]
  cases isLeap y <;> rfl

theorem daysBeforeMonth_le (leap : Bool) {m m' : Nat} (h : m < m') :
    daysBeforeMonth leap m + daysInMonth leap m ≤ daysBeforeMonth leap m' := by
  induction h with
  | refl => exact Nat.le_refl _
  | step _ ih => exact ih.trans (Nat.le_add_right _ _)

theorem monthFrom_spec (leap : Bool) (fuel m d : Nat) (hm : m + fuel = 13)
    (hd : daysBeforeMonth leap m + d < daysBeforeMonth leap 13) :
    m ≤ (monthFrom leap fuel m d).1 ∧ (monthFrom leap fuel m d).1 ≤ 12 ∧
      1 ≤ (monthFrom leap fuel m d).2 ∧
      (monthFrom leap fuel m d).2 ≤ daysInMonth leap (monthFrom leap fuel m d).1 ∧
      daysBeforeMonth leap (monthFrom leap fuel m d).1 + (monthFrom leap fuel m d).2 =
        daysBeforeMonth leap m + d + 1 := by
  induction fuel generalizing m d with
  | zero =>
    obtain rfl : m = 13 := by omega
    omega
  | succ fuel ih =>
    simp only [monthFrom]
    split
    · rename_i h
      exact ⟨Nat.le_refl m, by omega, Nat.le_add_left 1 d, h, rfl⟩
    · rename_i h
      have hnext : daysBeforeMonth leap (m + 1) = daysBeforeMonth leap m + daysInMonth leap m := rfl
      obtain ⟨h1, h2, h3, h4, h5⟩ := ih (m + 1) (d - daysInMonth leap m) (by omega) (by omega)
      exact ⟨by omega, h2, h3, h4, by omega⟩

/-- The month of a day is the only one it lies in. -/
theorem month_unique (leap : Bool) {m m' d d' : Nat} (hd : 1 ≤ d ∧ d ≤ daysInMonth leap m)
    (hd' : 1 ≤ d' ∧ d' ≤ daysInMonth leap m')
    (h : daysBeforeMonth leap m + d = daysBeforeMonth leap m' + d') : m = m' ∧ d = d' := by
  rcases Nat.lt_trichotomy m m' with hlt | rfl | hlt
  · have := daysBeforeMonth_le leap hlt
    omega
  · exact ⟨rfl, by omega⟩
  · have := daysBeforeMonth_le leap hlt
    omega

/-! ## Dates -/

/-- A day of the calendar. -/
@[ext]
structure Date where
  year : Int
  month : Nat
  day : Nat
  valid : 1 ≤ month ∧ month ≤ 12 ∧ 1 ≤ day ∧ day ≤ daysInMonth (isLeap year) month
  deriving DecidableEq

namespace Date

/-- The day of a year, month and day of the month, if there is such a day. -/
def ofYmd (year : Int) (month day : Nat) : Option Date :=
  if h : 1 ≤ month ∧ month ≤ 12 ∧ 1 ≤ day ∧ day ≤ daysInMonth (isLeap year) month then
    some ⟨year, month, day, h⟩
  else none

theorem ofYmd_eq (date : Date) : ofYmd date.year date.month date.day = some date := by
  rw [ofYmd, dif_pos date.valid]

theorem year_of_ofYmd {year : Int} {month day : Nat} {date : Date}
    (h : ofYmd year month day = some date) : date.year = year := by
  rw [ofYmd] at h
  split at h
  · rw [← Option.some.inj h]
  · cases h

/-- The number of a day, counted from 1 on 0001-01-01. -/
def dayNumber (date : Date) : Int :=
  daysBeforeYear date.year + daysBeforeMonth (isLeap date.year) date.month + date.day

/-- The day of the year, from 0. -/
theorem dayOfYear_bounds (date : Date) :
    0 ≤ (daysBeforeMonth (isLeap date.year) date.month + date.day : Int) - 1 ∧
      (daysBeforeMonth (isLeap date.year) date.month + date.day : Int) - 1 < daysInYear date.year := by
  obtain ⟨h1, h2, h3, h4⟩ := date.valid
  have hle := daysBeforeMonth_le (isLeap date.year) (by omega : date.month < 13)
  have hyear := daysBeforeMonth_year date.year
  omega

def ofDayNumber (n : Int) : Date :=
  let y := (yearOf (n - 1)).1
  let md := monthFrom (isLeap y) 12 1 (yearOf (n - 1)).2.toNat
  { year := y
    month := md.1
    day := md.2
    valid := by
      obtain ⟨-, hlo, hhi⟩ := yearOf_spec (n - 1)
      have hyear := daysBeforeMonth_year (yearOf (n - 1)).1
      have hone : daysBeforeMonth (isLeap (yearOf (n - 1)).1) 1 = 0 := rfl
      obtain ⟨h1, h2, h3, h4, -⟩ := monthFrom_spec (isLeap (yearOf (n - 1)).1) 12 1
        (yearOf (n - 1)).2.toNat rfl (by omega)
      exact ⟨h1, h2, h3, h4⟩ }

theorem dayNumber_ofDayNumber (n : Int) : (ofDayNumber n).dayNumber = n := by
  obtain ⟨he, hlo, hhi⟩ := yearOf_spec (n - 1)
  have hyear := daysBeforeMonth_year (yearOf (n - 1)).1
  have hone : daysBeforeMonth (isLeap (yearOf (n - 1)).1) 1 = 0 := rfl
  obtain ⟨-, -, -, -, h5⟩ := monthFrom_spec (isLeap (yearOf (n - 1)).1) 12 1
    (yearOf (n - 1)).2.toNat rfl (by omega)
  simp only [dayNumber, ofDayNumber]
  omega

variable {a b : Date}

theorem dayNumber_injective (h : a.dayNumber = b.dayNumber) : a = b := by
  have ha := dayOfYear_bounds a
  have hb := dayOfYear_bounds b
  unfold dayNumber at h
  have hya := yearOf_eq ha.1 ha.2
  have hyb := yearOf_eq hb.1 hb.2
  rw [show daysBeforeYear a.year + ((daysBeforeMonth (isLeap a.year) a.month + a.day : Int) - 1) =
    daysBeforeYear b.year + ((daysBeforeMonth (isLeap b.year) b.month + b.day : Int) - 1) by omega,
    hyb] at hya
  have hyear : a.year = b.year := (congrArg Prod.fst hya).symm
  rw [hyear] at h
  have hvalid := a.valid
  rw [hyear] at hvalid
  obtain ⟨hm, hd⟩ := month_unique (isLeap b.year) hvalid.2.2 b.valid.2.2 (by omega)
  exact Date.ext hyear hm hd

theorem ofDayNumber_dayNumber (date : Date) : ofDayNumber date.dayNumber = date :=
  dayNumber_injective (dayNumber_ofDayNumber _)

/-- Later years have later days. -/
theorem year_le_of_dayNumber_le (h : a.dayNumber ≤ b.dayNumber) : a.year ≤ b.year := by
  by_contra hlt
  have hle := daysBeforeYear_le (not_le.mp hlt)
  have ha := dayOfYear_bounds a
  have hb := dayOfYear_bounds b
  unfold dayNumber at h
  omega

/-- Days follow each other as their years, months and days of the month do. -/
theorem dayNumber_lt_iff : a.dayNumber < b.dayNumber ↔
    a.year < b.year ∨ a.year = b.year ∧ (a.month < b.month ∨ a.month = b.month ∧ a.day < b.day) := by
  have hforward : ∀ {a b : Date}, a.year < b.year ∨ a.year = b.year ∧ (a.month < b.month ∨
      a.month = b.month ∧ a.day < b.day) → a.dayNumber < b.dayNumber := by
    rintro a b (hyear | ⟨hyear, hmonth | ⟨hmonth, hday⟩⟩)
    · exact not_le.mp fun hle => absurd (year_le_of_dayNumber_le hle) (by omega)
    · have hle := daysBeforeMonth_le (isLeap b.year) hmonth
      have ha := a.valid.2.2.2
      have hb := b.valid.2.2.1
      rw [hyear] at ha
      simp only [dayNumber, hyear]
      omega
    · simp only [dayNumber, hyear, hmonth]
      omega
  refine ⟨fun hlt => ?_, hforward⟩
  by_contra hnot
  -- Then the days are the same or in the other order.
  rcases lt_trichotomy a.year b.year with hy | hy | hy
  · exact hnot (.inl hy)
  · rcases Nat.lt_trichotomy a.month b.month with hm | hm | hm
    · exact hnot (.inr ⟨hy, .inl hm⟩)
    · rcases Nat.lt_trichotomy a.day b.day with hd | hd | hd
      · exact hnot (.inr ⟨hy, .inr ⟨hm, hd⟩⟩)
      · rw [Date.ext hy hm hd] at hlt
        exact lt_irrefl _ hlt
      · exact absurd (hforward (.inr ⟨hy.symm, .inr ⟨hm.symm, hd⟩⟩)) (by omega)
    · exact absurd (hforward (.inr ⟨hy.symm, .inl hm⟩)) (by omega)
  · exact absurd (hforward (.inl hy)) (by omega)

end Date

/-! ## Instants -/

/-- The day number of 1970-01-01. -/
def epochDay : Int := 719163

example : (Date.ofDayNumber epochDay).year = 1970 ∧ (Date.ofDayNumber epochDay).month = 1 ∧
    (Date.ofDayNumber epochDay).day = 1 := by decide

/-- An instant in UTC: a day, the second of the day and the nanosecond of the second. -/
@[ext]
structure DateTime where
  date : Date
  second : Nat
  nano : Nat
  second_lt : second < 86400
  nano_lt : nano < 1000000000

namespace DateTime

/-- The instant a number of seconds and nanoseconds after 1970-01-01T00:00:00. -/
def ofEpoch (seconds : Int) (nano : Nat) (h : nano < 1000000000) : DateTime where
  date := Date.ofDayNumber (epochDay + seconds / 86400)
  second := (seconds % 86400).toNat
  nano := nano
  second_lt := by omega
  nano_lt := h

/-- The seconds since 1970-01-01T00:00:00, rounded towards the past. -/
def seconds (ts : DateTime) : Int := (ts.date.dayNumber - epochDay) * 86400 + ts.second

/-- The nanoseconds since 1970-01-01T00:00:00. -/
def nanos (ts : DateTime) : Int := ts.seconds * 1000000000 + ts.nano

theorem seconds_ofEpoch (seconds : Int) (nano : Nat) (h : nano < 1000000000) :
    (ofEpoch seconds nano h).seconds = seconds := by
  simp only [DateTime.seconds, ofEpoch, Date.dayNumber_ofDayNumber]
  omega

end DateTime
end Lib
end SpannerAdbc
