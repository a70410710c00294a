import Mathlib.Algebra.Order.Field.Rat
import Mathlib.Tactic.Ring
import SpannerAdbc.Convert.Checked

/-!
# SpannerAdbc.Convert.Exact

Which texts the decoders of DATE, TIMESTAMP and NUMERIC accept, and what they make of them. `DayText`,
`InstantText` and `DecimalText` say what a text has to look like and what it means; a decoder gives a
value exactly for these texts, and it is the value of the text.

A decoder looks at bytes at fixed offsets. Each look takes the front off what is left of the bytes
(`drop_of_byteAt`, `drop_of_twoDigits`), so that a text that passes is known byte for byte, and the
bytes determine the text.
-/

namespace SpannerAdbc
namespace Convert

open Arrow Lib Binding

/-! ## Bytes at offsets -/

variable {s : List Char} {days : Int} {bytes b : List UInt8} {off n : Nat} {ts : DateTime}

theorem drop_of_byteAt {c : UInt8} (hlen : off < b.length) (h : byteAt b off = c) :
    b.drop off = c :: b.drop (off + 1) := by
  rw [List.drop_eq_getElem_cons hlen, ← h, byteAt, List.getD_eq_getElem _ 0 hlen]

theorem drop_of_twoDigits (hlen : off + 1 < b.length) (h : twoDigits b off = some n) :
    b.drop off = asBytes (padded 2 n) ++ b.drop (off + 2) := by
  simp only [twoDigits, Option.bind_eq_bind, Option.bind_eq_some_iff, Option.pure_def,
    Option.some.injEq] at h
  obtain ⟨hi, hhi, lo, hlo, rfl⟩ := h
  have hread : readDigits 0 [byteAt b off, byteAt b (off + 1)] = some (hi * 10 + lo) := by
    simp [readDigits, hhi, hlo]
  have hpadded : [byteAt b off, byteAt b (off + 1)] = asBytes (padded 2 (hi * 10 + lo)) :=
    eq_padded_of_readDigits hread (by simp)
  rw [drop_of_byteAt (by omega) rfl, drop_of_byteAt hlen rfl, ← hpadded]
  rfl

theorem drop_of_fourDigits {m : Nat} (hlen : off + 3 < b.length) (hn : twoDigits b off = some n)
    (hm : twoDigits b (off + 2) = some m) :
    b.drop off = asBytes (padded 4 (n * 100 + m)) ++ b.drop (off + 4) := by
  simp only [twoDigits, Option.bind_eq_bind, Option.bind_eq_some_iff, Option.pure_def,
    Option.some.injEq] at hn hm
  obtain ⟨d₀, h₀, d₁, h₁, rfl⟩ := hn
  obtain ⟨d₂, h₂, d₃, h₃, rfl⟩ := hm
  have hread : readDigits 0 [byteAt b off, byteAt b (off + 1), byteAt b (off + 2),
      byteAt b (off + 2 + 1)] = some ((d₀ * 10 + d₁) * 100 + (d₂ * 10 + d₃)) := by
    simp only [readDigits, h₀, h₁, h₂, h₃, Option.bind_some, Option.some.injEq]
    omega
  have hpadded : [byteAt b off, byteAt b (off + 1), byteAt b (off + 2), byteAt b (off + 2 + 1)] =
      asBytes (padded 4 ((d₀ * 10 + d₁) * 100 + (d₂ * 10 + d₃))) :=
    eq_padded_of_readDigits hread (by simp)
  rw [drop_of_byteAt (by omega) rfl, drop_of_byteAt (by omega) rfl, drop_of_byteAt (by omega) rfl,
    drop_of_byteAt (by omega) rfl, ← hpadded]
  rfl

/-! ## Dates -/

/-- `YYYY-MM-DD`. -/
def isoDate (date : Date) : List Char :=
  padded 4 date.year.toNat ++ ('-' :: padded 2 date.month ++ '-' :: padded 2 date.day)

/-- The text names the day. -/
structure DayText (s : List Char) (date : Date) : Prop where
  year : 0 ≤ date.year ∧ date.year ≤ 9999
  text : s = isoDate date

theorem dateText_eq {date : Date} (h : 0 ≤ date.year ∧ date.year ≤ 9999) :
    dateText date = isoDate date := by
  rw [dateText, yearText, if_pos h, isoDate]

theorem asBytes_isoDate (date : Date) : asBytes (isoDate date) =
    asBytes (padded 4 date.year.toNat) ++ (dash :: (asBytes (padded 2 date.month) ++
      dash :: asBytes (padded 2 date.day))) := by
  have hdash : UInt8.ofNat '-'.toNat = dash := rfl
  rw [isoDate, asBytes_append, List.cons_append, asBytes_cons_of_ascii (by decide), asBytes_append,
    asBytes_cons_of_ascii (by decide), hdash]

theorem ymd_of_ofYmd {year : Int} {month day : Nat} {date : Date}
    (h : Date.ofYmd year month day = some date) :
    date.year = year ∧ date.month = month ∧ date.day = day := by
  rw [Date.ofYmd] at h
  split at h
  · rw [← Option.some.inj h]
    exact ⟨rfl, rfl, rfl⟩
  · cases h

/-- Only the text of a day is decoded. -/
theorem dayText_of_parseDateDays (h : parseDateDays s = some days) :
    ∃ date, DayText s date ∧ days = date.dayNumber - epochDay := by
  simp only [parseDateDays] at h
  split at h
  · cases h
  · rename_i hshape
    simp only [not_or, not_not] at hshape
    obtain ⟨hlen, h₄, h₇⟩ := hshape
    simp only [Option.bind_eq_bind, Option.bind_eq_some_iff, Option.pure_def, Option.some.injEq] at h
    obtain ⟨y₀, hy₀, y₁, hy₁, y₂, hy₂, y₃, hy₃, m₀, hm₀, m₁, hm₁, d₀, hd₀, d₁, hd₁, date, hdate,
      rfl⟩ := h
    have := digit?_lt hy₀
    have := digit?_lt hy₁
    have := digit?_lt hy₂
    have := digit?_lt hy₃
    obtain ⟨hyear, hmonth, hday⟩ := ymd_of_ofYmd hdate
    refine ⟨date, ⟨by omega, asBytes_injective ?_⟩, rfl⟩
    have hcentury : twoDigits (asBytes s) 0 = some (y₀ * 10 + y₁) := by simp [twoDigits, hy₀, hy₁]
    have hrest : twoDigits (asBytes s) (0 + 2) = some (y₂ * 10 + y₃) := by
      simp [twoDigits, hy₂, hy₃]
    have hmonth' : twoDigits (asBytes s) 5 = some date.month := by
      simp [twoDigits, hm₀, hm₁, hmonth]
    have hday' : twoDigits (asBytes s) 8 = some date.day := by simp [twoDigits, hd₀, hd₁, hday]
    have hyear' : (y₀ * 10 + y₁) * 100 + (y₂ * 10 + y₃) = date.year.toNat := by omega
    have hfront := drop_of_fourDigits (by omega) hcentury hrest
    rw [List.drop_zero, Nat.zero_add, hyear', drop_of_byteAt (by omega) h₄,
      drop_of_twoDigits (by omega) hmonth', drop_of_byteAt (by omega) h₇,
      drop_of_twoDigits (by omega) hday', List.drop_of_length_le (by omega), List.append_nil] at hfront
    rw [hfront, asBytes_isoDate]

theorem parseDateDays_iff :
    parseDateDays s = some days ↔ ∃ date, DayText s date ∧ days = date.dayNumber - epochDay := by
  refine ⟨dayText_of_parseDateDays, ?_⟩
  rintro ⟨date, ⟨hyear, rfl⟩, rfl⟩
  rw [← dateText_eq hyear, parseDateDays_dateText hyear]

/-- The bytes of two dates are ordered as the days are. -/
theorem asBytes_isoDate_lt {a b : Date} (ha : 0 ≤ a.year ∧ a.year ≤ 9999)
    (hb : 0 ≤ b.year ∧ b.year ≤ 9999) :
    asBytes (isoDate a) < asBytes (isoDate b) ↔ a.dayNumber < b.dayNumber := by
  have hlength : ∀ {w n}, 0 < w → n < 10 ^ w → (asBytes (padded w n)).length = w := by
    intro w n hw hn
    rw [length_asBytes fun _ => isDigit_of_mem_padded, length_padded hw hn]
  have hlt : ∀ {w n m}, 0 < w → n < 10 ^ w → m < 10 ^ w →
      (asBytes (padded w n) < asBytes (padded w m) ↔ n < m) := by
    intro w n m hw hn hm
    exact lt_iff_of_readDigits (readDigits_padded w n) (readDigits_padded w m)
      ((hlength hw hn).trans (hlength hw hm).symm)
  have heq : ∀ {w n m}, asBytes (padded w n) = asBytes (padded w m) ↔ n = m := by
    intro w n m
    refine ⟨fun h => ?_, fun h => h ▸ rfl⟩
    have hn := readDigits_padded w n
    rw [h, readDigits_padded] at hn
    exact (Option.some.inj hn).symm
  have hma := a.valid.2.1
  have hmb := b.valid.2.1
  have hda := day_le a
  have hdb := day_le b
  have hyear : ∀ {date : Date}, 0 ≤ date.year ∧ date.year ≤ 9999 → date.year.toNat < 10 ^ 4 := by
    intro date h
    omega
  rw [asBytes_isoDate, asBytes_isoDate, append_lt_append_iff ((hlength (by decide) (hyear ha)).trans
      (hlength (by decide) (hyear hb)).symm), hlt (by decide) (hyear ha) (hyear hb), heq,
    List.cons_lt_cons_iff, append_lt_append_iff ((hlength (by decide) (by omega)).trans
      (hlength (by decide) (by omega)).symm), hlt (by decide) (by omega) (by omega), heq,
    List.cons_lt_cons_iff, hlt (by decide) (by omega) (by omega), Date.dayNumber_lt_iff]
  simp only [UInt8.lt_irrefl, false_or, true_and]
  omega

theorem isSpannerDay_of_year
    (h : 1 ≤ (Date.ofDayNumber (epochDay + days)).year ∧
      (Date.ofDayNumber (epochDay + days)).year ≤ 9999) : isSpannerDay days := by
  have hle : ∀ {n m : Int}, n ≤ m → (Date.ofDayNumber n).year ≤ (Date.ofDayNumber m).year := by
    intro n m hnm
    refine Date.year_le_of_dayNumber_le ?_
    rwa [Date.dayNumber_ofDayNumber, Date.dayNumber_ofDayNumber]
  have hepoch : epochDay = 719163 := rfl
  constructor
  · by_contra hlt
    have hyear := hle (n := epochDay + days) (m := 0) (by omega)
    have hzero : (Date.ofDayNumber 0).year = 0 := by decide
    omega
  · by_contra hlt
    have hyear := hle (n := 3652060) (m := epochDay + days) (by omega)
    have hlast : (Date.ofDayNumber 3652060).year = 10000 := by decide
    omega

/-- The decoder of DATE never panics, accepts exactly the texts of days and gives the distance of the
day from 1970-01-01. It keeps the order, and it undoes the binding of a day of the years 1 to 9999. A
millisecond date is bound by the day it lies in. -/
theorem date_decoding_exact :
    (∀ s, Checked.parseDateDays s = Lib.Checked.returns (parseDateDays s)) ∧
    (∀ s days, parseDateDays s = some days ↔
      ∃ date, DayText s date ∧ days = date.dayNumber - epochDay) ∧
    (∀ s t a b, parseDateDays s = some a → parseDateDays t = some b →
      (asBytes s < asBytes t ↔ a < b)) ∧
    (∀ name days, 1 ≤ (Date.ofDayNumber (epochDay + days)).year ∧
      (Date.ofDayNumber (epochDay + days)).year ≤ 9999 →
      ∃ text, dateString name days = .ok text ∧ parseDateDays text = some days) ∧
    (∀ name millis days, date64Days name millis = .ok days ↔
      fitsSigned 32 days = true ∧ days * 86400000 ≤ millis ∧ millis < (days + 1) * 86400000) := by
  refine ⟨Checked.parseDateDays_checked, fun s days => parseDateDays_iff, ?_, ?_, ?_⟩
  · intro s t a b hs ht
    obtain ⟨day, ⟨hday, rfl⟩, rfl⟩ := parseDateDays_iff.mp hs
    obtain ⟨day', ⟨hday', rfl⟩, rfl⟩ := parseDateDays_iff.mp ht
    rw [asBytes_isoDate_lt hday hday']
    omega
  · intro name days hyear
    exact parseDateDays_dateString name (isSpannerDay_of_year hyear)
  · intro name millis days
    have hfloor : millis / 86400000 = days ↔
        days * 86400000 ≤ millis ∧ millis < (days + 1) * 86400000 := by omega
    simp only [date64Days]
    split
    · rename_i hfits
      rw [Except.ok.injEq, hfloor]
      exact ⟨fun h => ⟨hfloor.mpr h ▸ hfits, h⟩, fun h => h.2⟩
    · rename_i hfits
      constructor
      · intro h
        cases h
      · intro h
        rw [hfloor.mpr h.2] at hfits
        exact absurd h.1 hfits

example : parseDateDays "2024-02-29".toList = some 19782 ∧
    parseDateDays "2023-02-29".toList = none := by decide

/-! ## Timestamps -/

/-- `HH:MM:SS`. -/
def isoTime (second : Nat) : List Char :=
  padded 2 (second / 3600) ++ (':' :: padded 2 (second / 60 % 60) ++ ':' :: padded 2 (second % 60))

/-- Digits behind a point, or nothing. -/
def fraction (digits : List Char) : List Char := if digits = [] then [] else '.' :: digits

/-- The text names the instant: date and time of day, at most nine digits of a fraction, `Z`. -/
structure InstantText (s : List Char) (ts : DateTime) : Prop where
  year : 0 ≤ ts.date.year ∧ ts.date.year ≤ 9999
  text : ∃ digits : List Char, (∀ c ∈ digits, c.isDigit = true) ∧ digits.length ≤ 9 ∧
    s = isoDate ts.date ++ ('T' :: isoTime ts.second ++ (fraction digits ++ ['Z'])) ∧
    ts.nano = Nat.ofDigitChars 10 digits 0 * 10 ^ (9 - digits.length)

/-- Digits are the padded form of their number. -/
theorem eq_padded_of_digits {digits : List Char} (h : ∀ c ∈ digits, c.isDigit = true)
    (hne : digits ≠ []) : digits = padded digits.length (Nat.ofDigitChars 10 digits 0) := by
  have hread := readDigits_asBytes h 0
  have hlen := length_asBytes h
  have hbytes := eq_padded_of_readDigits hread (by
    rw [← List.length_pos_iff, hlen]
    exact List.length_pos_iff.mpr hne)
  rw [hlen] at hbytes
  exact asBytes_injective hbytes

theorem scanTimestampUtc_of_text (h : InstantText s ts) :
    scanTimestampUtc s = some ts := by
  obtain ⟨hyear, digits, hdigits, hlen, rfl, hnano⟩ := h
  have htext : isoDate ts.date ++ ('T' :: isoTime ts.second ++ (fraction digits ++ ['Z'])) =
      toRfc3339 ts digits.length := by
    have hfraction : fraction digits = if digits.length = 0 then []
        else '.' :: padded digits.length (ts.nano / 10 ^ (9 - digits.length)) := by
      by_cases hne : digits = []
      · rw [fraction, if_pos hne, if_pos (List.length_eq_zero_iff.mpr hne)]
      · rw [fraction, if_neg hne, if_neg (List.length_eq_zero_iff.not.mpr hne), hnano,
          Nat.mul_div_cancel _ (Nat.pow_pos (by decide) : 0 < 10 ^ (9 - digits.length)),
          ← eq_padded_of_digits hdigits hne]
    rw [toRfc3339, dateText_eq hyear, hfraction, isoTime]
    simp only [List.cons_append, List.append_assoc]
  rw [htext, scanTimestampUtc_toRfc3339 hyear hlen (Dvd.intro_left _ hnano.symm)]

theorem asBytes_isoTime (second : Nat) : asBytes (isoTime second) =
    asBytes (padded 2 (second / 3600)) ++ (58 :: (asBytes (padded 2 (second / 60 % 60)) ++
      58 :: asBytes (padded 2 (second % 60)))) := by
  have hcolon : UInt8.ofNat ':'.toNat = 58 := rfl
  rw [isoTime, asBytes_append, List.cons_append, asBytes_cons_of_ascii (by decide), asBytes_append,
    asBytes_cons_of_ascii (by decide), hcolon]

/-- What stands behind the seconds. -/
theorem drop_of_scanFraction (h : scanFraction b = some n) :
    ∃ digits : List Char, (∀ c ∈ digits, c.isDigit = true) ∧
      digits.length ≤ 9 ∧ b.drop 19 = asBytes (fraction digits ++ ['Z']) ∧
      n = Nat.ofDigitChars 10 digits 0 * 10 ^ (9 - digits.length) := by
  rw [scanFraction] at h
  split at h
  · rename_i hz
    obtain rfl := Option.some.inj h
    refine ⟨[], by simp, by simp, ?_, rfl⟩
    rw [drop_of_byteAt (by omega) hz.1, List.drop_of_length_le (by omega)]
    rfl
  · split at h
    · rename_i hp
      simp only [] at h
      split at h
      · cases h
      · rename_i hshape
        simp only [not_or, not_not, not_lt] at hshape
        obtain ⟨hlast, hne, hle⟩ := hshape
        simp only [Option.bind_eq_bind, Option.bind_eq_some_iff, Option.pure_def,
          Option.some.injEq] at h
        obtain ⟨m, hread, rfl⟩ := h
        obtain ⟨digits, hdigits, hbytes, hcount, rfl⟩ := exists_digits_of_readDigits hread
        rw [← hcount] at hle ⊢
        refine ⟨digits, hdigits, hle, ?_, rfl⟩
        have hnonempty : digits ≠ [] := by
          rintro rfl
          exact hne hbytes.symm
        have hend : b.drop 20 = asBytes digits ++ [90] := by
          have hlen20 : b.drop 20 ≠ [] := by
            rw [← List.length_pos_iff, List.length_drop]
            omega
          have hget : (b.drop 20).getLast hlen20 = 90 := by
            rw [List.getLast_drop, List.getLast_eq_getElem, ← hlast, byteAt,
              List.getD_eq_getElem _ 0 (by omega)]
          rw [← List.dropLast_append_getLast hlen20, hget, hbytes]
        rw [drop_of_byteAt (by omega) hp.1, hend, fraction, if_neg hnonempty, List.cons_append,
          asBytes_cons_of_ascii (by decide), asBytes_append]
        rfl
    · cases h

theorem instantText_of_scanTimestampUtc (h : scanTimestampUtc s = some ts) : InstantText s ts := by
  simp only [scanTimestampUtc] at h
  split at h
  · cases h
  · rename_i hshape
    simp only [not_or, not_not, not_lt] at hshape
    obtain ⟨hlen, h₄, h₇, h₁₀, h₁₃, h₁₆⟩ := hshape
    simp only [Option.bind_eq_bind, Option.bind_eq_some_iff] at h
    obtain ⟨century, hcentury, year, hyear, month, hmonth, day, hday, hour, hhour, min, hmin, sec,
      hsec, nanos, hnanos, date, hdate, htime⟩ := h
    rw [andHmsNano] at htime
    split at htime
    · rename_i htimes
      obtain rfl := Option.some.inj htime
      obtain ⟨hy, rfl, rfl⟩ := ymd_of_ofYmd hdate
      have := Checked.lt_of_twoDigits hcentury
      have := Checked.lt_of_twoDigits hyear
      obtain ⟨digits, hdigits, hle, hfraction, rfl⟩ := drop_of_scanFraction hnanos
      refine ⟨by simp only []; omega, digits, hdigits, hle, asBytes_injective ?_, rfl⟩
      have hy' : century * 100 + year = date.year.toNat := by omega
      have hfront := drop_of_fourDigits (by omega) hcentury hyear
      rw [List.drop_zero, Nat.zero_add, hy', drop_of_byteAt (by omega) h₄,
        drop_of_twoDigits (by omega) hmonth, drop_of_byteAt (by omega) h₇,
        drop_of_twoDigits (by omega) hday, drop_of_byteAt (by omega) h₁₀,
        drop_of_twoDigits (by omega) hhour, drop_of_byteAt (by omega) h₁₃,
        drop_of_twoDigits (by omega) hmin, drop_of_byteAt (by omega) h₁₆,
        drop_of_twoDigits (by omega) hsec, hfraction] at hfront
      have hhour' : (hour * 3600 + min * 60 + sec) / 3600 = hour := by omega
      have hmin' : (hour * 3600 + min * 60 + sec) / 60 % 60 = min := by omega
      have hsec' : (hour * 3600 + min * 60 + sec) % 60 = sec := by omega
      have hT : ∀ t, asBytes ('T' :: t) = 84 :: asBytes t := asBytes_cons_of_ascii (by decide)
      rw [hfront]
      simp only [asBytes_append, asBytes_isoDate, asBytes_isoTime, hT, hhour', hmin', hsec',
        List.append_assoc, List.cons_append]
    · cases htime

theorem scanTimestampUtc_iff :
    scanTimestampUtc s = some ts ↔ InstantText s ts :=
  ⟨instantText_of_scanTimestampUtc, scanTimestampUtc_of_text⟩

/-- The years 0 to 9999 in seconds. -/
theorem seconds_bounds (h : 0 ≤ ts.date.year ∧ ts.date.year ≤ 9999) :
    -100000000000 ≤ ts.seconds ∧ ts.seconds < 1000000000000 := by
  have hdays := dayNumber_bounds h
  have hsecond := ts.second_lt
  rw [DateTime.seconds]
  omega

theorem parseTimestampNanos_iff {i : Int} : parseTimestampNanos s = some i ↔
    ∃ ts, InstantText s ts ∧ i = ts.nanos ∧ -2 ^ 63 ≤ i ∧ i < 2 ^ 63 := by
  simp only [parseTimestampNanos, Option.bind_eq_bind, Option.bind_eq_some_iff, scanTimestampUtc_iff,
    Option.ite_none_right_eq_some, Option.some.injEq, DateTime.nanos]
  refine exists_congr fun ts => and_congr_right fun _ => ?_
  rw [fitsSigned_iff]
  constructor
  · rintro ⟨hfits, rfl⟩
    exact ⟨rfl, hfits⟩
  · rintro ⟨rfl, hfits⟩
    exact ⟨hfits, rfl⟩

theorem parseTimestampMicros_iff {i : Int} : parseTimestampMicros s = some i ↔
    ∃ ts, InstantText s ts ∧ i = ts.nanos / 1000 := by
  simp only [parseTimestampMicros, Option.bind_eq_bind, Option.bind_eq_some_iff, scanTimestampUtc_iff,
    Option.ite_none_right_eq_some, Option.some.injEq, DateTime.nanos]
  refine exists_congr fun ts => and_congr_right fun hts => ?_
  have hseconds := seconds_bounds hts.year
  have hnano := ts.nano_lt
  have hfits : fitsSigned 64 (ts.seconds * 1000000) = true := by
    rw [fitsSigned_iff]
    omega
  have hfits' : fitsSigned 64 (ts.seconds * 1000000 + (ts.nano : Int) / 1000) = true := by
    rw [fitsSigned_iff]
    omega
  have hfloor : ts.seconds * 1000000 + (ts.nano : Int) / 1000 =
      (ts.seconds * 1000000000 + ts.nano) / 1000 := by omega
  rw [hfits, hfits', hfloor]
  exact ⟨fun h => h.2.2.symm, fun h => ⟨rfl, rfl, h.symm⟩⟩

/-- The decoders of TIMESTAMP never panic and accept exactly the texts of instants: the nanoseconds
are given where they fit 64 bits and the microseconds always, rounded towards the past. Binding writes
every count of nanoseconds as the text that gives it back. -/
theorem timestamp_decoding_exact :
    (∀ s, Checked.parseTimestampNanos s = Lib.Checked.returns (parseTimestampNanos s) ∧
      Checked.parseTimestampMicros s = Lib.Checked.returns (parseTimestampMicros s)) ∧
    (∀ s i, parseTimestampNanos s = some i ↔
      ∃ ts, InstantText s ts ∧ i = ts.nanos ∧ -2 ^ 63 ≤ i ∧ i < 2 ^ 63) ∧
    (∀ s i, parseTimestampMicros s = some i ↔ ∃ ts, InstantText s ts ∧ i = ts.nanos / 1000) ∧
    (∀ name nanos, -2 ^ 63 ≤ nanos ∧ nanos < 2 ^ 63 →
      ∃ text, timestampString name .nanosecond nanos = .ok text ∧
        parseTimestampNanos text = some nanos) := by
  refine ⟨fun s => ⟨Checked.parseTimestampNanos_checked s, Checked.parseTimestampMicros_checked s⟩,
    fun s i => parseTimestampNanos_iff, fun s i => parseTimestampMicros_iff, ?_⟩
  intro name nanos hrange
  have htick : nanos * tickNanos .nanosecond = nanos := Int.mul_one nanos
  have hfits : fitsSigned 64 (nanos * tickNanos .nanosecond) = true := by
    rw [htick, fitsSigned_iff]
    exact hrange
  have h := parseTimestampNanos_timestampString name hfits
  rwa [htick] at h

-- Truncation goes towards the past also before 1970.
example : parseTimestampMicros "1969-12-31T23:59:59.9999999Z".toList = some (-1) := by decide

/-! ## Decimals -/

/-- A sign, digits, and at most nine more digits behind a point. -/
structure DecimalText (s : List Char) (negative : Bool) (int frac : List Char) : Prop where
  nonempty : int ≠ []
  int_digits : ∀ c ∈ int, c.isDigit = true
  frac_digits : ∀ c ∈ frac, c.isDigit = true
  frac_length : frac.length ≤ 9
  text : s = (if negative then ['-'] else []) ++ (int ++ fraction frac)

/-- The number that a decimal text writes. -/
def decimalValue (negative : Bool) (int frac : List Char) : ℚ :=
  (if negative then -1 else 1) *
    (Nat.ofDigitChars 10 int 0 + Nat.ofDigitChars 10 frac 0 / 10 ^ frac.length)

/-- Its magnitude at scale 9. -/
def decimalMagnitude (int frac : List Char) : Nat :=
  Nat.ofDigitChars 10 int 0 * 1000000000 + Nat.ofDigitChars 10 frac 0 * 10 ^ (9 - frac.length)

theorem signed_decimalMagnitude (negative : Bool) (int : List Char) {frac : List Char}
    (h : frac.length ≤ 9) : (signed negative (decimalMagnitude int frac) : ℚ) =
      decimalValue negative int frac * 10 ^ 9 := by
  have hpow : (10 : ℚ) ^ 9 = 10 ^ frac.length * 10 ^ (9 - frac.length) := by
    rw [← pow_add, Nat.add_sub_cancel' h]
  have hne : (10 : ℚ) ^ frac.length ≠ 0 := pow_ne_zero _ (by norm_num)
  have hfrac : (Nat.ofDigitChars 10 frac 0 : ℚ) / 10 ^ frac.length * 10 ^ 9 =
      Nat.ofDigitChars 10 frac 0 * 10 ^ (9 - frac.length) := by
    rw [hpow, ← mul_assoc, div_mul_cancel₀ _ hne]
  have hmagnitude : (decimalMagnitude int frac : ℚ) =
      (Nat.ofDigitChars 10 int 0 + Nat.ofDigitChars 10 frac 0 / 10 ^ frac.length) * 10 ^ 9 := by
    rw [add_mul, hfrac, decimalMagnitude]
    push_cast
    norm_num
  rw [decimalValue, mul_assoc, ← hmagnitude, signed]
  cases negative <;> simp

theorem readDigits_of_readI128 {acc : Nat} {bs : List UInt8} (h : readI128 acc bs = some n) :
    readDigits acc bs = some n := by
  induction bs generalizing acc with
  | nil => exact h
  | cons b bs ih =>
    obtain ⟨d, hd, h⟩ := Option.bind_eq_some_iff.mp h
    rw [Option.ite_none_right_eq_some] at h
    rw [readDigits, hd, Option.bind_some]
    exact ih h.2

theorem append_of_splitMinus {rest : List UInt8} {negative : Bool}
    (h : splitMinus bytes = (negative, rest)) :
    bytes = (if negative then [dash] else []) ++ rest := by
  rw [splitMinus] at h
  split at h
  · rename_i hhead
    obtain ⟨rfl, rfl⟩ := Prod.mk.inj h
    exact List.eq_cons_of_mem_head? hhead
  · obtain ⟨rfl, rfl⟩ := Prod.mk.inj h
    rfl

theorem append_of_splitPoint {int frac : List UInt8} (h : splitPoint bytes = some (int, frac)) :
    bytes = int ++ (if frac = [] then [] else point :: frac) := by
  rcases exists_point bytes with hnone | ⟨int', frac', rfl, hint⟩
  · rw [splitPoint_int hnone] at h
    obtain ⟨rfl, rfl⟩ := Prod.mk.inj (Option.some.inj h)
    simp
  · by_cases hne : frac' = []
    · rw [hne, splitPoint_last hint] at h
      cases h
    · rw [splitPoint_frac hint hne] at h
      obtain ⟨rfl, rfl⟩ := Prod.mk.inj (Option.some.inj h)
      rw [if_neg hne]

theorem asBytes_fraction (frac : List Char) :
    asBytes (fraction frac) = if frac = [] then [] else point :: asBytes frac := by
  rw [fraction]
  split
  · rfl
  · exact asBytes_cons_of_ascii (by decide) frac

theorem asBytes_sign (negative : Bool) :
    asBytes (if negative then ['-'] else []) = if negative then [dash] else [] := by
  cases negative <;> rfl

/-- Only decimal texts are decoded. -/
theorem decimalText_of_parseNumericI128 {v : Int} (h : parseNumericI128 s = some v) :
    ∃ negative int frac, DecimalText s negative int frac ∧ decimalMagnitude int frac < 2 ^ 127 ∧
      v = signed negative (decimalMagnitude int frac) := by
  simp only [parseNumericI128] at h
  obtain ⟨negative, bytes, hminus⟩ : ∃ negative bytes, splitMinus (asBytes s) = (negative, bytes) :=
    ⟨_, _, rfl⟩
  rw [hminus] at h
  simp only [Option.bind_eq_bind, Option.bind_eq_some_iff] at h
  obtain ⟨⟨int, frac⟩, hpoint, h⟩ := h
  simp only [Option.ite_none_left_eq_some, Option.bind_eq_some_iff, Option.ite_none_right_eq_some,
    Option.some.injEq, not_or] at h
  obtain ⟨⟨hne, hlen⟩, intVal, hint, fracVal, hfrac, ⟨-, hbound⟩, rfl⟩ := h
  obtain ⟨int, hint', rfl, -, rfl⟩ := exists_digits_of_readDigits (readDigits_of_readI128 hint)
  obtain ⟨frac, hfrac', rfl, hcount, rfl⟩ := exists_digits_of_readDigits hfrac
  rw [← hcount] at hlen hbound ⊢
  refine ⟨negative, int, frac, ⟨?_, hint', hfrac', Nat.le_of_not_lt hlen, ?_⟩, hbound, rfl⟩
  · rintro rfl
    exact hne rfl
  · have hnil : asBytes frac = [] ↔ frac = [] := by
      rw [← List.length_eq_zero_iff, ← hcount, List.length_eq_zero_iff]
    refine asBytes_injective ?_
    rw [append_of_splitMinus hminus, append_of_splitPoint hpoint, asBytes_append, asBytes_append,
      asBytes_sign, asBytes_fraction]
    simp only [hnil]

theorem parseNumericI128_of_text {int frac : List Char} {negative : Bool}
    (h : DecimalText s negative int frac) (hbound : decimalMagnitude int frac < 2 ^ 127) :
    parseNumericI128 s = some (signed negative (decimalMagnitude int frac)) := by
  have hbytes := fun b hb => ne_of_mem_digits h.int_digits (b := b) hb
  have hne : asBytes int ≠ [] := by
    rw [← List.length_pos_iff, length_asBytes h.int_digits, List.length_pos_iff]
    exact h.nonempty
  have hminus := splitMinus_digits negative (fun b hb => (hbytes b hb).1) (asBytes (fraction frac)) hne
  have hs : asBytes s =
      (if negative then [dash] else []) ++ (asBytes int ++ asBytes (fraction frac)) := by
    rw [h.text, asBytes_append, asBytes_append, asBytes_sign]
  rw [← hs] at hminus
  have hpoint : splitPoint (asBytes int ++ asBytes (fraction frac)) =
      some (asBytes int, asBytes frac) := by
    rw [asBytes_fraction]
    split
    · rename_i hnil
      rw [hnil, List.append_nil, splitPoint_int fun b hb => (hbytes b hb).2]
      rfl
    · rename_i hfrac
      refine splitPoint_frac (fun b hb => (hbytes b hb).2) ?_
      rw [← List.length_pos_iff, length_asBytes h.frac_digits, List.length_pos_iff]
      exact hfrac
  have hlen := length_asBytes h.frac_digits
  have hparse := parseNumericI128_of_parts hminus hpoint hne (by rw [hlen]; exact h.frac_length)
    (readDigits_asBytes h.int_digits 0) (readDigits_asBytes h.frac_digits 0)
    (by rw [hlen]; exact hbound)
  rw [hlen] at hparse
  exact hparse

theorem natAbs_signed (negative : Bool) (n : Nat) : (signed negative n).natAbs = n := by
  cases negative <;> simp [signed]

theorem parseNumericI128_iff {v : Int} : parseNumericI128 s = some v ↔
    ∃ negative int frac, DecimalText s negative int frac ∧
      (v : ℚ) = decimalValue negative int frac * 10 ^ 9 ∧ v.natAbs ≤ 2 ^ 127 - 1 := by
  constructor
  · intro h
    obtain ⟨negative, int, frac, htext, hbound, rfl⟩ := decimalText_of_parseNumericI128 h
    refine ⟨negative, int, frac, htext, signed_decimalMagnitude negative int htext.frac_length, ?_⟩
    rw [natAbs_signed]
    exact Nat.le_pred_of_lt hbound
  · rintro ⟨negative, int, frac, htext, hvalue, hbound⟩
    rw [← signed_decimalMagnitude negative int htext.frac_length, Int.cast_inj] at hvalue
    subst hvalue
    rw [natAbs_signed] at hbound
    exact parseNumericI128_of_text htext (by omega)

/-- The decoder of NUMERIC never panics and accepts exactly the decimal texts whose number, times
`10 ^ 9`, is in the range of a 128-bit integer; it gives that integer. It undoes the binding of every
decimal of a scale up to 9 in that range. -/
theorem numeric_decoding_exact :
    (∀ s, Checked.parseNumericI128 s = Lib.Checked.returns (parseNumericI128 s)) ∧
    (∀ s v, parseNumericI128 s = some v ↔ ∃ negative int frac, DecimalText s negative int frac ∧
      (v : ℚ) = decimalValue negative int frac * 10 ^ 9 ∧ v.natAbs ≤ 2 ^ 127 - 1) ∧
    (∀ u scale, fitsSigned 128 u = true → scale ≤ 9 → u.natAbs * 10 ^ (9 - scale) ≤ 2 ^ 127 - 1 →
      parseNumericI128 (numericString u scale) = some (u * 10 ^ (9 - scale))) := by
  refine ⟨Checked.parseNumericI128_checked, fun s v => parseNumericI128_iff, ?_⟩
  intro u scale _ hscale hbound
  exact parseNumericI128_numericString hscale (by omega)

example : parseNumericI128 "-0.25".toList = some (-250000000) ∧
    parseNumericI128 ".25".toList = none := by decide

end Convert
end SpannerAdbc
