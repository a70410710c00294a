import Mathlib.Data.List.TakeWhile
import SpannerAdbc.Binding.Format
import SpannerAdbc.Convert.Scalar

/-!
# SpannerAdbc.Convert.Wire

The texts that binding writes are the texts that reading parses. Each lemma is a parser of
`Convert.Scalar` applied to a formatter of `Binding.Format`: integers, dates, timestamps of every unit
and decimals. The parsers look at bytes at fixed offsets, so the texts are first laid out as bytes.
-/

namespace SpannerAdbc
namespace Convert

open Arrow Lib Binding

/-! ## Integers -/

variable {int frac bytes b : List UInt8} {n : Nat} {s : List Char}

theorem splitSign_digits (h : ∀ c ∈ s, c.isDigit = true) :
    splitSign s = (false, s) := by
  unfold splitSign
  split
  · exact absurd (h '-' List.mem_cons_self) (by decide)
  · exact absurd (h '+' List.mem_cons_self) (by decide)
  · rfl

theorem splitSign_intText (i : Int) :
    splitSign (intText i) = (decide (i < 0), Nat.toDigits 10 i.natAbs) := by
  rw [intText]
  split
  · rename_i h
    simp [splitSign, h]
  · rename_i h
    rw [splitSign_digits fun _ => isDigit_of_mem_toDigits, decide_eq_false h]

theorem signed_natAbs (i : Int) : signed (decide (i < 0)) i.natAbs = i := by
  rw [signed]
  split
  · rename_i h
    have := of_decide_eq_true h
    omega
  · rename_i h
    have : ¬ i < 0 := by simpa using h
    omega

theorem signed_mul (negative : Bool) (m k : Nat) :
    signed negative (m * k) = signed negative m * k := by
  cases negative <;> simp [signed]

theorem parseI64_intText {i : Int} (h : fitsSigned 64 i = true) : parseI64 (intText i) = some i := by
  simp only [parseI64, splitSign_intText, if_neg Nat.toDigits_ne_nil, readDigits_toDigits]
  simp [signed_natAbs, h]

/-! ## Digits at offsets -/

/-- Two digits as bytes. -/
theorem bytes_padded_two (h : n < 100) :
    ∃ a b d e, asBytes (padded 2 n) = [a, b] ∧ digit? a = some d ∧ digit? b = some e ∧
      d * 10 + e = n := by
  have hlen : (asBytes (padded 2 n)).length = 2 := by
    rw [length_asBytes fun _ => isDigit_of_mem_padded, length_padded (by decide) h]
  obtain ⟨a, b, e⟩ := List.length_eq_two.mp hlen
  have hread := readDigits_padded 2 n
  rw [e] at hread
  simp only [readDigits, Option.bind_eq_some_iff, Option.some.injEq] at hread
  obtain ⟨d, hd, e', he', hn⟩ := hread
  exact ⟨a, b, d, e', e, hd, he', by omega⟩

/-- Four digits as bytes. -/
theorem bytes_padded_four (h : n < 10000) :
    ∃ a b c d i j k l, asBytes (padded 4 n) = [a, b, c, d] ∧ digit? a = some i ∧ digit? b = some j ∧
      digit? c = some k ∧ digit? d = some l ∧ i * 1000 + j * 100 + k * 10 + l = n := by
  have hlen : (asBytes (padded 4 n)).length = 4 := by
    rw [length_asBytes fun _ => isDigit_of_mem_padded, length_padded (by decide) h]
  match hb : asBytes (padded 4 n), hlen with
  | [a, b, c, d], _ =>
    have hread := readDigits_padded 4 n
    rw [hb] at hread
    simp only [readDigits, Option.bind_eq_some_iff, Option.some.injEq] at hread
    obtain ⟨i, hi, j, hj, k, hk, l, hl, hn⟩ := hread
    exact ⟨a, b, c, d, i, j, k, l, rfl, hi, hj, hk, hl, by omega⟩

/-! ## Dates -/

/-- The days of the years 1 to 9999. -/
def isSpannerDay (days : Int) : Prop := -719162 ≤ days ∧ days ≤ 2932896

theorem year_bounds {n : Int} (h : 1 ≤ n ∧ n ≤ 3652059) :
    1 ≤ (Date.ofDayNumber n).year ∧ (Date.ofDayNumber n).year ≤ 9999 := by
  constructor
  · have hfirst : (Date.ofDayNumber 1).year = 1 := by decide
    rw [← hfirst]
    refine Date.year_le_of_dayNumber_le ?_
    rw [Date.dayNumber_ofDayNumber, Date.dayNumber_ofDayNumber]
    exact h.1
  · have hlast : (Date.ofDayNumber 3652059).year = 9999 := by decide
    rw [← hlast]
    refine Date.year_le_of_dayNumber_le ?_
    rw [Date.dayNumber_ofDayNumber, Date.dayNumber_ofDayNumber]
    exact h.2

/-- A date of four digits for the year, as bytes. -/
structure DateBytes (date : Date) (b : List UInt8) : Prop where
  layout : ∃ y₀ y₁ y₂ y₃ m₀ m₁ d₀ d₁ i₀ i₁ i₂ i₃ j₀ j₁ k₀ k₁,
    b = [y₀, y₁, y₂, y₃, dash, m₀, m₁, dash, d₀, d₁] ∧
    digit? y₀ = some i₀ ∧ digit? y₁ = some i₁ ∧ digit? y₂ = some i₂ ∧ digit? y₃ = some i₃ ∧
    digit? m₀ = some j₀ ∧ digit? m₁ = some j₁ ∧ digit? d₀ = some k₀ ∧ digit? d₁ = some k₁ ∧
    (i₀ * 1000 + i₁ * 100 + i₂ * 10 + i₃ : Nat) = date.year ∧ j₀ * 10 + j₁ = date.month ∧
    k₀ * 10 + k₁ = date.day

theorem day_le (date : Date) : date.day ≤ 31 := by
  obtain ⟨h1, h2, -, h4⟩ := date.valid
  refine h4.trans ?_
  unfold daysInMonth
  split <;> first | omega | (split <;> omega)

theorem dateBytes_dateText {date : Date} (h : 0 ≤ date.year ∧ date.year ≤ 9999) :
    DateBytes date (asBytes (dateText date)) := by
  have hday := day_le date
  have hmonth := date.valid.2.1
  obtain ⟨y₀, y₁, y₂, y₃, i₀, i₁, i₂, i₃, hy, e₀, e₁, e₂, e₃, hyear⟩ :=
    bytes_padded_four (n := date.year.toNat) (by omega)
  obtain ⟨m₀, m₁, j₀, j₁, hm, f₀, f₁, hmon⟩ := bytes_padded_two (n := date.month) (by omega)
  obtain ⟨d₀, d₁, k₀, k₁, hd, g₀, g₁, hdd⟩ := bytes_padded_two (n := date.day) (by omega)
  refine ⟨y₀, y₁, y₂, y₃, m₀, m₁, d₀, d₁, i₀, i₁, i₂, i₃, j₀, j₁, k₀, k₁, ?_, e₀, e₁, e₂, e₃, f₀, f₁,
    g₀, g₁, by omega, hmon, hdd⟩
  rw [dateText, yearText, if_pos h, asBytes_append, List.cons_append,
    asBytes_cons_of_ascii (by decide), asBytes_append, asBytes_cons_of_ascii (by decide), hy, hm, hd]
  rfl

theorem parseDateDays_dateText {date : Date} (h : 0 ≤ date.year ∧ date.year ≤ 9999) :
    parseDateDays (dateText date) = some (date.dayNumber - epochDay) := by
  obtain ⟨y₀, y₁, y₂, y₃, m₀, m₁, d₀, d₁, i₀, i₁, i₂, i₃, j₀, j₁, k₀, k₁, hb, e₀, e₁, e₂, e₃, f₀, f₁,
    g₀, g₁, hyear, hmonth, hday⟩ := (dateBytes_dateText h).layout
  have hdate : Date.ofYmd ((i₀ * 1000 + i₁ * 100 + i₂ * 10 + i₃ : Nat) : Int) (j₀ * 10 + j₁)
      (k₀ * 10 + k₁) = some date := by rw [hyear, hmonth, hday, Date.ofYmd_eq]
  simp only [parseDateDays, hb]
  rw [if_neg (by simp [byteAt])]
  simp only [byteAt, List.getD_cons_zero, List.getD_cons_succ, e₀, e₁, e₂, e₃, f₀, f₁, g₀, g₁,
    Option.bind_eq_bind, Option.bind_some, hdate, Option.pure_def]

theorem parseDateDays_dateString (name : List Char) {days : Int} (h : isSpannerDay days) :
    ∃ text, dateString name days = .ok text ∧ parseDateDays text = some days := by
  have hepoch : epochDay = 719163 := rfl
  have hyear := year_bounds (n := epochDay + days) ⟨by have := h.1; omega, by have := h.2; omega⟩
  refine ⟨dateText (Date.ofDayNumber (epochDay + days)), ?_, ?_⟩
  · rw [dateString]
    refine if_pos ?_
    simp only [isNaive, decide_eq_true_eq]
    omega
  · rw [parseDateDays_dateText ⟨by omega, hyear.2⟩, Date.dayNumber_ofDayNumber]
    exact congrArg some (by omega)

/-! ## Timestamps -/

/-- A time of day and what stands behind it. -/
theorem bytes_toRfc3339 (ts : DateTime) (digits : Nat) :
    ∃ h₀ h₁ m₀ m₁ s₀ s₁ i₀ i₁ j₀ j₁ k₀ k₁,
      asBytes (toRfc3339 ts digits) = asBytes (dateText ts.date) ++
        (84 :: h₀ :: h₁ :: 58 :: m₀ :: m₁ :: 58 :: s₀ :: s₁ ::
          (asBytes (if digits = 0 then [] else '.' :: padded digits (ts.nano / 10 ^ (9 - digits))) ++
            [90])) ∧
      digit? h₀ = some i₀ ∧ digit? h₁ = some i₁ ∧ digit? m₀ = some j₀ ∧ digit? m₁ = some j₁ ∧
      digit? s₀ = some k₀ ∧ digit? s₁ = some k₁ ∧ i₀ * 10 + i₁ = ts.second / 3600 ∧
      j₀ * 10 + j₁ = ts.second / 60 % 60 ∧ k₀ * 10 + k₁ = ts.second % 60 := by
  have hlt := ts.second_lt
  obtain ⟨h₀, h₁, i₀, i₁, hh, e₀, e₁, hhour⟩ := bytes_padded_two (n := ts.second / 3600) (by omega)
  obtain ⟨m₀, m₁, j₀, j₁, hm, f₀, f₁, hmin⟩ := bytes_padded_two (n := ts.second / 60 % 60) (by omega)
  obtain ⟨s₀, s₁, k₀, k₁, hs, g₀, g₁, hsec⟩ := bytes_padded_two (n := ts.second % 60) (by omega)
  refine ⟨h₀, h₁, m₀, m₁, s₀, s₁, i₀, i₁, j₀, j₁, k₀, k₁, ?_, e₀, e₁, f₀, f₁, g₀, g₁, hhour, hmin,
    hsec⟩
  have hz : asBytes ['Z'] = [90] := rfl
  rw [toRfc3339]
  simp only [List.cons_append, asBytes_append, asBytes_cons_of_ascii (c := 'T') (by decide),
    asBytes_cons_of_ascii (c := ':') (by decide), hh, hm, hs, hz]
  rfl

/-- The fraction of a second is read behind the first nineteen bytes. -/
theorem scanFraction_none (h : b.length = 19) :
    scanFraction (b ++ [90]) = some 0 := by
  have hat : byteAt (b ++ [90]) 19 = 90 := by
    rw [byteAt, List.getD_eq_getElem?_getD, List.getElem?_append_right (by omega), h]
    rfl
  rw [scanFraction, if_pos ⟨hat, by simp [h]⟩]

theorem scanFraction_some (h : b.length = 19) (hne : frac ≠ []) (hlen : frac.length ≤ 9)
    (hread : readDigits 0 frac = some n) :
    scanFraction (b ++ (point :: (frac ++ [90]))) = some (n * 10 ^ (9 - frac.length)) := by
  have hat : byteAt (b ++ (point :: (frac ++ [90]))) 19 = point := by
    rw [byteAt, List.getD_eq_getElem?_getD, List.getElem?_append_right (by omega), h]
    rfl
  have hpos : 0 < frac.length := List.length_pos_iff.mpr hne
  have hdrop : ((b ++ (point :: (frac ++ [90]))).drop 20).dropLast = frac := by
    rw [show 20 = b.length + 1 by omega, List.drop_append]
    simp
  have hlast : byteAt (b ++ (point :: (frac ++ [90]))) ((b ++ (point :: (frac ++ [90]))).length - 1) =
      90 := by
    rw [byteAt, List.getD_eq_getElem?_getD, ← List.getLast?_eq_getElem?,
      show b ++ (point :: (frac ++ [90])) = (b ++ point :: frac) ++ [90] by simp,
      List.getLast?_concat]
    rfl
  rw [scanFraction, if_neg, if_pos ⟨hat, by simp; omega⟩, hdrop, if_neg, hread]
  · rfl
  · simp only [hlast, ne_eq, not_true_eq_false, false_or, hne]
    omega
  · rw [hat]
    simp [point]

/-- The digits of a unit hold the whole fraction of its instants. -/
theorem scanFraction_toRfc3339 {ts : DateTime} {digits : Nat} (hb : b.length = 19)
    (hdigits : digits ≤ 9) (hnano : 10 ^ (9 - digits) ∣ ts.nano) :
    scanFraction (b ++ (asBytes (if digits = 0 then []
      else '.' :: padded digits (ts.nano / 10 ^ (9 - digits))) ++ [90])) = some ts.nano := by
  have hlt := ts.nano_lt
  split
  · rename_i hzero
    subst hzero
    obtain ⟨k, hk⟩ := hnano
    rw [asBytes_nil, List.nil_append, scanFraction_none hb]
    exact congrArg some (by omega)
  · rename_i hpos
    have hsmall : ts.nano / 10 ^ (9 - digits) < 10 ^ digits := by
      rw [Nat.div_lt_iff_lt_mul (Nat.pow_pos (by decide)), ← Nat.pow_add,
        show digits + (9 - digits) = 9 by omega]
      exact hlt
    have hlen : (asBytes (padded digits (ts.nano / 10 ^ (9 - digits)))).length = digits := by
      rw [length_asBytes fun _ => isDigit_of_mem_padded, length_padded (by omega) hsmall]
    have hpoint : UInt8.ofNat '.'.toNat = point := rfl
    rw [asBytes_cons_of_ascii (by decide), hpoint, List.cons_append,
      scanFraction_some hb (by rw [← List.length_pos_iff, hlen]; omega) (by omega)
        (readDigits_padded digits _), hlen, Nat.div_mul_cancel hnano]

theorem andHmsNano_eq (ts : DateTime) :
    andHmsNano ts.date (ts.second / 3600) (ts.second / 60 % 60) (ts.second % 60) ts.nano =
      some ts := by
  have hlt := ts.second_lt
  rw [andHmsNano, dif_pos ⟨by omega, by omega, by omega, ts.nano_lt⟩]
  exact congrArg some (DateTime.ext rfl (by simp only []; omega) rfl)

theorem scanTimestampUtc_toRfc3339 {ts : DateTime} {digits : Nat}
    (hyear : 0 ≤ ts.date.year ∧ ts.date.year ≤ 9999) (hdigits : digits ≤ 9)
    (hnano : 10 ^ (9 - digits) ∣ ts.nano) :
    scanTimestampUtc (toRfc3339 ts digits) = some ts := by
  obtain ⟨y₀, y₁, y₂, y₃, m₀, m₁, d₀, d₁, i₀, i₁, i₂, i₃, j₀, j₁, k₀, k₁, hdate, e₀, e₁, e₂, e₃, f₀,
    f₁, g₀, g₁, hy, hm, hd⟩ := (dateBytes_dateText hyear).layout
  obtain ⟨h₀, h₁, n₀, n₁, s₀, s₁, p₀, p₁, q₀, q₁, r₀, r₁, htime, a₀, a₁, b₀, b₁, c₀, c₁, hhour, hmin,
    hsec⟩ := bytes_toRfc3339 ts digits
  rw [hdate] at htime
  -- the nineteen bytes of date and time, then the fraction and the zone
  have hfrac := scanFraction_toRfc3339 (b := [y₀, y₁, y₂, y₃, dash, m₀, m₁, dash, d₀, d₁, 84, h₀, h₁,
    58, n₀, n₁, 58, s₀, s₁]) rfl hdigits hnano
  have hofYmd : Date.ofYmd (((i₀ * 10 + i₁) * 100 + (i₂ * 10 + i₃) : Nat) : Int) (j₀ * 10 + j₁)
      (k₀ * 10 + k₁) = some ts.date := by
    rw [show (((i₀ * 10 + i₁) * 100 + (i₂ * 10 + i₃) : Nat) : Int) = ts.date.year by omega, hm, hd,
      Date.ofYmd_eq]
  simp only [List.cons_append, List.nil_append] at htime hfrac
  generalize asBytes (if digits = 0 then [] else '.' :: padded digits (ts.nano / 10 ^ (9 - digits))) ++
    [90] = rest at htime hfrac
  have hrest : 1 ≤ rest.length := by
    cases rest with
    | nil => simp [scanFraction, byteAt, point] at hfrac
    | cons => simp
  simp only [scanTimestampUtc, htime]
  rw [if_neg (by simp [byteAt]; omega)]
  simp only [twoDigits, byteAt, List.getD_cons_zero, List.getD_cons_succ, e₀, e₁, e₂, e₃, f₀, f₁, g₀,
    g₁, a₀, a₁, b₀, b₁, c₀, c₁, Option.bind_eq_bind, Option.bind_some, Option.pure_def, hfrac, hofYmd,
    hhour, hmin, hsec, andHmsNano_eq]

/-- The nanoseconds of one tick. -/
def tickNanos (unit : TimeUnit) : Nat := 1000000000 / perSecond unit

theorem nanos_instant (unit : TimeUnit) (value : Int) :
    (instant unit value).seconds * 1000000000 + (instant unit value).nano =
      value * tickNanos unit := by
  rw [instant, DateTime.seconds_ofEpoch]
  cases unit <;> simp only [DateTime.ofEpoch, perSecond, tickNanos] <;> omega

theorem dvd_nano_instant (unit : TimeUnit) (value : Int) :
    10 ^ (9 - fractionDigits unit) ∣ (instant unit value).nano := by
  cases unit <;> exact Dvd.intro_left _ rfl

theorem parseTimestampNanos_timestampString (name : List Char) {unit : TimeUnit} {value : Int}
    (h : fitsSigned 64 (value * tickNanos unit) = true) :
    ∃ text, timestampString name unit value = .ok text ∧
      parseTimestampNanos text = some (value * tickNanos unit) := by
  have hnanos := nanos_instant unit value
  have hlt := (instant unit value).nano_lt
  have hsecond := (instant unit value).second_lt
  have hyear : 1 ≤ (instant unit value).date.year ∧ (instant unit value).date.year ≤ 9999 := by
    rw [fitsSigned_iff] at h
    rw [← Date.ofDayNumber_dayNumber (instant unit value).date]
    refine year_bounds ?_
    rw [DateTime.seconds, epochDay] at hnanos
    omega
  refine ⟨toRfc3339 (instant unit value) (fractionDigits unit), ?_, ?_⟩
  · rw [timestampString]
    refine if_pos (.inr ?_)
    simp only [isNaive, decide_eq_true_eq]
    omega
  · rw [parseTimestampNanos, scanTimestampUtc_toRfc3339 ⟨by omega, hyear.2⟩
      (by cases unit <;> decide) (dvd_nano_instant unit value)]
    simp only [Option.bind_eq_bind, Option.bind_some, hnanos, h, if_true]

/-! ## Decimals -/

theorem le_of_readDigits {acc : Nat} {bs : List UInt8} (h : readDigits acc bs = some n) :
    acc ≤ n := by
  induction bs generalizing acc with
  | nil => exact Nat.le_of_eq (Option.some.inj h)
  | cons b bs ih =>
    obtain ⟨d, -, h⟩ := Option.bind_eq_some_iff.mp h
    have := ih h
    omega

/-- Digits are read without overflow if their number does not overflow. -/
theorem readI128_eq {acc : Nat} {bs : List UInt8} (h : readDigits acc bs = some n)
    (hn : n < 2 ^ 127) : readI128 acc bs = some n := by
  induction bs generalizing acc with
  | nil => exact h
  | cons b bs ih =>
    obtain ⟨d, hd, h⟩ := Option.bind_eq_some_iff.mp h
    have := le_of_readDigits h
    rw [readI128, hd]
    simp only [Option.bind_eq_bind, Option.bind_some]
    rw [if_pos ⟨by omega, by omega⟩]
    exact ih h

theorem ne_of_mem_digits (h : ∀ c ∈ s, c.isDigit = true) {b : UInt8} (hb : b ∈ asBytes s) :
    b ≠ dash ∧ b ≠ point := by
  induction s with
  | nil => cases hb
  | cons c s ih =>
    have hc := h c List.mem_cons_self
    rw [asBytes_cons_of_ascii (by have := toNat_lt_of_isDigit hc; omega)] at hb
    rcases List.mem_cons.mp hb with rfl | hb
    · have hd := digit?_of_isDigit hc
      constructor
      · intro e
        rw [e] at hd
        exact absurd hd (by simp [digit?, dash])
      · intro e
        rw [e] at hd
        exact absurd hd (by simp [digit?, point])
    · exact ih (fun d hd => h d (List.mem_cons_of_mem c hd)) hb

theorem splitPoint_int (h : ∀ b ∈ int, b ≠ point) :
    splitPoint int = some (int, []) := by
  have hall : ∀ b ∈ int, decide (b ≠ point) = true := fun b hb => decide_eq_true (h b hb)
  rw [splitPoint, List.dropWhile_eq_nil_iff.mpr hall]

theorem splitPoint_frac (h : ∀ b ∈ int, b ≠ point) (hne : frac ≠ []) :
    splitPoint (int ++ point :: frac) = some (int, frac) := by
  have hall : ∀ b ∈ int, decide (b ≠ point) = true := fun b hb => decide_eq_true (h b hb)
  obtain ⟨x, xs, rfl⟩ := List.exists_cons_of_ne_nil hne
  rw [splitPoint, List.dropWhile_append_of_pos hall, List.takeWhile_append_of_pos hall]
  simp

theorem splitPoint_last (h : ∀ b ∈ int, b ≠ point) :
    splitPoint (int ++ [point]) = none := by
  have hall : ∀ b ∈ int, decide (b ≠ point) = true := fun b hb => decide_eq_true (h b hb)
  rw [splitPoint, List.dropWhile_append_of_pos hall]
  simp

/-- The first point, if there is one. -/
theorem exists_point (bytes : List UInt8) : (∀ b ∈ bytes, b ≠ point) ∨
    ∃ int frac, bytes = int ++ point :: frac ∧ ∀ b ∈ int, b ≠ point := by
  by_cases hmem : point ∈ bytes
  · obtain ⟨int, frac, e, hint⟩ := List.eq_append_cons_of_mem hmem
    exact .inr ⟨int, frac, e, fun b hb he => hint (he ▸ hb)⟩
  · exact .inl fun b hb he => hmem (he ▸ hb)

/-- A decimal number: a sign, the integer part, and a fraction unless the scale is 0. -/
theorem bytes_numericString (unscaled : Int) (scale : Nat) :
    asBytes (numericString unscaled scale) =
      (if unscaled < 0 then [dash] else []) ++
        (asBytes (Nat.toDigits 10 (unscaled.natAbs / 10 ^ scale)) ++
          (if scale = 0 then []
            else point :: asBytes (padded scale (unscaled.natAbs % 10 ^ scale)))) := by
  have hdash : UInt8.ofNat '-'.toNat = dash := rfl
  have hpoint : UInt8.ofNat '.'.toNat = point := rfl
  rw [numericString]
  split
  · rename_i hzero
    subst hzero
    rw [intText]
    split
    · rw [asBytes_cons_of_ascii (by decide), hdash]
      simp
    · simp
  · simp only [asBytes_append, asBytes_cons_of_ascii (c := '.') (by decide), hpoint]
    split
    · rw [asBytes_cons_of_ascii (by decide), hdash]
      rfl
    · rfl

theorem splitMinus_digits (negative : Bool) (h : ∀ b ∈ bytes, b ≠ dash) (rest : List UInt8)
    (hne : bytes ≠ []) :
    splitMinus ((if negative then [dash] else []) ++ (bytes ++ rest)) = (negative, bytes ++ rest) := by
  obtain ⟨x, xs, rfl⟩ := List.exists_cons_of_ne_nil hne
  cases negative with
  | true => rfl
  | false =>
    have hx := h x List.mem_cons_self
    simp [splitMinus, hx]

/-- The fraction has as many digits as the scale says, none for scale 0. -/
theorem splitPoint_numericString (h : ∀ b ∈ int, b ≠ point) (scale n : Nat) :
    ∃ frac, splitPoint (int ++ (if scale = 0 then []
        else point :: asBytes (padded scale (n % 10 ^ scale)))) = some (int, frac) ∧
      frac.length = scale ∧ readDigits 0 frac = some (n % 10 ^ scale) := by
  split
  · rename_i hzero
    subst hzero
    refine ⟨[], ?_, rfl, ?_⟩
    · rw [List.append_nil, splitPoint_int h]
    · rw [Nat.pow_zero, Nat.mod_one]
      rfl
  · rename_i hpos
    have hlen : (asBytes (padded scale (n % 10 ^ scale))).length = scale := by
      rw [length_asBytes fun _ => isDigit_of_mem_padded,
        length_padded (by omega) (Nat.mod_lt _ (Nat.pow_pos (by decide)))]
    exact ⟨_, splitPoint_frac h (by rw [← List.length_pos_iff, hlen]; omega), hlen,
      readDigits_padded scale _⟩

/-- The integer part and the fraction of a decimal make up its value at scale 9. -/
theorem parts_eq {scale : Nat} (hscale : scale ≤ 9) (n : Nat) :
    n / 10 ^ scale * 1000000000 + n % 10 ^ scale * 10 ^ (9 - scale) = n * 10 ^ (9 - scale) := by
  have hpow : 1000000000 = 10 ^ scale * 10 ^ (9 - scale) := by
    rw [← Nat.pow_add, show scale + (9 - scale) = 9 by omega]
  rw [hpow, ← Nat.mul_assoc, ← Nat.add_mul, Nat.div_add_mod']

theorem signed_scaled (unscaled : Int) (k : Nat) :
    signed (decide (unscaled < 0)) (unscaled.natAbs * 10 ^ k) = unscaled * 10 ^ k := by
  rw [signed_mul, signed_natAbs]
  simp

theorem parseNumericI128_of_parts {negative : Bool} {m : Nat}
    (hminus : splitMinus (asBytes s) = (negative, bytes))
    (hpoint : splitPoint bytes = some (int, frac)) (hne : int ≠ []) (hlen : frac.length ≤ 9)
    (hint : readDigits 0 int = some m) (hfrac : readDigits 0 frac = some n)
    (hbound : m * 1000000000 + n * 10 ^ (9 - frac.length) < 2 ^ 127) :
    parseNumericI128 s = some (signed negative (m * 1000000000 + n * 10 ^ (9 - frac.length))) := by
  have hfirst := Nat.lt_of_le_of_lt (Nat.le_add_right _ _) hbound
  have hm : m < 2 ^ 127 := Nat.lt_of_le_of_lt (Nat.le_mul_of_pos_right m (by decide)) hfirst
  simp only [parseNumericI128, hminus, hpoint, Option.bind_eq_bind, Option.bind_some]
  rw [if_neg (by simp [hne, numericScale, hlen]), readI128_eq hint hm, Option.bind_some, hfrac,
    Option.bind_some]
  exact if_pos ⟨hfirst, hbound⟩

theorem parseNumericI128_numericString {unscaled : Int} {scale : Nat} (hscale : scale ≤ 9)
    (h : unscaled.natAbs * 10 ^ (9 - scale) < 2 ^ 127) :
    parseNumericI128 (numericString unscaled scale) = some (unscaled * 10 ^ (9 - scale)) := by
  have hdigits : ∀ c ∈ Nat.toDigits 10 (unscaled.natAbs / 10 ^ scale), c.isDigit = true :=
    fun _ => isDigit_of_mem_toDigits
  have hbytes := fun b hb => ne_of_mem_digits hdigits (b := b) hb
  have hne : asBytes (Nat.toDigits 10 (unscaled.natAbs / 10 ^ scale)) ≠ [] := by
    rw [← List.length_pos_iff, length_asBytes hdigits, List.length_pos_iff]
    exact Nat.toDigits_ne_nil
  obtain ⟨frac, hpoint, rfl, hread⟩ :=
    splitPoint_numericString (fun b hb => (hbytes b hb).2) scale unscaled.natAbs
  have hminus := splitMinus_digits (decide (unscaled < 0)) (fun b hb => (hbytes b hb).1)
    (if frac.length = 0 then []
      else point :: asBytes (padded frac.length (unscaled.natAbs % 10 ^ frac.length))) hne
  simp only [decide_eq_true_eq, ← bytes_numericString] at hminus
  have hparts := parts_eq hscale unscaled.natAbs
  have hbound : unscaled.natAbs / 10 ^ frac.length * 1000000000 +
      unscaled.natAbs % 10 ^ frac.length * 10 ^ (9 - frac.length) < 2 ^ 127 := by
    rw [hparts]
    exact h
  rw [parseNumericI128_of_parts hminus hpoint hne hscale (readDigits_toDigits _) hread hbound, hparts,
    signed_scaled]

end Convert
end SpannerAdbc
