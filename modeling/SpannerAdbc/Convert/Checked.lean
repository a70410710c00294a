import SpannerAdbc.Convert.Wire
import SpannerAdbc.Lib.Panic

/-!
# SpannerAdbc.Convert.Checked

The decoders of DATE, TIMESTAMP and NUMERIC once more, with what would make them panic: every index
and slice is checked against the bytes, and every addition and multiplication that the source does not
check itself against the width of its type. None of them panics, and each gives what the decoder of
`Convert.Scalar` gives (`parseDateDays_checked`, `scanTimestampUtc_checked`,
`parseNumericI128_checked`).
-/

namespace SpannerAdbc
namespace Convert
namespace Checked

open Arrow Lib Lib.Checked

/-- `wrapping_sub(b'0')` and the test that follows it. -/
def digit (b : UInt8) : Checked Nat := if b - 48 < 10 then return (b - 48).toNat else failure

def digitAt (b : List UInt8) (i : Nat) : Checked Nat := do digit (← index b i)

def u32 : Nat → Checked Nat := below (2 ^ 32)

def i128 : Nat → Checked Nat := below (2 ^ 127)

def parseDateDays (s : List Char) : Checked Int := do
  let b := asBytes s
  if b.length ≠ 10 then failure
  else if (← index b 4) ≠ dash then failure
  else if (← index b 7) ≠ dash then failure
  else
    let year ← u32 ((← digitAt b 0) * 1000 + (← digitAt b 1) * 100 + (← digitAt b 2) * 10 +
      (← digitAt b 3))
    let month ← u32 ((← digitAt b 5) * 10 + (← digitAt b 6))
    let day ← u32 ((← digitAt b 8) * 10 + (← digitAt b 9))
    let date ← returns (Date.ofYmd year month day)
    let days := date.dayNumber - epochDay
    if fitsSigned 32 days then return days else OptionT.mk (.error .overflow)

def twoDigits (b : List UInt8) (off : Nat) : Checked Nat := do
  let hi := (← index b off) - 48
  let lo := (← index b (off + 1)) - 48
  if hi < 10 ∧ lo < 10 then u32 (hi.toNat * 10 + lo.toNat) else failure

/-- The loop over the digits of a fraction, in a number type with the given bound. -/
def fractionLoop (bound acc : Nat) : List UInt8 → Checked Nat
  | [] => return acc
  | b :: bs => do
    let d ← digit b
    fractionLoop bound (← below bound (acc * 10 + d)) bs

def scanFraction (b : List UInt8) : Checked Nat := do
  let first ← index b 19
  if first = 90 ∧ b.length = 20 then return 0
  else if first = point ∧ b.length > 20 then
    let last ← minus b.length 1
    let frac ← slice b 20 last
    if (← index b last) ≠ 90 then failure
    else if frac = [] ∨ frac.length > 9 then failure
    else
      let nanos ← fractionLoop (2 ^ 32) 0 frac
      u32 (nanos * (← u32 (10 ^ (← minus 9 frac.length))))
  else failure

def scanTimestampUtc (s : List Char) : Checked DateTime := do
  let b := asBytes s
  if b.length < 20 then failure
  else if (← index b 4) ≠ dash then failure
  else if (← index b 7) ≠ dash then failure
  else if (← index b 10) ≠ 84 then failure
  else if (← index b 13) ≠ 58 then failure
  else if (← index b 16) ≠ 58 then failure
  else
    let year ← u32 ((← twoDigits b 0) * 100 + (← twoDigits b 2))
    let month ← twoDigits b 5
    let day ← twoDigits b 8
    let hour ← twoDigits b 11
    let min ← twoDigits b 14
    let sec ← twoDigits b 17
    let nanos ← scanFraction b
    let date ← returns (Date.ofYmd year month day)
    returns (andHmsNano date hour min sec nanos)

/-- chrono's `timestamp_nanos_opt` and the checked operations of the microseconds do not panic. -/
def parseTimestampNanos (s : List Char) : Checked Int := do
  let ts ← scanTimestampUtc s
  let nanos := ts.seconds * 1000000000 + ts.nano
  returns (if fitsSigned 64 nanos then some nanos else none)

def parseTimestampMicros (s : List Char) : Checked Int := do
  let ts ← scanTimestampUtc s
  let micros ← returns (if fitsSigned 64 (ts.seconds * 1000000) then some (ts.seconds * 1000000)
    else none)
  let sum := micros + ts.nano / 1000
  returns (if fitsSigned 64 sum then some sum else none)

/-- The loop over the integer part, which checks for overflow itself. -/
def integerLoop (acc : Nat) : List UInt8 → Checked Nat
  | [] => return acc
  | b :: bs => do
    let d ← digit b
    let product ← returns (if acc * 10 < 2 ^ 127 then some (acc * 10) else none)
    let sum ← returns (if product + d < 2 ^ 127 then some (product + d) else none)
    integerLoop sum bs

/-- The parts around the first point. -/
def splitAtPoint (bytes : List UInt8) : Checked (List UInt8 × List UInt8) :=
  match bytes.findIdx? (· = point) with
  | some i =>
    if i + 1 < bytes.length then do
      let int ← slice bytes 0 i
      let frac ← slice bytes (i + 1) bytes.length
      return (int, frac)
    else failure
  | none => do
    let frac ← slice bytes bytes.length bytes.length
    return (bytes, frac)

def parseNumericI128 (s : List Char) : Checked Int := do
  let (negative, bytes) := splitMinus (asBytes s)
  let (int, frac) ← splitAtPoint bytes
  if int = [] ∨ frac.length > numericScale then failure
  else
    let intVal ← integerLoop 0 int
    let fracVal ← fractionLoop (2 ^ 127) 0 frac
    let power ← i128 (10 ^ (← minus numericScale frac.length))
    let fracVal ← i128 (fracVal * power)
    let scaled ← returns (if intVal * 1000000000 < 2 ^ 127 then some (intVal * 1000000000) else none)
    let unscaled ← returns (if scaled + fracVal < 2 ^ 127 then some (scaled + fracVal) else none)
    -- The negation cannot overflow: the magnitude of the result is the magnitude it negates.
    return signed negative unscaled

/-! ## Steps -/

theorem digit_eq (b : UInt8) : digit b = returns (digit? b) := by
  rw [digit, digit?]
  split <;> rfl

variable {b : List UInt8}

theorem digitAt_eq {i : Nat} (h : i < b.length) :
    digitAt b i = returns (digit? (byteAt b i)) := by
  rw [digitAt, index_eq h 0, some_bind, digit_eq]
  rfl

theorem twoDigits_eq {off : Nat} (h : off + 1 < b.length) :
    twoDigits b off = returns (Convert.twoDigits b off) := by
  have hbytes : twoDigits b off = if byteAt b off - 48 < 10 ∧ byteAt b (off + 1) - 48 < 10 then
      u32 ((byteAt b off - 48).toNat * 10 + (byteAt b (off + 1) - 48).toNat) else failure := by
    rw [twoDigits, index_eq (by omega) 0, some_bind, index_eq h 0, some_bind]
    rfl
  rw [hbytes, Convert.twoDigits, digit?, digit?]
  by_cases hhi : byteAt b off - 48 < 10
  · by_cases hlo : byteAt b (off + 1) - 48 < 10
    · have hhi' : (byteAt b off - 48).toNat < 10 := UInt8.lt_iff_toNat_lt.mp hhi
      have hlo' : (byteAt b (off + 1) - 48).toNat < 10 := UInt8.lt_iff_toNat_lt.mp hlo
      rw [if_pos ⟨hhi, hlo⟩, if_pos hhi, if_pos hlo, u32, below_eq (by omega)]
      rfl
    · rw [if_neg fun hc => hlo hc.2, if_pos hhi, if_neg hlo]
      rfl
  · rw [if_neg fun hc => hhi hc.1, if_neg hhi]
    rfl

theorem lt_of_twoDigits {off n : Nat} (h : Convert.twoDigits b off = some n) :
    n < 100 := by
  simp only [Convert.twoDigits, Option.bind_eq_bind, Option.bind_eq_some_iff, Option.pure_def,
    Option.some.injEq] at h
  obtain ⟨hi, hhi, lo, hlo, rfl⟩ := h
  have := digit?_lt hhi
  have := digit?_lt hlo
  omega

/-- As many digits as the bound leaves room for. -/
theorem fractionLoop_eq {bound acc : Nat} {bs : List UInt8} (h : (acc + 1) * 10 ^ bs.length ≤ bound) :
    fractionLoop bound acc bs = returns (readDigits acc bs) := by
  induction bs generalizing acc with
  | nil => rfl
  | cons b bs ih =>
    rw [fractionLoop, readDigits]
    refine bind_returns (digit_eq b) fun d hd => ?_
    have hd10 := digit?_lt hd
    rw [List.length_cons, Nat.pow_succ, Nat.mul_comm (10 ^ bs.length), ← Nat.mul_assoc] at h
    have hroom : (acc * 10 + d + 1) * 10 ^ bs.length ≤ bound :=
      (Nat.mul_le_mul_right _ (by omega)).trans h
    have hlt : acc * 10 + d < bound :=
      Nat.lt_of_lt_of_le (Nat.lt_succ_self _)
        ((Nat.le_mul_of_pos_right _ (Nat.pow_pos (by decide))).trans hroom)
    rw [below_eq hlt, some_bind]
    exact ih hroom

/-- A fraction of at most nine digits, scaled to nine. -/
theorem scaled_lt {bs : List UInt8} {n : Nat} (hlen : bs.length ≤ 9)
    (h : readDigits 0 bs = some n) : n * 10 ^ (9 - bs.length) < 10 ^ 9 := by
  have hn := (readDigits_bounds h).2
  rw [Nat.zero_add, Nat.one_mul] at hn
  calc n * 10 ^ (9 - bs.length) < 10 ^ bs.length * 10 ^ (9 - bs.length) :=
        Nat.mul_lt_mul_of_pos_right hn (Nat.pow_pos (by decide))
    _ = 10 ^ 9 := by rw [← Nat.pow_add, Nat.add_sub_cancel' hlen]

theorem scanFraction_eq (h : 20 ≤ b.length) :
    scanFraction b = returns (Convert.scanFraction b) := by
  have hslice : (b.take (b.length - 1)).drop 20 = (b.drop 20).dropLast := by
    rw [List.dropLast_eq_take, List.length_drop, List.drop_take]
    congr 1
  rw [scanFraction, index_eq (by omega) 0, some_bind, Convert.scanFraction]
  by_cases hz : byteAt b 19 = 90 ∧ b.length = 20
  · rw [if_pos hz]
    exact if_pos hz
  · rw [if_neg hz]
    refine (if_neg hz).trans ?_
    by_cases hp : byteAt b 19 = point ∧ b.length > 20
    · rw [if_pos hp]
      refine (if_pos hp).trans ?_
      rw [minus_eq (by omega), some_bind, slice_eq (by omega) (by omega), some_bind, hslice,
        index_eq (by omega) 0, some_bind]
      generalize hfrac : (b.drop 20).dropLast = frac
      by_cases hend : byteAt b (b.length - 1) ≠ 90
      · exact (if_pos hend).trans (congrArg returns (if_pos (.inl hend))).symm
      · refine (if_neg hend).trans ?_
        by_cases hbad : frac = [] ∨ frac.length > 9
        · rw [if_pos hbad, if_pos (.inr hbad)]
          rfl
        · rw [if_neg hbad, if_neg (not_or.mpr ⟨hend, hbad⟩)]
          have hlen : frac.length ≤ 9 := by
            rw [not_or] at hbad
            omega
          have hpow : 10 ^ frac.length ≤ 10 ^ 9 := Nat.pow_le_pow_right (by decide) hlen
          refine bind_returns (fractionLoop_eq (by omega)) fun n hn => ?_
          have hscaled := scaled_lt hlen hn
          have hpow' : 10 ^ (9 - frac.length) ≤ 10 ^ 9 := Nat.pow_le_pow_right (by decide) (by omega)
          rw [minus_eq hlen, some_bind, u32, below_eq (by omega), some_bind, below_eq (by omega)]
          rfl
    · rw [if_neg hp]
      exact if_neg hp

/-! ## Decoders -/

theorem parseDateDays_checked (s : List Char) :
    parseDateDays s = returns (Convert.parseDateDays s) := by
  unfold parseDateDays Convert.parseDateDays
  generalize asBytes s = b
  simp only []
  rw [returns_ite_or]
  refine ite_congr rfl (fun _ => rfl) fun hlen => ?_
  rw [not_not] at hlen
  have hindex : ∀ {i}, i < 10 → index b i = returns (some (byteAt b i)) := fun hi =>
    index_eq (by omega) 0
  have hdigit : ∀ {i}, i < 10 → digitAt b i = returns (digit? (byteAt b i)) := fun hi =>
    digitAt_eq (by omega)
  rw [hindex (by decide), some_bind, returns_ite_or]
  refine ite_congr rfl (fun _ => rfl) fun _ => ?_
  rw [hindex (by decide), some_bind, returns_ite]
  refine ite_congr rfl (fun _ => rfl) fun _ => ?_
  refine bind_returns (hdigit (by decide)) fun y₀ h₀ => ?_
  refine bind_returns (hdigit (by decide)) fun y₁ h₁ => ?_
  refine bind_returns (hdigit (by decide)) fun y₂ h₂ => ?_
  refine bind_returns (hdigit (by decide)) fun y₃ h₃ => ?_
  have := digit?_lt h₀
  have := digit?_lt h₁
  have := digit?_lt h₂
  have := digit?_lt h₃
  rw [u32, below_eq (by omega), some_bind]
  refine bind_returns (hdigit (by decide)) fun m₀ h₀ => ?_
  refine bind_returns (hdigit (by decide)) fun m₁ h₁ => ?_
  have := digit?_lt h₀
  have := digit?_lt h₁
  rw [below_eq (by omega), some_bind]
  refine bind_returns (hdigit (by decide)) fun d₀ h₀ => ?_
  refine bind_returns (hdigit (by decide)) fun d₁ h₁ => ?_
  have := digit?_lt h₀
  have := digit?_lt h₁
  rw [below_eq (by omega), some_bind]
  refine bind_returns rfl fun date hdate => ?_
  have hyear := Date.year_of_ofYmd hdate
  exact if_pos (fits_dayNumber (by omega))

theorem scanTimestampUtc_checked (s : List Char) :
    scanTimestampUtc s = returns (Convert.scanTimestampUtc s) := by
  unfold scanTimestampUtc Convert.scanTimestampUtc
  generalize asBytes s = b
  simp only []
  rw [returns_ite_or]
  refine ite_congr rfl (fun _ => rfl) fun hlen => ?_
  have hindex : ∀ {i}, i < 20 → index b i = returns (some (byteAt b i)) := fun hi =>
    index_eq (by omega) 0
  have htwo : ∀ {off}, off + 1 < 20 → twoDigits b off = returns (Convert.twoDigits b off) :=
    fun hoff => twoDigits_eq (by omega)
  rw [hindex (by decide), some_bind, returns_ite_or]
  refine ite_congr rfl (fun _ => rfl) fun _ => ?_
  rw [hindex (by decide), some_bind, returns_ite_or]
  refine ite_congr rfl (fun _ => rfl) fun _ => ?_
  rw [hindex (by decide), some_bind, returns_ite_or]
  refine ite_congr rfl (fun _ => rfl) fun _ => ?_
  rw [hindex (by decide), some_bind, returns_ite_or]
  refine ite_congr rfl (fun _ => rfl) fun _ => ?_
  rw [hindex (by decide), some_bind, returns_ite]
  refine ite_congr rfl (fun _ => rfl) fun _ => ?_
  refine bind_returns (htwo (by decide)) fun century hc => ?_
  refine bind_returns (htwo (by decide)) fun year hy => ?_
  have := lt_of_twoDigits hc
  have := lt_of_twoDigits hy
  rw [u32, below_eq (by omega), some_bind]
  refine bind_returns (htwo (by decide)) fun month _ => ?_
  refine bind_returns (htwo (by decide)) fun day _ => ?_
  refine bind_returns (htwo (by decide)) fun hour _ => ?_
  refine bind_returns (htwo (by decide)) fun min _ => ?_
  refine bind_returns (htwo (by decide)) fun sec _ => ?_
  refine bind_returns (scanFraction_eq (by omega)) fun nanos _ => ?_
  exact bind_returns rfl fun date _ => rfl

theorem parseTimestampNanos_checked (s : List Char) :
    parseTimestampNanos s = returns (Convert.parseTimestampNanos s) :=
  bind_returns (scanTimestampUtc_checked s) fun _ _ => rfl

theorem parseTimestampMicros_checked (s : List Char) :
    parseTimestampMicros s = returns (Convert.parseTimestampMicros s) := by
  refine bind_returns (scanTimestampUtc_checked s) fun ts _ => ?_
  by_cases h : fitsSigned 64 (ts.seconds * 1000000) = true
  · rw [if_pos h, some_bind]
    exact congrArg returns (if_pos h).symm
  · rw [if_neg h]
    exact congrArg returns (if_neg h).symm

theorem integerLoop_eq (acc : Nat) (bs : List UInt8) :
    integerLoop acc bs = returns (readI128 acc bs) := by
  induction bs generalizing acc with
  | nil => rfl
  | cons b bs ih =>
    rw [integerLoop, readI128]
    refine bind_returns (digit_eq b) fun d _ => ?_
    by_cases hproduct : acc * 10 < 2 ^ 127
    · rw [if_pos hproduct, some_bind]
      by_cases hsum : acc * 10 + d < 2 ^ 127
      · rw [if_pos hsum, some_bind, if_pos ⟨hproduct, hsum⟩, ih]
      · rw [if_neg hsum, if_neg fun hc => hsum hc.2]
        rfl
    · rw [if_neg hproduct, if_neg fun hc => hproduct hc.1]
      rfl

theorem splitAtPoint_eq (bytes : List UInt8) :
    splitAtPoint bytes = returns (splitPoint bytes) := by
  rcases exists_point bytes with hnone | ⟨int, frac, rfl, hint⟩
  · have hfind : bytes.findIdx? (· = point) = none := by
      simpa [List.findIdx?_eq_none_iff] using hnone
    rw [splitAtPoint, hfind, splitPoint_int hnone]
    simp only []
    rw [slice_eq (Nat.le_refl _) (Nat.le_refl _), some_bind, List.take_length, List.drop_length]
    rfl
  · have hfind : (int ++ point :: frac).findIdx? (· = point) = some int.length := by
      rw [List.findIdx?_append, List.findIdx?_eq_none_iff.mpr (by simpa using hint)]
      simp [List.findIdx?_cons]
    rw [splitAtPoint, hfind]
    simp only []
    cases frac with
    | nil =>
      rw [if_neg (by simp), splitPoint_last hint]
      rfl
    | cons b frac =>
      rw [if_pos (by simp), splitPoint_frac hint (List.cons_ne_nil b frac),
        slice_eq (Nat.zero_le _) (by simp), some_bind, slice_eq (by simp) (Nat.le_refl _), some_bind,
        List.take_length, List.drop_zero, List.take_left, List.drop_append,
        List.drop_of_length_le (Nat.le_succ _), Nat.add_sub_cancel_left]
      rfl

theorem parseNumericI128_checked (s : List Char) :
    parseNumericI128 s = returns (Convert.parseNumericI128 s) := by
  unfold parseNumericI128 Convert.parseNumericI128
  obtain ⟨negative, bytes⟩ := splitMinus (asBytes s)
  refine bind_returns (splitAtPoint_eq bytes) fun parts _ => ?_
  obtain ⟨int, frac⟩ := parts
  simp only []
  rw [returns_ite]
  refine ite_congr rfl (fun _ => rfl) fun hshape => ?_
  have hlen : frac.length ≤ 9 := by
    rw [not_or] at hshape
    exact Nat.le_of_not_lt hshape.2
  have hpow : 10 ^ frac.length ≤ 10 ^ 9 := Nat.pow_le_pow_right (by decide) hlen
  refine bind_returns (integerLoop_eq 0 int) fun intVal _ => ?_
  refine bind_returns (fractionLoop_eq (by omega)) fun fracVal hfrac => ?_
  have hscaled := scaled_lt hlen hfrac
  have hpow' : 10 ^ (9 - frac.length) ≤ 10 ^ 9 := Nat.pow_le_pow_right (by decide) (by omega)
  rw [numericScale, minus_eq hlen, some_bind, i128, below_eq (by omega), some_bind,
    below_eq (by omega), some_bind]
  by_cases hproduct : intVal * 1000000000 < 2 ^ 127
  · rw [if_pos hproduct, some_bind]
    by_cases hsum : intVal * 1000000000 + fracVal * 10 ^ (9 - frac.length) < 2 ^ 127
    · rw [if_pos hsum, some_bind, if_pos ⟨hproduct, hsum⟩]
      rfl
    · rw [if_neg hsum, if_neg fun hc => hsum hc.2]
      rfl
  · rw [if_neg hproduct, if_neg fun hc => hproduct hc.1]
    rfl

end Checked
end Convert
end SpannerAdbc
