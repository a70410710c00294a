import SpannerAdbc.Arrow.Build
import SpannerAdbc.Lib.Calendar
import SpannerAdbc.Lib.Digits
import SpannerAdbc.Stream.Chunk

/-!
# SpannerAdbc.Convert.Scalar

Decoding one scalar of a result set. Spanner sends DATE, TIMESTAMP, NUMERIC and INT64 as strings; the
parsers of the source read them byte by byte at fixed offsets. A value that does not decode is an
error, never a null.

`Decoder` holds what the source leaves to libraries: parsing and narrowing of floats, base64, JSON
rendering, chrono's RFC 3339 parser (for the choice of an error message only), the messages of Arrow's
constructors and the bytes that Arrow's builders of texts and byte strings hold, if there is a limit.
-/

namespace SpannerAdbc
namespace Convert

open Arrow Lib
open SpannerAdbc.Stream (Value)

/-- A `serde_json` value. -/
inductive Json where
  | null
  | bool (value : Bool)
  | number (bits : UInt64)
  | string (value : String)
  | array (values : List Json)
  | object (fields : List (String × Json))

structure Decoder where
  parseF64 : List Char → Option UInt64
  narrow : UInt64 → UInt32
  base64 : List Char → Option (List UInt8)
  isRfc3339 : List Char → Bool
  renderJson : Json → List Char
  debug : List Char → List Char
  arrowMessage : ArrowError → List Char
  capacity : Option Nat

/-! ## Values as JSON -/

/-- A float that is neither infinite nor a NaN. -/
def isFinite (bits : UInt64) : Bool := bits &&& 0x7ff0000000000000 != 0x7ff0000000000000

mutual

def valueToJson : Value → Json
  | .null => .null
  | .bool value => .bool value
  | .number bits => if isFinite bits then .number bits else .null
  | .string value => .string value
  | .list values => .array (listToJson values)
  | .struct fields => .object (fieldsToJson fields)

def listToJson : List Value → List Json
  | [] => []
  | value :: values => valueToJson value :: listToJson values

def fieldsToJson : List (String × Value) → List (String × Json)
  | [] => []
  | (key, value) :: fields => (key, valueToJson value) :: fieldsToJson fields

end

/-! ## Parsers -/

def tryAsString : Value → Option (List Char)
  | .string value => some value.toList
  | _ => none

/-- Whether a number is negative, and what stands behind its sign. -/
def splitSign : List Char → Bool × List Char
  | '-' :: digits => (true, digits)
  | '+' :: digits => (false, digits)
  | digits => (false, digits)

def signed (negative : Bool) (n : Nat) : Int := if negative then -n else n

/-- `str::parse::<i64>`: a sign, then digits. -/
def parseI64 (s : List Char) : Option Int :=
  let (negative, digits) := splitSign s
  if digits = [] then none
  else do
    let i := signed negative (← readDigits 0 (asBytes digits))
    if fitsSigned 64 i then some i else none

def parseInt64 (value : Value) : Option Int := do parseI64 (← tryAsString value)

def nanBits : UInt64 := 0x7ff8000000000000
def infinityBits : UInt64 := 0x7ff0000000000000
def negInfinityBits : UInt64 := 0xfff0000000000000

def parseF64 (C : Decoder) : Value → Option UInt64
  | .number bits => some bits
  | .string value =>
    if value.toList = "NaN".toList then some nanBits
    else if value.toList = "Infinity".toList then some infinityBits
    else if value.toList = "-Infinity".toList then some negInfinityBits
    else C.parseF64 value.toList
  | _ => none

/-- The byte at an offset that the length check has shown to exist. -/
def byteAt (b : List UInt8) (i : Nat) : UInt8 := b.getD i 0

def dash : UInt8 := 45
def point : UInt8 := 46

def parseDateDays (s : List Char) : Option Int :=
  let b := asBytes s
  if b.length ≠ 10 ∨ byteAt b 4 ≠ dash ∨ byteAt b 7 ≠ dash then none
  else do
    let digit := fun i => digit? (byteAt b i)
    let year := (← digit 0) * 1000 + (← digit 1) * 100 + (← digit 2) * 10 + (← digit 3)
    let month := (← digit 5) * 10 + (← digit 6)
    let day := (← digit 8) * 10 + (← digit 9)
    let date ← Date.ofYmd year month day
    return date.dayNumber - epochDay

def twoDigits (b : List UInt8) (off : Nat) : Option Nat := do
  return (← digit? (byteAt b off)) * 10 + (← digit? (byteAt b (off + 1)))

/-- The digits behind the seconds, as nanoseconds. -/
def scanFraction (b : List UInt8) : Option Nat :=
  if byteAt b 19 = 90 ∧ b.length = 20 then some 0
  else if byteAt b 19 = point ∧ b.length > 20 then
    let frac := (b.drop 20).dropLast
    if byteAt b (b.length - 1) ≠ 90 ∨ frac = [] ∨ frac.length > 9 then none
    else do return (← readDigits 0 frac) * 10 ^ (9 - frac.length)
  else none

/-- `and_hms_nano_opt`; nine digits are never a leap second. -/
def andHmsNano (date : Date) (hour min sec nano : Nat) : Option DateTime :=
  if h : hour < 24 ∧ min < 60 ∧ sec < 60 ∧ nano < 1000000000 then
    some ⟨date, hour * 3600 + min * 60 + sec, nano, by omega, h.2.2.2⟩
  else none

def scanTimestampUtc (s : List Char) : Option DateTime :=
  let b := asBytes s
  if b.length < 20 ∨ byteAt b 4 ≠ dash ∨ byteAt b 7 ≠ dash ∨ byteAt b 10 ≠ 84 ∨ byteAt b 13 ≠ 58 ∨ byteAt b 16 ≠ 58
  then none
  else do
    let year := (← twoDigits b 0) * 100 + (← twoDigits b 2)
    let month ← twoDigits b 5
    let day ← twoDigits b 8
    let hour ← twoDigits b 11
    let min ← twoDigits b 14
    let sec ← twoDigits b 17
    let nanos ← scanFraction b
    andHmsNano (← Date.ofYmd year month day) hour min sec nanos

/-- `timestamp_nanos_opt`. -/
def parseTimestampNanos (s : List Char) : Option Int := do
  let ts ← scanTimestampUtc s
  let nanos := ts.seconds * 1000000000 + ts.nano
  if fitsSigned 64 nanos then some nanos else none

def parseTimestampMicros (s : List Char) : Option Int := do
  let ts ← scanTimestampUtc s
  let micros := ts.seconds * 1000000
  if fitsSigned 64 micros then
    let micros := micros + ts.nano / 1000
    if fitsSigned 64 micros then some micros else none
  else none

def numericScale : Nat := 9

/-- The loop over the integer part, with its overflow checks. -/
def readI128 (acc : Nat) : List UInt8 → Option Nat
  | [] => some acc
  | b :: bs => do
    let d ← digit? b
    if acc * 10 < 2 ^ 127 ∧ acc * 10 + d < 2 ^ 127 then readI128 (acc * 10 + d) bs else none

/-- The parts before and behind the first point; nothing behind a point is malformed. -/
def splitPoint (bytes : List UInt8) : Option (List UInt8 × List UInt8) :=
  match bytes.dropWhile (· ≠ point) with
  | [] => some (bytes, [])
  | [_] => none
  | _ :: frac => some (bytes.takeWhile (· ≠ point), frac)

/-- A number may begin with a minus, never with a plus. -/
def splitMinus (bytes : List UInt8) : Bool × List UInt8 :=
  if bytes.head? = some dash then (true, bytes.tail) else (false, bytes)

def parseNumericI128 (s : List Char) : Option Int := do
  let (negative, bytes) := splitMinus (asBytes s)
  let (int, frac) ← splitPoint bytes
  if int = [] ∨ frac.length > numericScale then none
  else
    let intVal ← readI128 0 int
    let fracVal := (← readDigits 0 frac) * 10 ^ (numericScale - frac.length)
    if intVal * 1000000000 < 2 ^ 127 ∧ intVal * 1000000000 + fracVal < 2 ^ 127 then
      some (signed negative (intVal * 1000000000 + fracVal))
    else none

/-! ## Conversion -/

variable (C : Decoder)

def decodeError (spannerType : List Char) (value : Value) : Error :=
  err ("cannot decode Spanner ".toList ++ spannerType ++ " wire value ".toList ++
    C.renderJson (valueToJson value)) .invalidData

/-- A well-formed instant that does not fit Arrow's nanoseconds. -/
def outOfNanoRange (s : List Char) : Error :=
  invalidArgument ("TIMESTAMP value ".toList ++ C.debug s ++
    " is outside the range representable as an Arrow Timestamp(Nanosecond) (~1677-09-21 to ".toList ++
    "2262-04-11); set spanner.max_timestamp_precision=microseconds to read it at microsecond ".toList ++
    "precision instead".toList)

/-- The conversion of `build_primitive`. -/
def parsed (spannerType : List Char) (parse : Value → Option Scalar) (value : Value) :
    Except Error Scalar :=
  match parse value with
  | some scalar => .ok scalar
  | none => .error (decodeError C spannerType value)

/-- The conversion of the nanosecond timestamps, which tells two failures apart. -/
def convertNanos (value : Value) : Except Error Scalar :=
  match tryAsString value with
  | none => .error (decodeError C "TIMESTAMP".toList value)
  | some s =>
    match parseTimestampNanos s with
    | some nanos => .ok (.int nanos)
    | none =>
      if C.isRfc3339 s then .error (outOfNanoRange C s)
      else .error (decodeError C "TIMESTAMP".toList value)

/-- The text of a value: strings as they are, anything else rendered as JSON. -/
def valueText (value : Value) : List Char :=
  match tryAsString value with
  | some s => s
  | none => C.renderJson (valueToJson value)

/-- The conversion that `build_array` applies to each value of a scalar type. -/
def convertScalar : DataType → Value → Except Error Scalar
  | .boolean => parsed C "BOOL".toList fun
    | .bool value => some (.bool value)
    | _ => none
  | .int64 => parsed C "INT64".toList fun v => (parseInt64 v).map .int
  | .float64 => parsed C "FLOAT64".toList fun v => (parseF64 C v).map .float64
  | .float32 => parsed C "FLOAT32".toList fun v => (parseF64 C v).map fun f => .float32 (C.narrow f)
  | .date32 => parsed C "DATE".toList fun v => ((tryAsString v).bind parseDateDays).map .int
  | .timestamp .nanosecond _ => convertNanos C
  | .timestamp .microsecond _ =>
    parsed C "TIMESTAMP".toList fun v => ((tryAsString v).bind parseTimestampMicros).map .int
  | .decimal128 _ _ =>
    parsed C "NUMERIC".toList fun v => ((tryAsString v).bind parseNumericI128).map .int
  | .binary => parsed C "BYTES".toList fun v => ((tryAsString v).bind C.base64).map .bytes
  | _ => fun v => .ok (.text (valueText C v))

/-! ## Ranges -/

/-- The type of an array of scalars: everything without a builder of its own becomes text. -/
def builtType : DataType → DataType
  | .boolean => .boolean
  | .int64 => .int64
  | .float64 => .float64
  | .float32 => .float32
  | .date32 => .date32
  | .timestamp .nanosecond tz => .timestamp .nanosecond tz
  | .timestamp .microsecond tz => .timestamp .microsecond tz
  | .decimal128 precision scale => .decimal128 precision scale
  | .binary => .binary
  | _ => .utf8

variable {C} {s : List Char} {i : Int} {v : Value}

theorem fitsSigned_iff {w : Nat} {v : Int} :
    fitsSigned w v = true ↔ -2 ^ (w - 1) ≤ v ∧ v < 2 ^ (w - 1) := by
  simp [fitsSigned]

theorem parsed_eq_ok {spannerType : List Char} {parse : Value → Option Scalar} {s : Scalar} :
    parsed C spannerType parse v = .ok s ↔ parse v = some s := by
  rw [parsed]
  cases parse v with
  | none => simp
  | some scalar => simp

theorem fits_parseInt64 (h : parseInt64 v = some i) :
    fitsSigned 64 i = true := by
  obtain ⟨s, -, h⟩ := Option.bind_eq_some_iff.mp h
  simp only [parseI64] at h
  split at h
  · cases h
  · obtain ⟨n, -, h⟩ := Option.bind_eq_some_iff.mp h
    simp only [Option.ite_none_right_eq_some, Option.some.injEq] at h
    exact h.2 ▸ h.1

/-- The years 0 to 9999 in days. -/
theorem dayNumber_bounds {date : Date} (h : 0 ≤ date.year ∧ date.year ≤ 9999) :
    -719528 ≤ date.dayNumber - epochDay ∧ date.dayNumber - epochDay ≤ 2932896 := by
  have hday := date.dayOfYear_bounds
  have hlen : daysBeforeYear date.year + daysInYear date.year = daysBeforeYear (date.year + 1) :=
    (daysBeforeYear_succ date.year).symm
  rw [Date.dayNumber, epochDay]
  simp only [daysBeforeYear] at *
  omega

theorem fits_dayNumber {date : Date} (h : 0 ≤ date.year ∧ date.year ≤ 9999) :
    fitsSigned 32 (date.dayNumber - epochDay) = true := by
  have hbounds := dayNumber_bounds h
  rw [fitsSigned_iff]
  omega

theorem fits_parseDateDays {days : Int} (h : parseDateDays s = some days) :
    fitsSigned 32 days = true := by
  simp only [parseDateDays] at h
  split at h
  · cases h
  · simp only [Option.bind_eq_bind, Option.bind_eq_some_iff, Option.pure_def, Option.some.injEq] at h
    obtain ⟨d0, h0, d1, h1, d2, h2, d3, h3, _, -, _, -, _, -, _, -, date, hdate, rfl⟩ := h
    have hyear : date.year = (d0 * 1000 + d1 * 100 + d2 * 10 + d3 : Nat) := Date.year_of_ofYmd hdate
    have := digit?_lt h0
    have := digit?_lt h1
    have := digit?_lt h2
    have := digit?_lt h3
    exact fits_dayNumber (by omega)

theorem fits_parseTimestampNanos (h : parseTimestampNanos s = some i) :
    fitsSigned 64 i = true := by
  obtain ⟨ts, -, h⟩ := Option.bind_eq_some_iff.mp h
  simp only [Option.ite_none_right_eq_some, Option.some.injEq] at h
  exact h.2 ▸ h.1

theorem fits_parseTimestampMicros (h : parseTimestampMicros s = some i) :
    fitsSigned 64 i = true := by
  obtain ⟨ts, -, h⟩ := Option.bind_eq_some_iff.mp h
  simp only [Option.ite_none_right_eq_some, Option.some.injEq] at h
  exact h.2.2 ▸ h.2.1

theorem fits_parseNumericI128 (h : parseNumericI128 s = some i) :
    fitsSigned 128 i = true := by
  simp only [parseNumericI128, Option.bind_eq_bind, Option.bind_eq_some_iff] at h
  obtain ⟨⟨int, frac⟩, -, h⟩ := h
  simp only [Option.ite_none_left_eq_some, Option.bind_eq_some_iff,
    Option.ite_none_right_eq_some, Option.some.injEq] at h
  obtain ⟨-, intVal, -, fracVal, -, ⟨-, hlt⟩, rfl⟩ := h
  rw [fitsSigned_iff, signed]
  split <;> omega

/-- What a scalar decodes to is a value of the array's type. -/
theorem fits_convertScalar {type : DataType} {s : Scalar} (h : convertScalar C type v = .ok s) :
    Scalar.fits (builtType type) s = true := by
  unfold convertScalar at h
  split at h
  · obtain h := parsed_eq_ok.mp h
    split at h <;> cases h
    rfl
  · obtain ⟨i, hi, rfl⟩ := Option.map_eq_some_iff.mp (parsed_eq_ok.mp h)
    exact fits_parseInt64 hi
  · obtain ⟨f, -, rfl⟩ := Option.map_eq_some_iff.mp (parsed_eq_ok.mp h)
    rfl
  · obtain ⟨f, -, rfl⟩ := Option.map_eq_some_iff.mp (parsed_eq_ok.mp h)
    rfl
  · obtain ⟨i, hi, rfl⟩ := Option.map_eq_some_iff.mp (parsed_eq_ok.mp h)
    obtain ⟨t, -, ht⟩ := Option.bind_eq_some_iff.mp hi
    exact fits_parseDateDays ht
  · simp only [convertNanos] at h
    split at h
    · cases h
    · split at h
      · cases h
        exact fits_parseTimestampNanos ‹_›
      · split at h <;> cases h
  · obtain ⟨i, hi, rfl⟩ := Option.map_eq_some_iff.mp (parsed_eq_ok.mp h)
    obtain ⟨t, -, ht⟩ := Option.bind_eq_some_iff.mp hi
    exact fits_parseTimestampMicros ht
  · obtain ⟨i, hi, rfl⟩ := Option.map_eq_some_iff.mp (parsed_eq_ok.mp h)
    obtain ⟨t, -, ht⟩ := Option.bind_eq_some_iff.mp hi
    exact fits_parseNumericI128 ht
  · obtain ⟨f, -, rfl⟩ := Option.map_eq_some_iff.mp (parsed_eq_ok.mp h)
    rfl
  · cases h
    unfold builtType
    split <;> first | rfl | simp_all

theorem isScalar_builtType (type : DataType) : (builtType type).isScalar = true := by
  unfold builtType
  split <;> rfl

end Convert
end SpannerAdbc
