import SpannerAdbc.Arrow.Array
import SpannerAdbc.Lib.Calendar
import SpannerAdbc.Lib.Digits

/-!
# SpannerAdbc.Binding.Format

The wire forms of the values that travel as formatted strings: DATE, TIMESTAMP and NUMERIC. Dates and
times of day are chrono's: `NaiveDate` is a day of the proleptic Gregorian calendar within chrono's
range of years, and a `DateTime` an instant in UTC.

The errors of binding say why a cell is rejected (`BindError`): because of its type, or because its
value is out of range.
-/

namespace SpannerAdbc
namespace Binding

open Arrow Lib

/-- The reasons for rejecting the cell of a column or parameter. -/
inductive BindError where
  | unsupportedType (name : List Char) (dataType : DataType)
  | unsupportedElement (name : List Char) (itemType : DataType)
  | unsupportedScale (name : List Char) (scale : Int)
  | dateOutOfRange (name : List Char) (days : Int)
  | millisOutOfRange (name : List Char) (millis : Int)
  | timestampOutOfRange (name : List Char) (value : Int) (unit : TimeUnit)
  deriving DecidableEq, Repr

namespace BindError

/-- Rejected whatever the value is. -/
def ofType : BindError → Bool
  | .unsupportedType _ _ | .unsupportedElement _ _ | .unsupportedScale _ _ => true
  | .dateOutOfRange _ _ | .millisOutOfRange _ _ | .timestampOutOfRange _ _ _ => false

def unitDebug : TimeUnit → List Char
  | .second => "Second".toList
  | .millisecond => "Millisecond".toList
  | .microsecond => "Microsecond".toList
  | .nanosecond => "Nanosecond".toList

def message (D : TypeDebug) : BindError → List Char
  | .unsupportedType name dataType => "cannot bind parameter ".toList ++ D.string name ++
      ": unsupported Arrow type ".toList ++ D.dataType dataType
  | .unsupportedElement name itemType => "cannot bind ARRAY parameter ".toList ++ D.string name ++
      ": unsupported element type ".toList ++ D.dataType itemType
  | .unsupportedScale name scale => "cannot bind NUMERIC parameter ".toList ++ D.string name ++
      ": unsupported scale ".toList ++ intText scale
  | .dateOutOfRange name days => "cannot bind DATE parameter ".toList ++ D.string name ++
      ": ".toList ++ intText days ++ " is out of range".toList
  | .millisOutOfRange name millis => "cannot bind DATE parameter ".toList ++ D.string name ++
      ": ".toList ++ intText millis ++ "ms is out of range".toList
  | .timestampOutOfRange name value unit => "cannot bind TIMESTAMP parameter ".toList ++
      D.string name ++ ": ".toList ++ intText value ++ " (".toList ++ unitDebug unit ++
      ") is out of range".toList

def toError (D : TypeDebug) (e : BindError) : Error := invalidArgument (e.message D)

end BindError

/-! ## Dates -/

/-- The years of chrono's `NaiveDate`. -/
def isNaive (date : Date) : Bool := -262143 ≤ date.year ∧ date.year ≤ 262142

/-- Four digits, with a sign outside the years 0 to 9999. -/
def yearText (year : Int) : List Char :=
  if 0 ≤ year ∧ year ≤ 9999 then padded 4 year.toNat
  else (if year < 0 then '-' else '+') :: padded 4 year.natAbs

/-- The format `%Y-%m-%d`. -/
def dateText (date : Date) : List Char :=
  yearText date.year ++ ('-' :: padded 2 date.month ++ '-' :: padded 2 date.day)

def dateString (name : List Char) (days : Int) : Except BindError (List Char) :=
  let date := Date.ofDayNumber (epochDay + days)
  if isNaive date then .ok (dateText date) else .error (.dateOutOfRange name days)

def date64Days (name : List Char) (millis : Int) : Except BindError Int :=
  let days := millis / 86400000
  if fitsSigned 32 days then .ok days else .error (.millisOutOfRange name millis)

/-! ## Timestamps -/

/-- The ticks of a unit in one second. -/
def perSecond : TimeUnit → Nat
  | .second => 1
  | .millisecond => 1000
  | .microsecond => 1000000
  | .nanosecond => 1000000000

/-- The fractional digits that a unit carries. -/
def fractionDigits : TimeUnit → Nat
  | .second => 0
  | .millisecond => 3
  | .microsecond => 6
  | .nanosecond => 9

theorem subsecond_lt (unit : TimeUnit) (value : Int) :
    (value % perSecond unit).toNat * (1000000000 / perSecond unit) < 1000000000 := by
  cases unit <;> simp only [perSecond] <;> omega

/-- The instant of a count of ticks: whole seconds, rounded towards the past, and the rest. -/
def instant (unit : TimeUnit) (value : Int) : DateTime :=
  .ofEpoch (value / perSecond unit) ((value % perSecond unit).toNat * (1000000000 / perSecond unit))
    (subsecond_lt unit value)

/-- `to_rfc3339_opts` with the given number of fractional digits and `Z`. -/
def toRfc3339 (ts : DateTime) (digits : Nat) : List Char :=
  dateText ts.date ++ ('T' :: padded 2 (ts.second / 3600) ++ (':' :: padded 2 (ts.second / 60 % 60) ++
    (':' :: padded 2 (ts.second % 60) ++
      ((if digits = 0 then [] else '.' :: padded digits (ts.nano / 10 ^ (9 - digits))) ++ ['Z']))))

/-- Every count of nanoseconds is in chrono's range, so that unit has no range error. -/
def timestampString (name : List Char) (unit : TimeUnit) (value : Int) :
    Except BindError (List Char) :=
  let ts := instant unit value
  if unit = .nanosecond ∨ isNaive ts.date then .ok (toRfc3339 ts (fractionDigits unit))
  else .error (.timestampOutOfRange name value unit)

/-! ## Decimals -/

def numericScale (name : List Char) (scale : Int) : Except BindError Nat :=
  if 0 ≤ scale ∧ scale ≤ 38 then .ok scale.toNat else .error (.unsupportedScale name scale)

def numericString (unscaled : Int) (scale : Nat) : List Char :=
  if scale = 0 then intText unscaled
  else
    let magnitude := unscaled.natAbs
    let divisor := 10 ^ scale
    (if unscaled < 0 then ['-'] else []) ++ (Nat.toDigits 10 (magnitude / divisor) ++
      ('.' :: padded scale (magnitude % divisor)))

end Binding
end SpannerAdbc
