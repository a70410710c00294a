import SpannerAdbc.Basic

/-!
# SpannerAdbc.Arrow.DataType

Arrow's logical types and fields, and the `arrow.json` tag of a field. Sizes are natural numbers, and
the keys of a dictionary have one of the eight integer types, an enumeration of its own: a type whose
arrays cannot exist cannot be written down.
-/

namespace SpannerAdbc
namespace Arrow

inductive TimeUnit where
  | second
  | millisecond
  | microsecond
  | nanosecond
  deriving DecidableEq, Repr

inductive IntervalUnit where
  | yearMonth
  | dayTime
  | monthDayNano
  deriving DecidableEq, Repr

inductive UnionMode where
  | sparse
  | dense
  deriving DecidableEq, Repr

/-- The types of dictionary keys. -/
inductive KeyType where
  | int8
  | int16
  | int32
  | int64
  | uint8
  | uint16
  | uint32
  | uint64
  deriving DecidableEq, Repr

mutual

inductive DataType where
  | null
  | boolean
  | int8
  | int16
  | int32
  | int64
  | uint8
  | uint16
  | uint32
  | uint64
  | float16
  | float32
  | float64
  | timestamp (unit : TimeUnit) (timezone : Option (List Char))
  | date32
  | date64
  | time32 (unit : TimeUnit)
  | time64 (unit : TimeUnit)
  | duration (unit : TimeUnit)
  | interval (unit : IntervalUnit)
  | binary
  | fixedSizeBinary (size : Nat)
  | largeBinary
  | binaryView
  | utf8
  | largeUtf8
  | utf8View
  | list (field : Field)
  | listView (field : Field)
  | fixedSizeList (field : Field) (size : Nat)
  | largeList (field : Field)
  | largeListView (field : Field)
  | struct (fields : Fields)
  | union (fields : UnionFields) (mode : UnionMode)
  | dictionary (key : KeyType) (value : DataType)
  | decimal32 (precision : Nat) (scale : Int)
  | decimal64 (precision : Nat) (scale : Int)
  | decimal128 (precision : Nat) (scale : Int)
  | decimal256 (precision : Nat) (scale : Int)
  | map (entries : Field) (sorted : Bool)
  | runEndEncoded (runEnds values : Field)
  deriving DecidableEq, Repr

inductive Field where
  | mk (name : List Char) (dataType : DataType) (nullable : Bool)
      (metadata : List (List Char × List Char))
  deriving DecidableEq, Repr

inductive Fields where
  | nil
  | cons (field : Field) (fields : Fields)
  deriving DecidableEq, Repr

inductive UnionFields where
  | nil
  | cons (typeId : Int) (field : Field) (fields : UnionFields)
  deriving DecidableEq, Repr

end

def DataType.isDictionary : DataType → Bool
  | .dictionary _ _ => true
  | _ => false

namespace Field

def name : Field → List Char
  | .mk name _ _ _ => name

def dataType : Field → DataType
  | .mk _ dataType _ _ => dataType

def isNullable : Field → Bool
  | .mk _ _ nullable _ => nullable

def metadata : Field → List (List Char × List Char)
  | .mk _ _ _ metadata => metadata

/-- `Field::new`. -/
def new (name : List Char) (dataType : DataType) (nullable : Bool) : Field :=
  .mk name dataType nullable []

def withMetadata : Field → List (List Char × List Char) → Field
  | .mk name dataType nullable _, metadata => .mk name dataType nullable metadata

@[simp] theorem name_mk (n : List Char) (t : DataType) (b : Bool) (m : List (List Char × List Char)) :
    (mk n t b m).name = n := rfl

@[simp] theorem dataType_mk (n : List Char) (t : DataType) (b : Bool)
    (m : List (List Char × List Char)) : (mk n t b m).dataType = t := rfl

@[simp] theorem isNullable_mk (n : List Char) (t : DataType) (b : Bool)
    (m : List (List Char × List Char)) : (mk n t b m).isNullable = b := rfl

end Field

/-- The fields of a struct, in order. -/
def Fields.toList : Fields → List Field
  | .nil => []
  | .cons field fields => field :: fields.toList

def Fields.ofList : List Field → Fields
  | [] => .nil
  | field :: fields => .cons field (.ofList fields)

abbrev Schema := List Field

/-! ## The JSON tag -/

def arrowExtensionName : List Char := "ARROW:extension:name".toList

def arrowJsonExtension : List Char := "arrow.json".toList

/-- The types that `arrow.json` is defined over. -/
def DataType.isString : DataType → Bool
  | .utf8 | .largeUtf8 | .utf8View => true
  | _ => false

/-- A dictionary-encoded string is looked through, one level deep. -/
def DataType.storage : DataType → DataType
  | .dictionary _ value => value
  | other => other

def isJsonField (field : Field) : Bool :=
  field.dataType.storage.isString && field.metadata.lookup arrowExtensionName == some arrowJsonExtension

structure TypeDebug extends Debug where
  dataType : DataType → List Char

end Arrow
end SpannerAdbc
