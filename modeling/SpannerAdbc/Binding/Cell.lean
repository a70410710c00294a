import SpannerAdbc.Binding.Format
import SpannerAdbc.Lib.Result
import SpannerAdbc.Stream.Chunk

/-!
# SpannerAdbc.Binding.Cell

`cell_value`: the wire value of one Arrow cell, shared by parameter binding and by the mutations of a
bulk ingest. A scalar goes through `scalar_binder`, the elements of a list too, and a dictionary cell
is the cell of its value.

`Codec` holds what the source leaves to libraries: the widening of floats, the client's encoding of
floats and the base64 encoding of bytes.
-/

namespace SpannerAdbc
namespace Binding

open Arrow Lib
open SpannerAdbc.Stream (Value)

structure Codec where
  widen16 : UInt16 → UInt64
  widen32 : UInt32 → UInt64
  floatValue : UInt64 → Value
  base64 : List UInt8 → List Char

/-- The explicit types of parameters. -/
inductive ParamType where
  | json
  | jsonArray
  deriving DecidableEq, Repr

/-! ## Scalars -/

def nullValue : Value := .null

def textValue (s : List Char) : Value := .string (String.ofList s)

/-- The client sends an integer as its decimal string. -/
def intValue (i : Int) : Value := textValue (intText i)

section Reads

variable (a : ArrayData) (i : Nat)

def boolAt : Bool :=
  match a.slot i with
  | some (.bool value) => value
  | _ => false

def intAt : Int :=
  match a.slot i with
  | some (.int value) => value
  | _ => 0

def float16At : UInt16 :=
  match a.slot i with
  | some (.float16 bits) => bits
  | _ => 0

def float32At : UInt32 :=
  match a.slot i with
  | some (.float32 bits) => bits
  | _ => 0

def float64At : UInt64 :=
  match a.slot i with
  | some (.float64 bits) => bits
  | _ => 0

def textAt : List Char :=
  match a.slot i with
  | some (.text value) => value
  | _ => []

def bytesAt : List UInt8 :=
  match a.slot i with
  | some (.bytes value) => value
  | _ => []

end Reads

/-- The encoder of element `i` of an array, for a column or parameter of the given name. -/
abbrev ScalarBinder := List Char → ArrayData → Nat → Except BindError Value

/-- `scalar_value`: a conversion that cannot fail. -/
def scalarValue (convert : ArrayData → Nat → Value) : ScalarBinder := fun _ a i =>
  .ok (if a.isNull i then nullValue else convert a i)

/-- `try_scalar_value`: a conversion to a string that may fail. -/
def tryScalarValue (convert : List Char → Int → Except BindError (List Char)) : ScalarBinder :=
  fun name a i => if a.isNull i then .ok nullValue else (convert name (intAt a i)).map textValue

variable (C : Codec)

def scalarBinder : DataType → Option ScalarBinder
  | .int64 | .int32 | .int16 | .int8 | .uint32 | .uint16 | .uint8 =>
    some (scalarValue fun a i => intValue (intAt a i))
  | .float64 => some (scalarValue fun a i => C.floatValue (float64At a i))
  | .float32 => some (scalarValue fun a i => C.floatValue (C.widen32 (float32At a i)))
  | .float16 => some (scalarValue fun a i => C.floatValue (C.widen16 (float16At a i)))
  | .boolean => some (scalarValue fun a i => .bool (boolAt a i))
  | .utf8 | .largeUtf8 | .utf8View => some (scalarValue fun a i => textValue (textAt a i))
  | .binary | .largeBinary | .binaryView | .fixedSizeBinary _ =>
    some (scalarValue fun a i => textValue (C.base64 (bytesAt a i)))
  | .date32 => some (tryScalarValue dateString)
  | .date64 => some (tryScalarValue fun name millis => do dateString name (← date64Days name millis))
  | .timestamp unit _ => some (tryScalarValue fun name value => timestampString name unit value)
  | .decimal128 _ scale => some fun name a i => do
    -- the scale is checked for a null too
    let scale ← numericScale name scale
    scalarValue (fun a i => textValue (numericString (intAt a i) scale)) name a i
  | .null => some fun _ _ _ => .ok nullValue
  | _ => none

/-! ## Cells -/

/-- The rows `start` to `start + len` of an array, the value of a list cell. -/
structure Slice where
  array : ArrayData
  start : Nat
  len : Nat

/-- `value(row)` of a list array. -/
def listValue (offsets : List Nat) (child : ArrayData) (row : Nat) : Slice :=
  { array := child
    start := offsets.getD row 0
    len := offsets.getD (row + 1) 0 - offsets.getD row 0 }

/-- A null cell is a null array; an element keeps its own null. -/
def sliceValue (bind : ScalarBinder) (name : List Char) : Option Slice → Except BindError Value
  | none => .ok nullValue
  | some s => do
    return Value.list (← (List.range s.len).mapM fun i => bind name s.array (s.start + i))

def listCellValue (name : List Char) (item : Field) (elem : Option Slice) :
    Except BindError (Value × Option ParamType) :=
  match scalarBinder C item.dataType with
  | none => .error (.unsupportedElement name item.dataType)
  | some bind => do
    return (← sliceValue bind name elem, if isJsonField item then some .jsonArray else none)

def jsonType (field : Field) : Option ParamType := if isJsonField field then some .json else none

/-- The NULL of a dictionary cell without a key; the type of the values is still checked. -/
def nullDictionaryValue (name : List Char) (field : Field) (valueType : DataType) :
    Except BindError (Value × Option ParamType) :=
  match valueType with
  | .list item | .largeList item => listCellValue C name item none
  | _ =>
    match scalarBinder C valueType with
    | none => .error (.unsupportedType name valueType)
    | some _ => .ok (nullValue, jsonType field)

def cellValue (name : List Char) (field : Field) :
    ArrayData → Nat → Except BindError (Value × Option ParamType)
  | .list large item offsets child validity, row =>
    let column := ArrayData.list large item offsets child validity
    listCellValue C name item
      (if column.isNull row then none else some (listValue offsets child row))
  | .dictionary _ keys values, row =>
    match keys[row]?.join with
    | some valueRow => cellValue name field values valueRow
    | none => nullDictionaryValue C name field values.dataType
  | column, row =>
    match scalarBinder C column.dataType with
    | none => .error (.unsupportedType name column.dataType)
    | some bind => do return (← bind name column row, jsonType field)

/-- `insert_mutation`: the named values of a row. -/
def insertMutation (batch : RecordBatch) (row : Nat) :
    Except BindError (List (List Char × Value)) :=
  (batch.schema.zip batch.columns).mapM fun (field, column) => do
    let (value, _) ← cellValue C field.name field column row
    return (field.name, value)

/-- `bind_params`: the parameters of a row, one for each column. -/
def bindParams (names : List (List Char)) (batch : RecordBatch) (row : Nat) :
    Except BindError (List (List Char × Value × Option ParamType)) :=
  (names.zip (batch.schema.zip batch.columns)).mapM fun (name, field, column) => do
    let (value, type) ← cellValue C name field column row
    return (name, value, type)

end Binding
end SpannerAdbc
