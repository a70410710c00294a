import SpannerAdbc.Arrow.DataType

/-!
# SpannerAdbc.Arrow.Array

Arrow arrays. An array of scalars is the list of its slots; a list array keeps Arrow's layout, one
child for all rows and the offsets that cut it, a dictionary array its keys and its values, and a dense
union the type id and the offset of each row (Arrow's unions have no nulls of their own; a row without
either is what taking a missing row gives). Arrays of types that the driver never reads have a type
and a length only.

`Valid` is what Arrow guarantees of an array that exists. The driver's accessors panic on an index or
a type that the array does not have; here they return a default, which no valid cell ever yields.
-/

namespace SpannerAdbc
namespace Arrow

/-- The value of a slot. An integer stands for the integer, date, timestamp and decimal types, which
Arrow stores as their native integers; a float is its bits. -/
inductive Scalar where
  | bool (value : Bool)
  | int (value : Int)
  | float16 (bits : UInt16)
  | float32 (bits : UInt32)
  | float64 (bits : UInt64)
  | text (value : List Char)
  | bytes (value : List UInt8)
  deriving DecidableEq, Repr

mutual

inductive ArrayData where
  | null (len : Nat)
  | scalars (type : DataType) (slots : List (Option Scalar))
  | list (large : Bool) (field : Field) (offsets : List Nat) (child : ArrayData)
      (validity : List Bool)
  | struct (fields : Fields) (children : Children) (validity : List Bool)
  | dictionary (key : KeyType) (keys : List (Option Nat)) (values : ArrayData)
  | union (fields : UnionFields) (rows : List (Option (Int × Nat))) (children : Children)
  | other (type : DataType) (len : Nat)
  deriving DecidableEq, Repr

inductive Children where
  | nil
  | cons (child : ArrayData) (children : Children)
  deriving DecidableEq, Repr

end

def Children.toList : Children → List ArrayData
  | .nil => []
  | .cons child children => child :: children.toList

namespace ArrayData

def dataType : ArrayData → DataType
  | .null _ => .null
  | .scalars type _ => type
  | .list large field _ _ _ => if large then .largeList field else .list field
  | .struct fields _ _ => .struct fields
  | .dictionary key _ values => .dictionary key values.dataType
  | .union fields _ _ => .union fields .dense
  | .other type _ => type

def length : ArrayData → Nat
  | .null len => len
  | .scalars _ slots => slots.length
  | .list _ _ _ _ validity => validity.length
  | .struct _ _ validity => validity.length
  | .dictionary _ keys _ => keys.length
  | .union _ rows _ => rows.length
  | .other _ len => len

/-- `Array::is_null`, by the validity buffer: an array of the null type has none. -/
def isNull (self : ArrayData) (i : Nat) : Bool :=
  match self with
  | .scalars _ slots => slots[i]? == some none
  | .list _ _ _ _ validity => validity[i]? == some false
  | .struct _ _ validity => validity[i]? == some false
  | .dictionary _ keys _ => keys[i]? == some none
  | .null _ | .union _ _ _ | .other _ _ => false

/-- The value of slot `i`, if it has one. -/
def slot (self : ArrayData) (i : Nat) : Option Scalar :=
  match self with
  | .scalars _ slots => slots[i]?.join
  | _ => none

/-- Whether any slot is null. -/
def hasNulls (self : ArrayData) : Bool := (List.range self.length).any self.isNull

theorem isNull_of_length_le {self : ArrayData} {i : Nat} (h : self.length ≤ i) :
    self.isNull i = false := by
  cases self with
  | null | union | other => rfl
  | scalars _ slots => simp [isNull, List.getElem?_eq_none (l := slots) h]
  | list _ _ _ _ validity => simp [isNull, List.getElem?_eq_none (l := validity) h]
  | struct _ _ validity => simp [isNull, List.getElem?_eq_none (l := validity) h]
  | dictionary _ keys _ => simp [isNull, List.getElem?_eq_none (l := keys) h]

theorem hasNulls_eq_false {self : ArrayData} :
    self.hasNulls = false ↔ ∀ i, self.isNull i = false := by
  rw [hasNulls, List.any_eq_false]
  constructor
  · intro h i
    rcases Nat.lt_or_ge i self.length with hi | hi
    · exact Bool.eq_false_iff.mpr (h i (List.mem_range.mpr hi))
    · exact isNull_of_length_le hi
  · intro h i _
    exact Bool.eq_false_iff.mp (h i)

end ArrayData

/-! ## Logical values -/

/-- What a slot of an array means. -/
inductive Datum where
  | null
  | scalar (value : Scalar)
  | list (items : List Datum)
  | struct (fields : List Datum)

mutual

/-- The logical value of slot `i`: the elements of a list in order, the fields of a struct in order. -/
def ArrayData.read : ArrayData → Nat → Datum
  | .scalars _ slots, i => (slots[i]?.join.map Datum.scalar).getD .null
  | .list _ _ offsets child validity, i =>
    if validity[i]? = some true then
      let start := offsets.getD i 0
      .list ((List.range (offsets.getD (i + 1) 0 - start)).map fun j => child.read (start + j))
    else .null
  | .struct _ children validity, i =>
    if validity[i]? = some true then .struct (children.read i) else .null
  | .dictionary _ keys values, i => (keys[i]?.join.map values.read).getD .null
  | .union fields rows children, i =>
    (rows[i]?.join.map fun row => children.readUnion fields row.1 row.2).getD .null
  | .null _, _ | .other _ _, _ => .null

def Children.read : Children → Nat → List Datum
  | .nil, _ => []
  | .cons child children, i => child.read i :: children.read i

/-- The value at a place of the child with that type id. -/
def Children.readUnion : Children → UnionFields → Int → Nat → Datum
  | .cons child children, .cons id _ fields, typeId, i =>
    if id = typeId then child.read i else children.readUnion fields typeId i
  | _, _, _, _ => .null

end

/-! ## Valid arrays -/

/-- The types whose arrays are arrays of scalars. -/
def DataType.isScalar : DataType → Bool
  | .boolean | .int8 | .int16 | .int32 | .int64 | .uint8 | .uint16 | .uint32 | .float16 | .float32
  | .float64 | .timestamp _ _ | .date32 | .date64 | .binary | .fixedSizeBinary _ | .largeBinary
  | .binaryView | .utf8 | .largeUtf8 | .utf8View | .decimal128 _ _ => true
  | _ => false

/-- The signed integers of `w` bits. -/
def fitsSigned (w : Nat) (v : Int) : Bool := -2 ^ (w - 1) ≤ v ∧ v < 2 ^ (w - 1)

def fitsUnsigned (w : Nat) (v : Int) : Bool := 0 ≤ v ∧ v < 2 ^ w

/-- The values of a scalar type. -/
def Scalar.fits : DataType → Scalar → Bool
  | .boolean, .bool _ => true
  | .int8, .int v => fitsSigned 8 v
  | .int16, .int v => fitsSigned 16 v
  | .int32, .int v | .date32, .int v => fitsSigned 32 v
  | .int64, .int v | .date64, .int v | .timestamp _ _, .int v => fitsSigned 64 v
  | .uint8, .int v => fitsUnsigned 8 v
  | .uint16, .int v => fitsUnsigned 16 v
  | .uint32, .int v => fitsUnsigned 32 v
  | .decimal128 _ _, .int v => fitsSigned 128 v
  | .float16, .float16 _ | .float32, .float32 _ | .float64, .float64 _ => true
  | .utf8, .text _ | .largeUtf8, .text _ | .utf8View, .text _ => true
  | .binary, .bytes _ | .largeBinary, .bytes _ | .binaryView, .bytes _ => true
  | .fixedSizeBinary size, .bytes value => value.length == size
  | _, _ => false

/-- The types that have arrays of a kind of their own. -/
def DataType.isModelled : DataType → Bool
  | .null | .list _ | .largeList _ | .struct _ | .dictionary _ _ | .union _ .dense => true
  | type => type.isScalar

/-- The child of a union with that type id. -/
def Children.ofTypeId : Children → UnionFields → Int → Option ArrayData
  | .cons child children, .cons id _ fields, typeId =>
    if id = typeId then some child else children.ofTypeId fields typeId
  | _, _, _ => none

mutual

def ArrayData.Valid : ArrayData → Prop
  | .null _ => True
  | .scalars type slots =>
    type.isScalar = true ∧ ∀ slot ∈ slots, ∀ value ∈ slot, Scalar.fits type value = true
  | .list _ field offsets child validity =>
    offsets.length = validity.length + 1 ∧ offsets.Pairwise (· ≤ ·) ∧
      (∀ offset ∈ offsets, offset ≤ child.length) ∧ child.dataType = field.dataType ∧
      (field.isNullable = false → ∀ i, child.isNull i = false) ∧ child.Valid
  | .struct fields children validity => children.Valid fields validity
  | .dictionary _ keys values =>
    (∀ key ∈ keys, ∀ i ∈ key, i < values.length) ∧ values.Valid
  | .union fields rows children =>
    (∀ row ∈ rows, ∀ r ∈ row, ∃ child, children.ofTypeId fields r.1 = some child ∧
      r.2 < child.length) ∧ children.UnionValid fields
  | .other type _ => type.isModelled = false

/-- The children of a struct, one for each field. A field that is not nullable has nulls only where
the struct itself is null. -/
def Children.Valid : Children → Fields → List Bool → Prop
  | .nil, .nil, _ => True
  | .cons child children, .cons field fields, validity =>
    child.length = validity.length ∧ child.dataType = field.dataType ∧
      (field.isNullable = false → ∀ i, child.isNull i = true → validity[i]? = some false) ∧
      child.Valid ∧ children.Valid fields validity
  | _, _, _ => False

/-- The children of a union, one for each field. -/
def Children.UnionValid : Children → UnionFields → Prop
  | .nil, .nil => True
  | .cons child children, .cons _ field fields =>
    child.dataType = field.dataType ∧ child.Valid ∧ children.UnionValid fields
  | _, _ => False

end

/-- A record batch: columns of one length that have the types of their fields, and nulls only where
the fields allow them. -/
structure RecordBatch where
  schema : Schema
  columns : List ArrayData
  numRows : Nat
  types : columns.map ArrayData.dataType = schema.map Field.dataType
  lengths : ∀ column ∈ columns, column.length = numRows
  nulls : ∀ fc ∈ schema.zip columns, fc.1.isNullable = false → ∀ i, fc.2.isNull i = false
  valid : ∀ column ∈ columns, column.Valid

theorem RecordBatch.dataType_eq (batch : RecordBatch) {field : Field} {column : ArrayData}
    (h : (field, column) ∈ batch.schema.zip batch.columns) : column.dataType = field.dataType := by
  obtain ⟨i, hi, e⟩ := List.mem_iff_getElem.mp h
  rw [List.length_zip] at hi
  rw [List.getElem_zip, Prod.mk.injEq] at e
  have ht := congrArg (·[i]?) batch.types
  simp only [List.getElem?_map] at ht
  rw [List.getElem?_eq_getElem (by omega), List.getElem?_eq_getElem (by omega), e.1, e.2] at ht
  exact Option.some.inj ht

end Arrow
end SpannerAdbc
