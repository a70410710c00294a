import SpannerAdbc.Convert.Decode

/-!
# SpannerAdbc.Convert.Schema

The Arrow schema of a result set, from the column types that Spanner sends, and the batches built for
it. The walk over a type and the builders of arrays are separate; they agree because the walk yields
result types only (`arrowType_isResult`), and an array of a result type has that type.

The walk is cut off at a depth. Types that it does not descend into map to text: an array whose
elements are arrays or have no type, and a struct without field metadata.
-/

namespace SpannerAdbc
namespace Convert

open Arrow Lib
open SpannerAdbc.Stream (Value Row)

/-! ## Spanner types -/

inductive TypeCode where
  | unspecified
  | bool
  | int64
  | float64
  | float32
  | timestamp
  | date
  | string
  | bytes
  | array
  | struct
  | numeric
  | json
  | proto
  | enum
  | interval
  | uuid
  | unknown
  deriving DecidableEq, Repr

mutual

inductive SpannerType where
  | mk (code : TypeCode) (element : TypeRef) (struct : StructRef)
  deriving DecidableEq, Repr

/-- The type of an array's elements or of a field, if the metadata has one. -/
inductive TypeRef where
  | absent
  | of (type : SpannerType)
  deriving DecidableEq, Repr

inductive StructRef where
  | absent
  | of (fields : StructFields)
  deriving DecidableEq, Repr

inductive StructFields where
  | nil
  | cons (name : List Char) (type : TypeRef) (fields : StructFields)
  deriving DecidableEq, Repr

end

def SpannerType.code : SpannerType → TypeCode
  | .mk code _ _ => code

inductive TimestampPrecision where
  | nanosecondsErrorOnOverflow
  | microseconds
  deriving DecidableEq, Repr

def TimestampPrecision.timeUnit : TimestampPrecision → TimeUnit
  | .nanosecondsErrorOnOverflow => .nanosecond
  | .microseconds => .microsecond

/-! ## The walk -/

def listItem : List Char := "item".toList
def maxTypeNestingDepth : Nat := 100
def numericPrecision : Nat := 38
def timestampTz : List Char := "UTC".toList
def arrowExtensionMetadata : List Char := "ARROW:extension:metadata".toList

def jsonExtensionMetadata : List (List Char × List Char) :=
  [(arrowExtensionName, arrowJsonExtension), (arrowExtensionMetadata, [])]

def depthError : Error :=
  err ("nested STRUCT/ARRAY type exceeds the maximum depth of ".toList ++
    Nat.toDigits 10 maxTypeNestingDepth) .internal

/-- The guard of the walk. -/
def capped (depth : Nat) (type : Except Error DataType) : Except Error DataType :=
  if depth > maxTypeNestingDepth then .error depthError else type

/-- The field of a type; JSON is tagged. -/
def fieldOf (name : List Char) (code : TypeCode) (nullable : Bool) (type : DataType) : Field :=
  if code = .json then (Field.new name type nullable).withMetadata jsonExtensionMetadata
  else Field.new name type nullable

/-- Elements that make an array fall back to text. -/
def TypeCode.isText (code : TypeCode) : Bool := code == .array || code == .unspecified

section Walk

variable (precision : TimestampPrecision)

mutual

def arrowType : SpannerType → Nat → Except Error DataType
  | .mk code element struct, depth => capped depth <|
    match code with
    | .bool => .ok .boolean
    | .int64 => .ok .int64
    | .float64 => .ok .float64
    | .float32 => .ok .float32
    | .bytes => .ok .binary
    | .date => .ok .date32
    | .timestamp => .ok (.timestamp precision.timeUnit (some timestampTz))
    | .numeric => .ok (.decimal128 numericPrecision numericScale)
    | .struct => structArrowType struct depth
    | .array => arrayArrowType element depth
    | .enum => .ok .int64
    | .proto => .ok .binary
    | .string | .json | .interval | .uuid | .unspecified | .unknown => .ok .utf8

/-- The arm of arrays. -/
def arrayArrowType : TypeRef → Nat → Except Error DataType
  | .of element, depth =>
    if element.code.isText then .ok .utf8
    else do return .list (fieldOf listItem element.code true (← arrowType element (depth + 1)))
  | .absent, _ => .ok .utf8

def structArrowType : StructRef → Nat → Except Error DataType
  | .of fields, depth => do return .struct (← structFields fields depth)
  | .absent, _ => .ok .utf8

/-- A field without a type has the default type, which has no code. -/
def structFields : StructFields → Nat → Except Error Fields
  | .nil, _ => .ok .nil
  | .cons name (.of type) fields, depth => do
    let field := fieldOf name type.code true (← arrowType type (depth + 1))
    return .cons field (← structFields fields depth)
  | .cons name .absent fields, depth => do
    let field := fieldOf name .unspecified true (← capped (depth + 1) (.ok .utf8))
    return .cons field (← structFields fields depth)

end

def arrowFieldAt (name : List Char) (type : SpannerType) (nullable : Bool) (depth : Nat) :
    Except Error Field := do
  return fieldOf name type.code nullable (← arrowType precision type depth)

def arrowField (name : List Char) (type : SpannerType) (nullable : Bool) : Except Error Field :=
  arrowFieldAt precision name type nullable 0

end Walk

/-! ## Schemas and batches -/

structure Metadata where
  columnNames : List (List Char)
  columnTypes : List SpannerType

variable (C : Decoder)

/-- Prefix an error with the name of its column. -/
def nameColumn (name : List Char) (e : Error) : Error :=
  annotate e fun message => "column ".toList ++ C.debug name ++ ": ".toList ++ message

/-- The field of column `i`. -/
def schemaField (md : Metadata) (precision : TimestampPrecision) (column : List Char × Nat) :
    Except Error Field :=
  match md.columnTypes[column.2]? with
  | some type => (arrowField precision column.1 type true).mapError (nameColumn C column.1)
  | none => .ok (Field.new column.1 .utf8 true)

/-- The columns of a row that comes without metadata. -/
def untypedSchema (width : Nat) : Schema :=
  (List.range width).map fun i => Field.new ("col".toList ++ Nat.toDigits 10 i) .utf8 true

def buildSchema (metadata : Option Metadata) (firstRow : Option Row)
    (precision : TimestampPrecision) : Except Error Schema :=
  let width := (firstRow.map List.length).getD 0
  match metadata with
  | some md =>
    if md.columnNames ≠ [] then md.columnNames.zipIdx.mapM (schemaField C md precision)
    else .ok (untypedSchema width)
  | none => .ok (untypedSchema width)

/-- The values of column `i`; a row may be too short. -/
def columnValues (rows : List Row) (i : Nat) : List (Option Value) := rows.map fun row => row[i]?

def buildColumn (field : Field) (values : List (Option Value)) : Except Failure ArrayData :=
  (buildArray C field.dataType values).mapError fun
    | .error e => .error (nameColumn C field.name e)
    | .unwind => .unwind

def buildColumns (schema : Schema) (rows : List Row) : Except Failure (List ArrayData) :=
  schema.zipIdx.mapM fun column => buildColumn C column.1 (columnValues rows column.2)

variable {C}

theorem buildColumn_eq_ok {field : Field} {values : List (Option Value)} {a : ArrayData} :
    buildColumn C field values = .ok a ↔ buildArray C field.dataType values = .ok a :=
  mapError_eq_ok

theorem valid_of_buildColumns {schema : Schema} {rows : List Row} {columns : List ArrayData}
    (h : buildColumns C schema rows = .ok columns) : ∀ column ∈ columns, column.Valid := by
  replace h := mapM_eq_ok.mp h
  generalize schema.zipIdx = indexed at h
  induction h with
  | nil => simp
  | cons hbuild _ ih =>
    exact List.forall_mem_cons.mpr ⟨valid_of_build _ (buildColumn_eq_ok.mp hbuild), ih⟩

variable (C)

def batchError (e : ArrowError) : Failure :=
  .error (err ("failed to build record batch: ".toList ++ C.arrowMessage e) .internal)

def buildBatch (schema : Schema) (rows : List Row) : Except Failure RecordBatch :=
  match h : buildColumns C schema rows with
  | .error f => .error f
  | .ok columns =>
    (RecordBatch.tryNew schema columns (valid_of_buildColumns h)).mapError (batchError C)

/-! ## Nesting -/

mutual

/-- The lists and structs around the innermost part of a type. A type that falls back to text counts
as a leaf. -/
def nesting : SpannerType → Nat
  | .mk code element struct =>
    match code with
    | .array => elementNesting element
    | .struct => structNesting struct
    | _ => 0

def elementNesting : TypeRef → Nat
  | .of type => if type.code.isText then 0 else nesting type + 1
  | .absent => 0

def structNesting : StructRef → Nat
  | .of fields => fieldsNesting fields
  | .absent => 0

def fieldsNesting : StructFields → Nat
  | .nil => 0
  | .cons _ (.of type) fields => max (nesting type + 1) (fieldsNesting fields)
  | .cons _ .absent fields => max 1 (fieldsNesting fields)

end

mutual

/-- The arrays and structs around the innermost part of a type, whatever they map to. -/
def levels : SpannerType → Nat
  | .mk code element struct =>
    match code with
    | .array => elementLevels element
    | .struct => structLevels struct
    | _ => 0

def elementLevels : TypeRef → Nat
  | .of type => levels type + 1
  | .absent => 0

def structLevels : StructRef → Nat
  | .of fields => fieldsLevels fields
  | .absent => 0

def fieldsLevels : StructFields → Nat
  | .nil => 0
  | .cons _ (.of type) fields => max (levels type + 1) (fieldsLevels fields)
  | .cons _ .absent fields => max 1 (fieldsLevels fields)

end

mutual

/-- The types that Spanner has: no array of arrays, and all types are given. -/
def isRegular : SpannerType → Bool
  | .mk code element struct =>
    match code with
    | .array => isRegularElement element
    | .struct => isRegularStruct struct
    | _ => true

def isRegularElement : TypeRef → Bool
  | .of type => !type.code.isText && isRegular type
  | .absent => false

def isRegularStruct : StructRef → Bool
  | .of fields => areRegular fields
  | .absent => false

def areRegular : StructFields → Bool
  | .nil => true
  | .cons _ (.of type) fields => isRegular type && areRegular fields
  | .cons _ .absent _ => false

end

mutual

/-- Every struct has at least one field. -/
def hasFields : SpannerType → Bool
  | .mk code element struct =>
    match code with
    | .array => elementHasFields element
    | .struct => structHasFields struct
    | _ => true

def elementHasFields : TypeRef → Bool
  | .of type => hasFields type
  | .absent => true

def structHasFields : StructRef → Bool
  | .of .nil => false
  | .of (.cons name type fields) => fieldsHaveFields (.cons name type fields)
  | .absent => true

def fieldsHaveFields : StructFields → Bool
  | .nil => true
  | .cons _ (.of type) fields => hasFields type && fieldsHaveFields fields
  | .cons _ .absent fields => fieldsHaveFields fields

end

section Walks

variable {precision : TimestampPrecision}

theorem capped_of_le {depth : Nat} (h : depth ≤ maxTypeNestingDepth)
    (type : Except Error DataType) : capped depth type = type := if_neg (Nat.not_lt.mpr h)

theorem capped_of_lt {depth : Nat} (h : maxTypeNestingDepth < depth)
    (type : Except Error DataType) : capped depth type = .error depthError := if_pos h

theorem fieldOf_eq (name : List Char) (code : TypeCode) (nullable : Bool) (type : DataType) :
    ∃ metadata, fieldOf name code nullable type = .mk name type nullable metadata := by
  rw [fieldOf]
  split
  · exact ⟨jsonExtensionMetadata, rfl⟩
  · exact ⟨[], rfl⟩

mutual

/-- Within the cap the walk finds a type. -/
theorem arrowType_of_le : ∀ (type : SpannerType) (depth : Nat),
    depth + nesting type ≤ maxTypeNestingDepth →
      ∃ arrow, arrowType precision type depth = .ok arrow
  | .mk code element struct, depth, h => by
    rw [arrowType.eq_def]
    simp only [capped_of_le (show depth ≤ maxTypeNestingDepth by omega)]
    cases code with
    | array =>
      cases element with
      | absent => exact ⟨_, rfl⟩
      | of type =>
        simp only [nesting, elementNesting] at h
        simp only [arrayArrowType]
        split
        · exact ⟨_, rfl⟩
        · rename_i htext
          rw [if_neg htext] at h
          obtain ⟨arrow, harrow⟩ := arrowType_of_le type (depth + 1) (by omega)
          exact ⟨_, bind_eq_ok.mpr ⟨arrow, harrow, rfl⟩⟩
    | struct =>
      cases struct with
      | absent => exact ⟨_, rfl⟩
      | of fields =>
        obtain ⟨arrows, harrows⟩ := structFields_of_le fields (show depth ≤ _ by omega) h
        exact ⟨_, bind_eq_ok.mpr ⟨arrows, harrows, rfl⟩⟩
    | _ => exact ⟨_, rfl⟩

theorem structFields_of_le : ∀ (fields : StructFields) {depth : Nat},
    depth ≤ maxTypeNestingDepth → depth + fieldsNesting fields ≤ maxTypeNestingDepth →
      ∃ arrows, structFields precision fields depth = .ok arrows
  | .nil, _, _, _ => ⟨_, rfl⟩
  | .cons name (.of type) fields, depth, hd, h => by
    rw [fieldsNesting] at h
    obtain ⟨arrow, harrow⟩ := arrowType_of_le type (depth + 1) (by omega)
    obtain ⟨arrows, harrows⟩ := structFields_of_le fields hd (by omega)
    exact ⟨_, bind_eq_ok.mpr ⟨arrow, harrow, bind_eq_ok.mpr ⟨arrows, harrows, rfl⟩⟩⟩
  | .cons name .absent fields, depth, hd, h => by
    rw [fieldsNesting] at h
    obtain ⟨arrows, harrows⟩ := structFields_of_le fields hd (by omega)
    exact ⟨_, bind_eq_ok.mpr ⟨.utf8, capped_of_le (by omega) _,
      bind_eq_ok.mpr ⟨arrows, harrows, rfl⟩⟩⟩

end

mutual

/-- Beyond the cap the walk fails, and always with the same error. -/
theorem arrowType_of_lt : ∀ (type : SpannerType) (depth : Nat),
    maxTypeNestingDepth < depth + nesting type →
      arrowType precision type depth = .error depthError
  | .mk code element struct, depth, h => by
    rw [arrowType.eq_def]
    rcases Nat.lt_or_ge maxTypeNestingDepth depth with hd | hd
    · exact capped_of_lt hd _
    simp only [capped_of_le hd]
    cases code with
    | array =>
      cases element with
      | absent => exact absurd h (Nat.not_lt.mpr hd)
      | of type =>
        simp only [nesting, elementNesting] at h
        simp only [arrayArrowType]
        split
        · rename_i htext
          rw [if_pos htext] at h
          exact absurd h (Nat.not_lt.mpr hd)
        · rename_i htext
          rw [if_neg htext] at h
          rw [arrowType_of_lt type (depth + 1) (by omega)]
          rfl
    | struct =>
      cases struct with
      | absent => exact absurd h (Nat.not_lt.mpr hd)
      | of fields =>
        simp only [structArrowType, structFields_of_lt fields hd h]
        rfl
    | _ => exact absurd h (Nat.not_lt.mpr hd)

theorem structFields_of_lt : ∀ (fields : StructFields) {depth : Nat},
    depth ≤ maxTypeNestingDepth → maxTypeNestingDepth < depth + fieldsNesting fields →
      structFields precision fields depth = .error depthError
  | .nil, _, hd, h => absurd h (Nat.not_lt.mpr hd)
  | .cons name (.of type) fields, depth, hd, h => by
    rw [fieldsNesting] at h
    rw [structFields]
    rcases Nat.lt_or_ge maxTypeNestingDepth (depth + 1 + nesting type) with ht | ht
    · rw [arrowType_of_lt type _ ht]
      rfl
    · obtain ⟨arrow, harrow⟩ : ∃ arrow, arrowType precision type (depth + 1) = .ok arrow :=
        arrowType_of_le type _ ht
      rw [harrow, structFields_of_lt fields hd (by omega)]
      rfl
  | .cons name .absent fields, depth, hd, h => by
    rw [fieldsNesting] at h
    rw [structFields]
    rcases Nat.lt_or_ge maxTypeNestingDepth (depth + 1) with ht | ht
    · rw [capped_of_lt ht]
      rfl
    · rw [capped_of_le ht, structFields_of_lt fields hd (by omega)]
      rfl

end

theorem isResult_list_fieldOf (code : TypeCode) (arrow : DataType) :
    isResult (.list (fieldOf listItem code true arrow)) = isResult arrow := by
  obtain ⟨metadata, e⟩ := fieldOf_eq listItem code true arrow
  rw [e, isResult, Bool.true_and]

theorem areResults_cons_fieldOf (name : List Char) (code : TypeCode) (arrow : DataType)
    (arrows : Fields) :
    areResults (.cons (fieldOf name code true arrow) arrows) =
      (isResult arrow && areResults arrows) := by
  obtain ⟨metadata, e⟩ := fieldOf_eq name code true arrow
  rw [e, areResults, Bool.true_and]

mutual

/-- The walk yields types of result columns. -/
theorem arrowType_isResult : ∀ (type : SpannerType) {depth : Nat} {arrow : DataType},
    hasFields type = true → arrowType precision type depth = .ok arrow → isResult arrow = true
  | .mk code element struct, depth, arrow, hf, h => by
    rcases Nat.lt_or_ge maxTypeNestingDepth depth with hd | hd
    · rw [arrowType_of_lt _ _ (Nat.lt_add_right _ hd)] at h
      cases h
    rw [arrowType.eq_def] at h
    simp only [capped_of_le hd] at h
    cases code with
    | array =>
      cases element with
      | absent =>
        obtain rfl := Except.ok.inj h
        rfl
      | of type =>
        simp only [arrayArrowType] at h
        split at h
        · obtain rfl := Except.ok.inj h
          rfl
        · obtain ⟨item, hitem, h⟩ := bind_eq_ok.mp h
          obtain rfl := Except.ok.inj h
          rw [isResult_list_fieldOf]
          exact arrowType_isResult type hf hitem
    | struct =>
      cases struct with
      | absent =>
        obtain rfl := Except.ok.inj h
        rfl
      | of fields =>
        obtain ⟨arrows, harrows, h⟩ := bind_eq_ok.mp h
        obtain rfl := Except.ok.inj h
        cases fields with
        | nil => cases hf
        | cons name type fields =>
          obtain ⟨hresults, hlen⟩ := structFields_areResults (.cons name type fields) hf harrows
          simp [isResult, hresults, hlen]
    | timestamp =>
      obtain rfl := Except.ok.inj h
      cases precision <;> rfl
    | _ =>
      obtain rfl := Except.ok.inj h
      rfl

theorem structFields_areResults : ∀ (fields : StructFields) {depth : Nat} {arrows : Fields},
    fieldsHaveFields fields = true → structFields precision fields depth = .ok arrows →
      areResults arrows = true ∧ (fields ≠ .nil → arrows.toList.isEmpty = false)
  | .nil, depth, arrows, _, h => by
    obtain rfl := Except.ok.inj h
    exact ⟨rfl, fun h => absurd rfl h⟩
  | .cons name (.of type) fields, depth, arrows, hf, h => by
    simp only [fieldsHaveFields, Bool.and_eq_true] at hf
    obtain ⟨arrow, harrow, h⟩ := bind_eq_ok.mp h
    obtain ⟨rest, hrest, h⟩ := bind_eq_ok.mp h
    obtain rfl := Except.ok.inj h
    rw [areResults_cons_fieldOf, arrowType_isResult type hf.1 harrow,
      (structFields_areResults fields hf.2 hrest).1]
    exact ⟨rfl, fun _ => rfl⟩
  | .cons name .absent fields, depth, arrows, hf, h => by
    obtain ⟨arrow, harrow, h⟩ := bind_eq_ok.mp h
    obtain ⟨rest, hrest, h⟩ := bind_eq_ok.mp h
    obtain rfl := Except.ok.inj h
    have htext : isResult arrow = true := by
      rw [capped] at harrow
      split at harrow
      · cases harrow
      · obtain rfl := Except.ok.inj harrow
        rfl
    rw [areResults_cons_fieldOf, htext, (structFields_areResults fields hf hrest).1]
    exact ⟨rfl, fun _ => rfl⟩

end

mutual

/-- For the types that Spanner has, the nesting is that of the arrays and structs. -/
theorem nesting_eq_levels : ∀ (type : SpannerType), isRegular type = true →
    nesting type = levels type
  | .mk code element struct, h => by
    cases code with
    | array =>
      cases element with
      | absent => rfl
      | of type =>
        simp only [isRegular, isRegularElement, Bool.and_eq_true, Bool.not_eq_true'] at h
        simp [nesting, elementNesting, levels, elementLevels, h.1, nesting_eq_levels type h.2]
    | struct =>
      cases struct with
      | absent => rfl
      | of fields => exact fieldsNesting_eq_fieldsLevels fields h
    | _ => rfl

theorem fieldsNesting_eq_fieldsLevels : ∀ (fields : StructFields), areRegular fields = true →
    fieldsNesting fields = fieldsLevels fields
  | .nil, _ => rfl
  | .cons _ .absent _, h => nomatch h
  | .cons name (.of type) fields, h => by
    simp only [areRegular, Bool.and_eq_true] at h
    rw [fieldsNesting, fieldsLevels, nesting_eq_levels type h.1,
      fieldsNesting_eq_fieldsLevels fields h.2]

end

end Walks

/-! ## Batches -/

section Batches

variable {C} {schema : Schema} {rows : List Row} {columns : List ArrayData}

theorem facts_of_buildColumns (hres : ∀ field ∈ schema, isResult field.dataType = true)
    (h : buildColumns C schema rows = .ok columns) :
    columns.map ArrayData.dataType = schema.map Field.dataType ∧
      ∀ column ∈ columns, column.length = rows.length := by
  replace h := mapM_eq_ok.mp h
  have hmem : ∀ x ∈ schema.zipIdx, isResult x.1.dataType = true := fun x hx =>
    hres x.1 (List.mem_of_getElem? (List.mem_zipIdx_iff_getElem?.mp hx))
  rw [← List.zipIdx_map_fst 0 schema]
  generalize schema.zipIdx = indexed at h hmem
  induction h with
  | nil => simp
  | cons hbuild _ ih =>
    obtain ⟨hfield, hrest⟩ := List.forall_mem_cons.mp hmem
    obtain ⟨htypes, hlens⟩ := ih hrest
    have hcol := column_of_build _ hfield (buildColumn_eq_ok.mp hbuild)
    refine ⟨?_, List.forall_mem_cons.mpr ⟨?_, hlens⟩⟩
    · rw [List.map_cons, List.map_cons, List.map_cons, htypes, hcol.dataType]
    · rw [hcol.length, columnValues, List.length_map]

theorem buildBatch_eq (h : buildColumns C schema rows = .ok columns) :
    buildBatch C schema rows =
      (RecordBatch.tryNew schema columns (valid_of_buildColumns h)).mapError (batchError C) := by
  unfold buildBatch
  split
  · rename_i h'
    rw [h] at h'
    cases h'
  · rename_i h'
    rw [h] at h'
    cases h'
    rfl

/-- A batch of a schema of result types is built exactly when the values of its columns decode and
fit. The constructor of the batch finds nothing to refuse. -/
theorem buildBatch_iff (hne : schema ≠ []) (hnull : ∀ field ∈ schema, field.isNullable = true)
    (hres : ∀ field ∈ schema, isResult field.dataType = true) :
    (∃ batch, buildBatch C schema rows = .ok batch ∧ batch.schema = schema ∧
        batch.numRows = rows.length) ↔
      ∀ i field, schema[i]? = some field → Decodable C field.dataType (columnValues rows i) := by
  constructor
  · rintro ⟨batch, h, -, -⟩ i field hi
    unfold buildBatch at h
    split at h
    · cases h
    · rename_i columns hcolumns
      obtain ⟨a, -, ha⟩ := step_of_mapM hcolumns (field, i) (List.mem_zipIdx_iff_getElem?.mpr hi)
      exact (build_iff (hres field (List.mem_of_getElem? hi))).mp ⟨a, buildColumn_eq_ok.mp ha⟩
  · intro h
    obtain ⟨columns, hcolumns⟩ : ∃ columns, buildColumns C schema rows = .ok columns := by
      refine exists_mapM fun x hx => ?_
      have hi := List.mem_zipIdx_iff_getElem?.mp hx
      obtain ⟨a, ha⟩ := (build_iff (hres x.1 (List.mem_of_getElem? hi))).mpr (h x.2 x.1 hi)
      exact ⟨a, buildColumn_eq_ok.mpr ha⟩
    obtain ⟨htypes, hlens⟩ := facts_of_buildColumns hres hcolumns
    have hcols : columns ≠ [] := by
      rintro rfl
      exact hne (List.map_eq_nil_iff.mp htypes.symm)
    obtain ⟨batch, hbatch, hschema, -, hrows⟩ :=
      RecordBatch.tryNew_eq_ok (valid_of_buildColumns hcolumns) hcols hnull hlens htypes
    refine ⟨batch, ?_, hschema, hrows⟩
    rw [buildBatch_eq hcolumns]
    exact mapError_eq_ok.mpr hbatch

end Batches

/-! ## Schemas -/

section Schemas

variable {C} {md : Metadata} {precision : TimestampPrecision} {column : List Char × Nat}

/-- The columns that have types within the cap. -/
def WithinCap (md : Metadata) : Prop :=
  ∀ i < md.columnNames.length, ∀ type, md.columnTypes[i]? = some type →
    nesting type ≤ maxTypeNestingDepth

theorem arrowField_eq_ok {name : List Char} {type : SpannerType} {nullable : Bool} {field : Field} :
    arrowField precision name type nullable = .ok field ↔
      ∃ arrow, arrowType precision type 0 = .ok arrow ∧
        field = fieldOf name type.code nullable arrow := by
  rw [arrowField, arrowFieldAt, bind_eq_ok]
  exact exists_congr fun arrow => and_congr_right fun _ =>
    ⟨fun h => (Except.ok.inj h).symm, fun h => h ▸ rfl⟩

theorem schemaField_facts {field : Field} (hf : ∀ type ∈ md.columnTypes, hasFields type = true)
    (h : schemaField C md precision column = .ok field) :
    field.name = column.1 ∧ field.isNullable = true ∧ isResult field.dataType = true := by
  rw [schemaField] at h
  split at h
  · rename_i type htype
    obtain ⟨arrow, harrow, rfl⟩ := arrowField_eq_ok.mp (mapError_eq_ok.mp h)
    obtain ⟨metadata, e⟩ := fieldOf_eq column.1 type.code true arrow
    rw [e]
    exact ⟨rfl, rfl, arrowType_isResult type (hf type (List.mem_of_getElem? htype)) harrow⟩
  · obtain rfl := Except.ok.inj h
    exact ⟨rfl, rfl, rfl⟩

theorem schemaField_iff :
    (∃ field, schemaField C md precision column = .ok field) ↔
      ∀ type, md.columnTypes[column.2]? = some type → nesting type ≤ maxTypeNestingDepth := by
  rw [schemaField]
  cases htype : md.columnTypes[column.2]? with
  | none => simp
  | some type =>
    simp only [mapError_eq_ok, arrowField_eq_ok, Option.some.injEq, forall_eq']
    constructor
    · rintro ⟨field, arrow, harrow, -⟩
      by_contra hlt
      rw [arrowType_of_lt type 0 (by omega)] at harrow
      cases harrow
    · intro hle
      obtain ⟨arrow, harrow⟩ := arrowType_of_le type 0 (by omega)
      exact ⟨_, arrow, harrow, rfl⟩

variable {first : Option Row}

theorem buildSchema_eq (hnames : md.columnNames ≠ []) :
    buildSchema C (some md) first precision =
      md.columnNames.zipIdx.mapM (schemaField C md precision) := if_pos hnames

theorem buildSchema_iff (hnames : md.columnNames ≠ []) :
    (∃ schema, buildSchema C (some md) first precision = .ok schema) ↔ WithinCap md := by
  rw [buildSchema_eq hnames]
  constructor
  · rintro ⟨schema, h⟩ i hi
    have hmem : (md.columnNames[i], i) ∈ md.columnNames.zipIdx :=
      List.mem_zipIdx_iff_getElem?.mpr (List.getElem?_eq_getElem hi)
    obtain ⟨field, -, hfield⟩ := step_of_mapM h _ hmem
    exact schemaField_iff.mp ⟨field, hfield⟩
  · intro h
    refine exists_mapM fun column hcolumn => schemaField_iff.mpr (h column.2 ?_)
    exact (List.getElem?_eq_some_iff.mp (List.mem_zipIdx_iff_getElem?.mp hcolumn)).1

theorem buildSchema_facts {schema : Schema} (hnames : md.columnNames ≠ [])
    (hf : ∀ type ∈ md.columnTypes, hasFields type = true)
    (h : buildSchema C (some md) first precision = .ok schema) :
    schema.map Field.name = md.columnNames ∧ (∀ field ∈ schema, field.isNullable = true) ∧
      ∀ field ∈ schema, isResult field.dataType = true := by
  rw [buildSchema_eq hnames] at h
  replace h := mapM_eq_ok.mp h
  rw [← List.zipIdx_map_fst 0 md.columnNames]
  generalize md.columnNames.zipIdx = indexed at h
  induction h with
  | nil => simp
  | cons hfield _ ih =>
    obtain ⟨hname, hnull, hres⟩ := schemaField_facts hf hfield
    obtain ⟨hnames, hnulls, hress⟩ := ih
    exact ⟨by rw [List.map_cons, List.map_cons, hname, hnames],
      List.forall_mem_cons.mpr ⟨hnull, hnulls⟩, List.forall_mem_cons.mpr ⟨hres, hress⟩⟩

end Schemas

/-- The schema and the data agree. Within the cap, a type has an Arrow type that is the type of
every array built for it, and `Valid` says so of the arrays inside; beyond the cap it has none. A
schema exists exactly when all its columns are within the cap, and a batch of it is then refused only
for values that do not decode or fit. -/
theorem advertised_eq_delivered (C : Decoder) (precision : TimestampPrecision) :
    (∀ type, hasFields type = true →
      (nesting type ≤ maxTypeNestingDepth →
        ∃ arrow, arrowType precision type 0 = .ok arrow ∧
          ∀ values, Decodable C arrow values →
            ∃ a, buildArray C arrow values = .ok a ∧ a.dataType = arrow ∧ a.Valid) ∧
      (maxTypeNestingDepth < nesting type →
        arrowType precision type 0 = .error depthError) ∧
      (isRegular type = true → nesting type = levels type)) ∧
    ∀ md first, md.columnNames ≠ [] → (∀ type ∈ md.columnTypes, hasFields type = true) →
      ((∃ schema, buildSchema C (some md) first precision = .ok schema) ↔ WithinCap md) ∧
      ∀ schema, buildSchema C (some md) first precision = .ok schema →
        schema.map Field.name = md.columnNames ∧
        ∀ rows, (∃ batch, buildBatch C schema rows = .ok batch ∧ batch.schema = schema ∧
            batch.numRows = rows.length) ↔
          ∀ i field, schema[i]? = some field →
            Decodable C field.dataType (columnValues rows i) := by
  refine ⟨fun type hf => ⟨fun hle => ?_, fun hlt => arrowType_of_lt type 0 (by omega),
    nesting_eq_levels type⟩, fun md first hnames hf => ⟨buildSchema_iff hnames, fun schema h => ?_⟩⟩
  · obtain ⟨arrow, harrow⟩ : ∃ arrow, arrowType precision type 0 = .ok arrow :=
      arrowType_of_le type 0 (by omega)
    have hr := arrowType_isResult type hf harrow
    refine ⟨arrow, harrow, fun values hvalues => ?_⟩
    obtain ⟨a, ha⟩ := (build_iff hr).mpr hvalues
    have hcol := column_of_build arrow hr ha
    exact ⟨a, ha, hcol.dataType, hcol.valid⟩
  · obtain ⟨hname, hnull, hres⟩ := buildSchema_facts hnames hf h
    refine ⟨hname, fun rows => buildBatch_iff ?_ hnull hres⟩
    rintro rfl
    exact hnames hname.symm

/-- An array of structs with a timestamp and a JSON field. -/
def events : SpannerType :=
  .mk .array (.of (.mk .struct .absent (.of
    (.cons "at".toList (.of (.mk .timestamp .absent .absent))
      (.cons "body".toList (.of (.mk .json .absent .absent)) .nil))))) .absent

/-- Structs, one inside the other. -/
def tower : Nat → SpannerType
  | 0 => .mk .bool .absent .absent
  | n + 1 => .mk .struct .absent (.of (.cons [] (.of (tower n)) .nil))

theorem nesting_tower (n : Nat) : nesting (tower n) = n := by
  induction n with
  | zero => rfl
  | succ n ih => simp [tower, nesting, structNesting, fieldsNesting, ih]

theorem hasFields_tower (n : Nat) : hasFields (tower n) = true := by
  induction n with
  | zero => rfl
  | succ n ih => simp [tower, hasFields, structHasFields, fieldsHaveFields, ih]

theorem advertised_eq_delivered_events :
    (∃ arrow, arrowType .microseconds events 0 = .ok arrow ∧
      ∃ a, buildArray plainDecoder arrow [none, some (.list [.null])] = .ok a ∧
        a.dataType = arrow ∧ a.Valid) ∧
    arrowType .microseconds (tower 101) 0 = .error depthError ∧
    ∃ schema, buildSchema plainDecoder (some ⟨["events".toList], [events]⟩) none .microseconds =
        .ok schema ∧
      ∃ batch, buildBatch plainDecoder schema [] = .ok batch ∧ batch.schema = schema ∧
        batch.numRows = 0 := by
  obtain ⟨htypes, hbatches⟩ := advertised_eq_delivered plainDecoder .microseconds
  have hle : nesting events ≤ maxTypeNestingDepth := by decide
  refine ⟨?_, ?_, ?_⟩
  · obtain ⟨arrow, harrow, hbuild⟩ := (htypes events (by decide)).1 hle
    refine ⟨arrow, harrow, hbuild _ ?_⟩
    obtain rfl := Except.ok.inj (harrow.symm.trans rfl)
    have hlists : ([none, some (.list [.null])].flatMap elements).length ≤ maxOffset := by decide
    exact ⟨by decide, ⟨hlists, trivial, trivial, trivial⟩, ⟨trivial, rfl, rfl, trivial⟩⟩
  · exact (htypes (tower 101) (hasFields_tower 101)).2.1 (by rw [nesting_tower]; decide)
  · have hf : ∀ type ∈ [events], hasFields type = true := by decide
    obtain ⟨hschema, hbatch⟩ := hbatches ⟨["events".toList], [events]⟩ none (by simp) hf
    have hcap : WithinCap ⟨["events".toList], [events]⟩ := fun i _ type h => by
      have : type = events := by simpa using List.mem_of_getElem? h
      exact this ▸ hle
    obtain ⟨schema, h⟩ := hschema.mpr hcap
    refine ⟨schema, h, ((hbatch schema h).2 []).mpr fun i field hi => ?_⟩
    obtain rfl := Except.ok.inj (h.symm.trans rfl)
    obtain rfl := List.mem_singleton.mp (List.mem_of_getElem? hi)
    exact ⟨by simp [columnValues], ⟨Nat.zero_le _, trivial, trivial, trivial⟩,
      ⟨trivial, rfl, rfl, trivial⟩⟩

end Convert
end SpannerAdbc
