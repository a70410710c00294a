import SpannerAdbc.Binding.Cell
import SpannerAdbc.Binding.Table

/-!
# SpannerAdbc.Binding.Agree

A bulk ingest that creates its table maps each column twice: `create_table_sql` maps its type to a
column type, and `cell_value` maps its cells to wire values. Here is which of the schemas that the
first accepts never have a cell that the second refuses because of its type.

* `clean_cellValue`: the cells of a `bindable` type are refused for their value only.
* `exists_refused`: every other type that a column can be created for has a valid array with a cell
  that is refused for its type.
-/

namespace SpannerAdbc
namespace Binding

open Arrow Sql Lib

variable {α β : Type} {type : DataType} {r : Except BindError α}

/-- Fails, if at all, because of a value. -/
def Clean (r : Except BindError α) : Prop := ∀ e, r = .error e → e.ofType = false

namespace Clean

theorem ok (a : α) : Clean (.ok a : Except BindError α) := fun _ h => nomatch h

variable {f : α → Except BindError β} {r : Except BindError α}

theorem bind (hr : Clean r) (hf : ∀ a, Clean (f a)) : Clean (r >>= f) := by
  cases r with
  | error e => exact fun e' h => hr e' (by rw [Except.error.inj h])
  | ok a => exact hf a

theorem map (hr : Clean r) (f : α → β) : Clean (r.map f) := by
  cases r with
  | error e => exact fun e' h => hr e' (by rw [Except.error.inj h])
  | ok a => exact ok (f a)

theorem mapM {as : List α} (hf : ∀ a, Clean (f a)) :
    Clean (as.mapM f) := by
  induction as with
  | nil => exact ok []
  | cons a as ih =>
    rw [List.mapM_cons]
    exact (hf a).bind fun b => ih.bind fun bs => ok (b :: bs)

end Clean

/-- Refused because of a type. -/
def Refused (r : Except BindError α) : Prop := ∃ e, r = .error e ∧ e.ofType = true

theorem Refused.not_clean (h : Refused r) : ¬ Clean r := by
  obtain ⟨e, he, ht⟩ := h
  exact fun hc => by simp [hc e he] at ht

/-! ## Types that bind -/

/-- The scalar types that bind for every value and for null. -/
def bindsScalar : DataType → Bool
  | .decimal128 _ scale => 0 ≤ scale ∧ scale ≤ 38
  | .null => true
  | type => type.isScalar

/-- The types of a column that bind for every row, in a column with or without nulls. A null key of
a dictionary asks for a scalar or list of scalars as the value type, where any other key would have
looked through a second dictionary. -/
def bindable (nullable : Bool) : DataType → Bool
  | .list (.mk _ item _ _) | .largeList (.mk _ item _ _) => bindsScalar item
  | .dictionary _ value => (!nullable || !value.isDictionary) && bindable true value
  | type => bindsScalar type

@[simp] theorem bindable_list (nullable : Bool) (item : Field) :
    bindable nullable (.list item) = bindsScalar item.dataType := by
  cases item
  rfl

@[simp] theorem bindable_largeList (nullable : Bool) (item : Field) :
    bindable nullable (.largeList item) = bindsScalar item.dataType := by
  cases item
  rfl

/-- Neither a list nor a dictionary. -/
def isFlat : DataType → Bool
  | .list _ | .largeList _ | .dictionary _ _ => false
  | _ => true

theorem bindable_of_isFlat (h : isFlat type = true) (nullable : Bool) :
    bindable nullable type = bindsScalar type := by
  cases type with
  | list | largeList | dictionary => cases h
  | _ => rfl

variable {C : Codec} {name : List Char} {field : Field} {s : List Char} {D : TypeDebug}
  {values column : ArrayData}

theorem clean_dateString (name : List Char) (days : Int) : Clean (dateString name days) := by
  intro e h
  simp only [dateString] at h
  split at h
  · cases h
  · rw [← Except.error.inj h]
    rfl

theorem clean_date64Days (name : List Char) (millis : Int) : Clean (date64Days name millis) := by
  intro e h
  simp only [date64Days] at h
  split at h
  · cases h
  · rw [← Except.error.inj h]
    rfl

theorem clean_timestampString (name : List Char) (unit : TimeUnit) (value : Int) :
    Clean (timestampString name unit value) := by
  intro e h
  simp only [timestampString] at h
  split at h
  · cases h
  · rw [← Except.error.inj h]
    rfl

theorem clean_tryScalarValue {convert : List Char → Int → Except BindError (List Char)}
    (h : ∀ name v, Clean (convert name v)) (name : List Char) (a : ArrayData) (i : Nat) :
    Clean (tryScalarValue convert name a i) := by
  unfold tryScalarValue
  split
  · exact .ok _
  · exact (h _ _).map _

theorem clean_scalarBinder (C : Codec) (h : bindsScalar type = true) :
    ∃ bind, scalarBinder C type = some bind ∧ ∀ name a i, Clean (bind name a i) := by
  cases type with
  | decimal128 precision scale =>
    refine ⟨_, rfl, fun name a i => ?_⟩
    have hscale : 0 ≤ scale ∧ scale ≤ 38 := by simpa [bindsScalar] using h
    rw [numericScale, if_pos hscale]
    exact .ok _
  | date32 => exact ⟨_, rfl, clean_tryScalarValue clean_dateString⟩
  | date64 =>
    exact ⟨_, rfl, clean_tryScalarValue fun name v =>
      (clean_date64Days name v).bind fun days => clean_dateString name days⟩
  | timestamp unit timezone =>
    exact ⟨_, rfl, clean_tryScalarValue fun name v => clean_timestampString name unit v⟩
  | null | boolean | int8 | int16 | int32 | int64 | uint8 | uint16 | uint32 | float16 | float32
  | float64 | binary | fixedSizeBinary _ | largeBinary | binaryView | utf8 | largeUtf8 | utf8View =>
    exact ⟨_, rfl, fun name a i => .ok _⟩
  | _ => cases h

theorem clean_listCellValue {item : Field} (h : bindsScalar item.dataType = true)
    (elem : Option Slice) : Clean (listCellValue C name item elem) := by
  obtain ⟨bind, hb, hclean⟩ := clean_scalarBinder C h
  simp only [listCellValue, hb]
  refine Clean.bind ?_ fun value => .ok _
  cases elem with
  | none => exact .ok _
  | some s => exact Clean.bind (.mapM fun i => hclean _ _ _) fun values => .ok _

theorem clean_nullDictionaryValue (h : bindable true type = true) (hd : type.isDictionary = false) :
    Clean (nullDictionaryValue C name field type) := by
  unfold nullDictionaryValue
  split
  · exact clean_listCellValue (by simpa using h) none
  · exact clean_listCellValue (by simpa using h) none
  · rename_i hlist hlarge
    have hflat : isFlat type = true := by
      cases type with
      | list item => exact absurd rfl (hlist item)
      | largeList item => exact absurd rfl (hlarge item)
      | dictionary => cases hd
      | _ => rfl
    rw [bindable_of_isFlat hflat] at h
    obtain ⟨bind, hb, -⟩ := clean_scalarBinder C h
    rw [hb]
    exact .ok _

theorem isFlat_dataType (hvalid : column.Valid)
    (hlist : ∀ large item offsets child validity, column ≠ .list large item offsets child validity)
    (hdict : ∀ key keys values, column ≠ .dictionary key keys values) :
    isFlat column.dataType = true := by
  cases column with
  | null | struct | union => rfl
  | list => exact absurd rfl (hlist _ _ _ _ _)
  | dictionary => exact absurd rfl (hdict _ _ _)
  | scalars type slots => cases type <;> first | rfl | cases hvalid.1
  | other type len => cases type <;> first | rfl | cases hvalid

/-- The cells of a bindable type are never refused because of the type. -/
theorem clean_cellValue {nullable : Bool} {row : Nat} (hvalid : column.Valid)
    (ht : bindable nullable column.dataType = true)
    (hn : nullable = false → ∀ i, column.isNull i = false) (hrow : row < column.length) :
    Clean (cellValue C name field column row) := by
  fun_induction cellValue C name field column row generalizing nullable with
  | case1 large item offsets child validity row =>
    refine clean_listCellValue ?_ _
    cases large <;> simpa [ArrayData.dataType] using ht
  | case2 key keys values row valueRow hkey ih =>
    simp only [ArrayData.dataType, bindable, Bool.and_eq_true] at ht
    obtain ⟨hkeys, hvalues⟩ := hvalid
    have hmem : some valueRow ∈ keys := List.mem_of_getElem? (Option.join_eq_some_iff.mp hkey)
    exact ih hvalues ht.2 (by simp) (hkeys _ hmem _ rfl)
  | case3 key keys values row hkey =>
    simp only [ArrayData.dataType, bindable, Bool.and_eq_true] at ht
    have hnull : keys[row]? = some none := by
      rw [List.getElem?_eq_getElem hrow, Option.join_some] at hkey
      rw [List.getElem?_eq_getElem hrow, hkey]
    have hnullable : nullable = true := by
      by_contra hno
      have := hn (by simpa using hno) row
      simp [ArrayData.isNull, hnull] at this
    exact clean_nullDictionaryValue ht.2 (by simpa [hnullable] using ht.1)
  | case4 column row hlist hdict hbind =>
    rw [bindable_of_isFlat (isFlat_dataType hvalid hlist hdict)] at ht
    obtain ⟨bind, hb, -⟩ := clean_scalarBinder C ht
    rw [hb] at hbind
    cases hbind
  | case5 column row hlist hdict bind hbind =>
    rw [bindable_of_isFlat (isFlat_dataType hvalid hlist hdict)] at ht
    obtain ⟨bind', hb, hclean⟩ := clean_scalarBinder C ht
    obtain rfl : bind' = bind := Option.some.inj (hb.symm.trans hbind)
    exact (hclean _ _ _).bind fun value => .ok _

/-! ## Columns with a refused cell -/

def sampleScalar : DataType → Scalar
  | .boolean => .bool false
  | .float16 => .float16 0
  | .float32 => .float32 0
  | .float64 => .float64 0
  | .utf8 | .largeUtf8 | .utf8View => .text []
  | .binary | .largeBinary | .binaryView => .bytes []
  | .fixedSizeBinary size => .bytes (List.replicate size 0)
  | _ => .int 0

/-- An array of one row that is not null, at no level. -/
def sample : DataType → ArrayData
  | .list (.mk name item nullable metadata) =>
    .list false (.mk name item nullable metadata) [0, 1] (sample item) [true]
  | .largeList (.mk name item nullable metadata) =>
    .list true (.mk name item nullable metadata) [0, 1] (sample item) [true]
  | .dictionary key value => .dictionary key [some 0] (sample value)
  | type => .scalars type [some (sampleScalar type)]

/-- An array of one row of a type, as a column that may have nulls or not. -/
structure Column (nullable : Bool) (type : DataType) (column : ArrayData) : Prop where
  valid : column.Valid
  dataType : column.dataType = type
  length : column.length = 1
  nulls : nullable = false → ∀ i, column.isNull i = false

theorem fits_sampleScalar (h : type.isScalar = true) :
    Scalar.fits type (sampleScalar type) = true := by
  cases type with
  | fixedSizeBinary size => simp [sampleScalar, Scalar.fits]
  | boolean | int8 | int16 | int32 | int64 | uint8 | uint16 | uint32 | float16 | float32 | float64
  | timestamp | date32 | date64 | binary | largeBinary | binaryView | utf8 | largeUtf8 | utf8View
  | decimal128 => rfl
  | _ => cases h

theorem column_scalar (h : type.isScalar = true) (nullable : Bool) :
    Column nullable type (.scalars type [some (sampleScalar type)]) where
  valid := by
    refine ⟨h, fun slot hslot value hvalue => ?_⟩
    obtain rfl := List.mem_singleton.mp hslot
    obtain rfl := Option.mem_some.mp hvalue
    exact fits_sampleScalar h
  dataType := rfl
  length := rfl
  nulls := fun _ i => by cases i <;> rfl

theorem column_list (item : Field) {child : ArrayData} (h : Column item.isNullable item.dataType child)
    (large nullable : Bool) :
    Column nullable (if large then .largeList item else .list item)
      (.list large item [0, 1] child [true]) where
  valid := by
    refine ⟨rfl, by simp, ?_, h.dataType, h.nulls, h.valid⟩
    rw [h.length]
    decide
  dataType := rfl
  length := rfl
  nulls := fun _ i => by cases i <;> rfl

theorem column_dictionary {key : KeyType} {inner : Bool} (h : Column inner type values)
    (nullable : Bool) :
    Column nullable (.dictionary key type) (.dictionary key [some 0] values) where
  valid := by
    refine ⟨fun k hk i hi => ?_, h.valid⟩
    obtain rfl := List.mem_singleton.mp hk
    obtain rfl := Option.mem_some.mp hi
    rw [h.length]
    decide
  dataType := by rw [ArrayData.dataType, h.dataType]
  length := rfl
  nulls := fun _ i => by cases i <;> rfl

theorem column_nullKey {key : KeyType} {inner : Bool} (h : Column inner type values) :
    Column true (.dictionary key type) (.dictionary key [none] values) where
  valid := by
    refine ⟨fun k hk i hi => ?_, h.valid⟩
    obtain rfl := List.mem_singleton.mp hk
    cases hi
  dataType := by rw [ArrayData.dataType, h.dataType]
  length := rfl
  nulls := fun h => nomatch h

theorem column_sample (h : spannerColumnType D type = .ok s) (nullable : Bool) :
    Column nullable type (sample type) := by
  fun_induction spannerColumnType D type generalizing s nullable with
  | case23 name item itemNullable metadata ih =>
    obtain ⟨e, he, -⟩ := bind_eq_ok.mp h
    exact column_list (.mk name item itemNullable metadata) (ih he itemNullable) false nullable
  | case24 name item itemNullable metadata ih =>
    obtain ⟨e, he, -⟩ := bind_eq_ok.mp h
    exact column_list (.mk name item itemNullable metadata) (ih he itemNullable) true nullable
  | case25 key value ih => exact column_dictionary (ih h true) nullable
  | case26 => cases h
  | _ => exact column_scalar rfl nullable

/-- The type of a field that a column is created for is one that a column is created for. -/
theorem columnType_of_fieldType {field : Field} (h : spannerFieldType D field = .ok s) :
    ∃ s', spannerColumnType D field.dataType = .ok s' := by
  fun_induction spannerFieldType D field generalizing s with
  | case1 name type nullable metadata hjson =>
    -- the tag counts on strings and on dictionaries of strings only
    have hstring : type.storage.isString = true := by
      simp only [isJsonField, Bool.and_eq_true] at hjson
      exact hjson.1
    cases type with
    | utf8 | largeUtf8 | utf8View => exact ⟨_, rfl⟩
    | dictionary key value =>
      cases value with
      | utf8 | largeUtf8 | utf8View => exact ⟨_, rfl⟩
      | _ => cases hstring
    | _ => cases hstring
  | case2 name nullable metadata item hjson ih | case3 name nullable metadata item hjson ih =>
    obtain ⟨e, he, -⟩ := bind_eq_ok.mp h
    obtain ⟨s', hs'⟩ := ih he
    cases item
    exact ⟨arrayOf s', bind_eq_ok.mpr ⟨s', hs', rfl⟩⟩
  | case4 => exact ⟨s, h⟩

/-- A type that does not bind as a scalar has no binder, or one that refuses every value. -/
theorem scalarBinder_of_not_binds (C : Codec) (h : bindsScalar type = false) :
    scalarBinder C type = none ∨ ∃ bind, scalarBinder C type = some bind ∧
      ∀ name a i, Refused (bind name a i) := by
  cases type with
  | decimal128 precision scale =>
    refine .inr ⟨_, rfl, fun name a i => ⟨.unsupportedScale name scale, ?_, rfl⟩⟩
    have hscale : ¬ (0 ≤ scale ∧ scale ≤ 38) := by simpa [bindsScalar] using h
    rw [numericScale, if_neg hscale]
    rfl
  | _ => first | exact .inl rfl | cases h

theorem Refused.bind (h : Refused r) (f : α → Except BindError β) :
    Refused (r >>= f) := by
  obtain ⟨e, rfl, ht⟩ := h
  exact ⟨e, rfl, ht⟩

/-- A list of a type that is not a bindable scalar is refused for its element type, or for its first
element. -/
theorem refused_list {item : Field} (h : bindsScalar item.dataType = false) (C : Codec)
    (name : List Char) (child : ArrayData) :
    Refused (listCellValue C name item (some ⟨child, 0, 1⟩)) := by
  unfold listCellValue
  rcases scalarBinder_of_not_binds C h with hnone | ⟨bind, hbind, hrefused⟩
  · rw [hnone]
    exact ⟨_, rfl, rfl⟩
  · rw [hbind]
    refine Refused.bind (Refused.bind ?_ _) _
    rw [show List.range 1 = [0] from rfl, List.mapM_cons]
    exact (hrefused name child _).bind _

theorem refused_scalar (h : bindsScalar type = false) (C : Codec) (name : List Char)
    (field : Field) (slots : List (Option Scalar)) (row : Nat) :
    Refused (cellValue C name field (.scalars type slots) row) := by
  simp only [cellValue, ArrayData.dataType]
  rcases scalarBinder_of_not_binds C h with hnone | ⟨bind, hbind, hrefused⟩
  · rw [hnone]
    exact ⟨_, rfl, rfl⟩
  · rw [hbind]
    exact (hrefused name _ row).bind _

theorem refused_nullKey (h : type.isDictionary = true) (C : Codec) (name : List Char)
    (field : Field) : Refused (nullDictionaryValue C name field type) := by
  cases type with
  | dictionary => exact ⟨_, rfl, rfl⟩
  | _ => cases h

/-- A type that a column can be created for and that is not bindable has a valid column with a cell
that is refused because of the type. -/
theorem exists_refused {nullable : Bool} (h : spannerColumnType D type = .ok s)
    (hb : bindable nullable type = false) (C : Codec) (name : List Char) (field : Field) :
    ∃ column, Column nullable type column ∧ Refused (cellValue C name field column 0) := by
  fun_induction spannerColumnType D type generalizing s nullable with
  | case22 precision scale => exact ⟨_, column_scalar rfl nullable, refused_scalar hb C name field _ 0⟩
  | case23 itemName item itemNullable metadata _ =>
    obtain ⟨e, he, -⟩ := bind_eq_ok.mp h
    rw [bindable_list] at hb
    exact ⟨_, column_list (.mk itemName item itemNullable metadata)
      (column_sample he itemNullable) false nullable, refused_list hb C name _⟩
  | case24 itemName item itemNullable metadata _ =>
    obtain ⟨e, he, -⟩ := bind_eq_ok.mp h
    rw [bindable_largeList] at hb
    exact ⟨_, column_list (.mk itemName item itemNullable metadata)
      (column_sample he itemNullable) true nullable, refused_list hb C name _⟩
  | case25 key value ih =>
    cases hinner : bindable true value with
    | false =>
      obtain ⟨values, hcolumn, hrefused⟩ := ih h hinner
      exact ⟨_, column_dictionary hcolumn nullable, hrefused⟩
    | true =>
      -- only the null key is refused: the values are a dictionary again
      simp only [bindable, hinner, Bool.and_true, Bool.or_eq_false_iff, Bool.not_eq_false'] at hb
      obtain ⟨rfl, hdict⟩ := hb
      have hsample := column_sample h true
      refine ⟨_, column_nullKey hsample, ?_⟩
      rw [← hsample.dataType] at hdict
      exact refused_nullKey hdict C name field
  | case26 => cases h
  | _ => cases hb

/-! ## Schemas -/

theorem zip_map_self (schema : Schema) (column : Field → ArrayData) :
    schema.zip (schema.map column) = schema.map fun field => (field, column field) := by
  rw [List.zip_map_right, List.zip_eq_zipWith, List.zipWith_self, List.map_map]
  rfl

/-- The one-row batch of a schema with the given column for each field. -/
def batchOf (schema : Schema) (column : Field → ArrayData)
    (h : ∀ field ∈ schema, Column field.isNullable field.dataType (column field)) : RecordBatch where
  schema := schema
  columns := schema.map column
  numRows := 1
  types := by
    rw [List.map_map]
    exact List.map_congr_left fun field hf => (h field hf).dataType
  lengths := by
    intro c hc
    obtain ⟨field, hf, rfl⟩ := List.mem_map.mp hc
    exact (h field hf).length
  nulls := by
    intro fc hfc
    rw [zip_map_self] at hfc
    obtain ⟨field, hf, rfl⟩ := List.mem_map.mp hfc
    exact (h field hf).nulls
  valid := by
    intro c hc
    obtain ⟨field, hf, rfl⟩ := List.mem_map.mp hc
    exact (h field hf).valid

/-- A schema that a table can be created for has no batch with a cell that is refused because of its
column's type exactly when all its columns are bindable. -/
theorem created_types_bind_iff {D : TypeDebug} {C : Codec} {table : List Char}
    {dbSchema : Option (List Char)} {schema : Schema} {ifNotExists : Bool} {text : List Char}
    (h : createTableSql D table dbSchema schema ifNotExists = .ok text) :
    (∀ batch : RecordBatch, batch.schema = schema → ∀ fc ∈ batch.schema.zip batch.columns,
      ∀ row < batch.numRows, Clean (cellValue C fc.1.name fc.1 fc.2 row)) ↔
    ∀ field ∈ schema, bindable field.isNullable field.dataType = true := by
  constructor
  · intro hclean field hf
    by_contra hb
    have htype : ∀ f ∈ schema, ∃ s, spannerColumnType D f.dataType = .ok s := fun f hf =>
      let ⟨_, hs⟩ := (createTableSql_eq_ok h).2.2 f hf
      columnType_of_fieldType hs
    obtain ⟨s, hs⟩ := htype field hf
    obtain ⟨bad, hcolumn, hrefused⟩ := exists_refused hs (by simpa using hb) C field.name field
    -- the bad column for this field, and a sample for every other one
    let column : Field → ArrayData := fun f => if f = field then bad else sample f.dataType
    have hcolumns : ∀ f ∈ schema, Column f.isNullable f.dataType (column f) := by
      intro f hf
      by_cases he : f = field
      · subst he
        simpa [column] using hcolumn
      · obtain ⟨s, hs⟩ := htype f hf
        simpa [column, he] using column_sample hs f.isNullable
    refine hrefused.not_clean (hclean (batchOf schema column hcolumns) rfl (field, bad) ?_ 0 Nat.one_pos)
    show (field, bad) ∈ schema.zip (schema.map column)
    rw [zip_map_self]
    exact List.mem_map.mpr ⟨field, hf, by simp [column]⟩
  · rintro hb batch rfl fc hfc row hrow
    obtain ⟨field, column⟩ := fc
    have hmem := List.of_mem_zip hfc
    refine clean_cellValue (batch.valid column hmem.2) ?_ (batch.nulls _ hfc) ?_
    · rw [batch.dataType_eq hfc]
      exact hb field hmem.1
    · rw [batch.lengths column hmem.2]
      exact hrow

def plainCodec : Codec where
  widen16 bits := bits.toUInt64
  widen32 bits := bits.toUInt64
  floatValue := .number
  base64 _ := []

/-- Categories, a list of prices and a count. -/
def orderSchema : Schema :=
  [.new "kind".toList (.dictionary .int32 .utf8) true,
    .new "prices".toList (.list (.new "item".toList (.decimal128 10 2) true)) true,
    .new "total".toList (.decimal128 20 9) false]

theorem created_types_bind_iff_order :
    (∀ field ∈ orderSchema, bindable field.isNullable field.dataType = true) ∧
    ∀ batch : RecordBatch, batch.schema = orderSchema → ∀ fc ∈ batch.schema.zip batch.columns,
      ∀ row < batch.numRows, Clean (cellValue plainCodec fc.1.name fc.1 fc.2 row) := by
  have hddl : createTableSql plainDebug "t".toList none orderSchema false = .ok
      "CREATE TABLE `t` (`kind` STRING(MAX), `prices` ARRAY<NUMERIC>, `total` NUMERIC)".toList := by
    decide +kernel
  have hbinds : ∀ field ∈ orderSchema, bindable field.isNullable field.dataType = true := by decide
  exact ⟨hbinds, (created_types_bind_iff hddl).mpr hbinds⟩

/-- A list of dictionary-encoded strings, the type of a column of categories. -/
def categories : DataType := .list (.new "item".toList (.dictionary .int32 .utf8) true)

/-- One row, a null. -/
def nullCategories : ArrayData :=
  .list false (.new "item".toList (.dictionary .int32 .utf8) true) [0, 0]
    (.dictionary .int32 [] (.scalars .utf8 [])) [false]

def categoryBatch : RecordBatch where
  schema := [.new "tags".toList categories true]
  columns := [nullCategories]
  numRows := 1
  types := rfl
  lengths := by simp [nullCategories, ArrayData.length]
  nulls := by simp [Field.new]
  valid := by
    intro column hc
    obtain rfl := List.mem_singleton.mp hc
    have hempty : (ArrayData.dictionary .int32 [] (.scalars .utf8 [])).Valid :=
      ⟨by simp, rfl, by simp⟩
    exact ⟨rfl, by simp, by simp, rfl, (fun h => nomatch h), hempty⟩

/-- The table is created, and then its first row is refused for the type of the elements, although
the cell is null. -/
theorem created_list_of_dictionary_refused :
    createTableSql plainDebug "t".toList none categoryBatch.schema false =
      .ok "CREATE TABLE `t` (`tags` ARRAY<STRING(MAX)>)".toList ∧
    insertMutation plainCodec categoryBatch 0 =
      .error (.unsupportedElement "tags".toList (.dictionary .int32 .utf8)) := ⟨rfl, rfl⟩

end Binding
end SpannerAdbc
