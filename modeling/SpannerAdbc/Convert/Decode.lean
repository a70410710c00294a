import SpannerAdbc.Convert.Column

/-!
# SpannerAdbc.Convert.Decode

Decoding by rows, and that building by columns agrees with it. `decode` reads one wire value at a type
by recursion: the elements of a list in order, the fields of a struct by position, where a list that
is too short leaves NULLs. `buildArray` never looks at one row at a time; the induction over the type
shows that each slot of its array reads as the decoding of its value.

A `Column` is what is known of an array that was built, and `buildable` when one is.
-/

namespace SpannerAdbc
namespace Convert

open Arrow Lib
open SpannerAdbc.Stream (Value)

variable (C : Decoder)

/-! ## By rows -/

def decodeScalar (type : DataType) (value : Option Value) : Option Datum :=
  match present value with
  | none => some .null
  | some v => (convertScalar C type v).toOption.map .scalar

mutual

def decode : DataType → Option Value → Option Datum
  | .list (.mk _ item _ _), value =>
    match present value with
    | none => some .null
    | some (.list items) => (items.mapM fun v => decode item (some v)).map .list
    | some _ => none
  | .struct fields, value =>
    match present value with
    | none => some .null
    | some (.list items) => (decodeFields fields 0 items).map .struct
    | some _ => none
  | type, value => decodeScalar C type value

/-- The fields from position `i` on. -/
def decodeFields : Fields → Nat → List Value → Option (List Datum)
  | .nil, _, _ => some []
  | .cons (.mk _ type _ _) fields, i, items => do
    let field ← decode type items[i]?
    return field :: (← decodeFields fields (i + 1) items)

end

/-! ## Result types -/

mutual

/-- The types of result columns: every field is nullable and every struct has a field. -/
def isResult : DataType → Bool
  | .boolean | .int64 | .float64 | .float32 | .date32 | .binary | .utf8 => true
  | .timestamp unit _ => unit == .nanosecond || unit == .microsecond
  | .decimal128 precision scale => precision == 38 && scale == 9
  | .list (.mk _ item nullable _) => nullable && isResult item
  | .struct fields => !fields.toList.isEmpty && areResults fields
  | _ => false

def areResults : Fields → Bool
  | .nil => true
  | .cons (.mk _ type nullable _) fields => nullable && isResult type && areResults fields

end

/-! ## Limits -/

section Limits

variable (P : DataType → List (Option Value) → Prop)

mutual

/-- A property of each column that is gathered on the way, at any depth. -/
def Throughout : DataType → List (Option Value) → Prop
  | .list (.mk name item nullable metadata), values =>
    P (.list (.mk name item nullable metadata)) values ∧ Throughout item (values.flatMap elements)
  | .struct fields, values => ThroughoutFields fields 0 values
  | type, values => P type values

def ThroughoutFields : Fields → Nat → List (Option Value) → Prop
  | .nil, _, _ => True
  | .cons (.mk _ type _ _) fields, i, values =>
    Throughout type (values.map (fieldValue i)) ∧ ThroughoutFields fields (i + 1) values

end

end Limits

/-- All elements of a list column together fit 32-bit offsets. -/
def ListFits : DataType → List (Option Value) → Prop
  | .list _, values => (values.flatMap elements).length ≤ maxOffset
  | _, _ => True

/-- Arrow's builder holds all bytes of a column of texts or byte strings. -/
def BufferFits : DataType → List (Option Value) → Prop
  | .list _, _ => True
  | type, values =>
    C.holds (values.map fun v => slotSize (slotOf (convertScalar C type) v)).sum = true

/-- The values of a column all decode, at every depth, and fit. -/
structure Decodable (type : DataType) (values : List (Option Value)) : Prop where
  decodes : ∀ v ∈ values, (decode C type v).isSome = true
  lists : Throughout ListFits type values
  buffers : Throughout (BufferFits C) type values

/-! ## By columns -/

/-- What is known of an array that was built from values. -/
structure Column (type : DataType) (values : List (Option Value)) (a : ArrayData) : Prop where
  dataType : a.dataType = type
  length : a.length = values.length
  valid : a.Valid
  isNull : ∀ i v, values[i]? = some v → (a.isNull i = true ↔ present v = none)
  read : ∀ i v, values[i]? = some v → decode C type v = some (a.read i)
  lists : Throughout ListFits type values
  buffers : Throughout (BufferFits C) type values

/-- The arrays of the fields from position `i` on. -/
structure Columns (fields : Fields) (i : Nat) (values : List (Option Value)) (children : Children) :
    Prop where
  valid : children.Valid fields (values.map isValid)
  read : ∀ r v items, values[r]? = some v → present v = some (.list items) →
    decodeFields C fields i items = some (children.read r)
  lists : ThroughoutFields ListFits fields i values
  buffers : ThroughoutFields (BufferFits C) fields i values

variable {C} {type : DataType} {values : List (Option Value)} {value : Option Value}

theorem decode_leaf (h : isLeaf type = true) (value : Option Value) :
    decode C type value = decodeScalar C type value := by
  cases type <;> first | rfl | cases h

theorem throughout_leaf {P : DataType → List (Option Value) → Prop} (h : isLeaf type = true)
    (values : List (Option Value)) :
    Throughout P type values = P type values := by
  cases type <;> first | rfl | cases h

theorem buildArray_leaf (h : isLeaf type = true) (hr : isResult type = true) {a : ArrayData} :
    buildArray C type values = .ok a ↔
      ∃ slots, buildWith C (convertScalar C type) values = .ok slots ∧ a = .scalars type slots := by
  have hplain : buildArray C type values = (do
      return .scalars type (← buildWith C (convertScalar C type) values)) := by
    cases type with
    | decimal128 precision scale =>
      simp only [isResult, Bool.and_eq_true, beq_iff_eq] at hr
      obtain ⟨rfl, rfl⟩ := hr
      rfl
    | timestamp unit tz => cases unit <;> first | rfl | cases hr
    | list | struct => cases h
    | boolean | int64 | float64 | float32 | date32 | binary | utf8 => rfl
    | _ => cases hr
  rw [hplain, bind_eq_ok]
  exact exists_congr fun slots => and_congr_right fun _ =>
    ⟨fun h => (Except.ok.inj h).symm, fun h => h ▸ rfl⟩

theorem decode_none (type : DataType) : decode C type none = some .null := by
  cases type with
  | list field =>
    cases field
    simp [decode, present]
  | _ => simp [decode, decodeScalar, present]

/-- The value of an index of a list that was mapped. -/
theorem getElem?_map_some {α β : Type} {f : α → β} {as : List α} {i : Nat} {a : α}
    (h : as[i]? = some a) : (as.map f)[i]? = some (f a) := by
  rw [List.getElem?_map, h]
  rfl

/-! ### Scalars -/

theorem decodeScalar_isSome :
    (decodeScalar C type value).isSome = true ↔ Converts (convertScalar C type) value := by
  rw [decodeScalar, Converts]
  cases present value with
  | none => simp
  | some v => cases hc : convertScalar C type v <;> simp [hc, Except.toOption]

theorem slotOf_eq_none (h : Converts (convertScalar C type) value) :
    slotOf (convertScalar C type) value = none ↔ present value = none := by
  rw [slotOf]
  cases hv : present value with
  | none => simp
  | some v =>
    obtain ⟨s, hs⟩ := h v hv
    simp [hs, Except.toOption]

theorem decodeScalar_eq (h : Converts (convertScalar C type) value) :
    decodeScalar C type value =
      some (((slotOf (convertScalar C type) value).map Datum.scalar).getD .null) := by
  rw [decodeScalar, slotOf]
  cases hv : present value with
  | none => rfl
  | some v =>
    obtain ⟨s, hs⟩ := h v hv
    simp [hs, Except.toOption]

theorem column_leaf {a : ArrayData} (hleaf : isLeaf type = true) (hr : isResult type = true)
    (h : buildArray C type values = .ok a) : Column C type values a := by
  obtain ⟨slots, hslots, rfl⟩ := (buildArray_leaf hleaf hr).mp h
  obtain ⟨hconv, hsize, rfl⟩ := buildWith_eq_ok.mp hslots
  have hconv_at : ∀ {i v}, values[i]? = some v → Converts (convertScalar C type) v :=
    fun hv => hconv _ (List.mem_of_getElem? hv)
  refine ⟨rfl, by simp [ArrayData.length], valid_of_build type h, fun i v hv => ?_,
    fun i v hv => ?_, ?_, ?_⟩
  · simp [ArrayData.isNull, getElem?_map_some hv, slotOf_eq_none (hconv_at hv)]
  · rw [decode_leaf hleaf, decodeScalar_eq (hconv_at hv), ArrayData.read, getElem?_map_some hv]
    rfl
  · rw [throughout_leaf hleaf]
    cases type <;> trivial
  · rw [throughout_leaf hleaf]
    cases type <;> first | exact hsize | cases hleaf

theorem buildable_leaf (hleaf : isLeaf type = true) (hr : isResult type = true)
    (hd : ∀ v ∈ values, (decode C type v).isSome = true)
    (hb : Throughout (BufferFits C) type values) : ∃ a, buildArray C type values = .ok a := by
  have hconv : ∀ v ∈ values, Converts (convertScalar C type) v := by
    intro v hv
    have := hd v hv
    rwa [decode_leaf hleaf, decodeScalar_isSome] at this
  have hsize : C.holds (values.map fun v => slotSize (slotOf (convertScalar C type) v)).sum = true := by
    rw [throughout_leaf hleaf] at hb
    cases type <;> first | exact hb | cases hleaf
  exact ⟨_, (buildArray_leaf hleaf hr).mpr ⟨_, buildWith_eq_ok.mpr ⟨hconv, hsize, rfl⟩, rfl⟩⟩

/-! ### Lists -/

section Lists

variable {name : List Char} {item : DataType} {nullable : Bool}
  {metadata : List (List Char × List Char)} {values : List (Option Value)}

/-- Row `i` of a list array reads as the decodings of its elements. -/
theorem read_list {child : ArrayData} (hchild : Column C item (values.flatMap elements) child)
    {i : Nat} {v : Option Value} (hlist : IsList v) (hv : values[i]? = some v) :
    decode C (.list (.mk name item nullable metadata)) v =
      some (ArrayData.read (.list false (.mk name item nullable metadata)
        (offsets 0 (values.map elements)) child (values.map isValid)) i) := by
  rw [decode, ArrayData.read, getElem?_map_some hv]
  rcases present_cases v with h | ⟨items, h⟩ | ⟨w, h, hw⟩
  · simp [h, isValid]
  · obtain ⟨o, ho, hnext, hflat⟩ := segment 0 (getElem?_map_some (f := elements) hv)
    have hitems : elements v = items.map some := by simp [elements, h]
    have hread : ∀ j w, items[j]? = some w → decode C item (some w) = some (child.read (o + j)) := by
      intro j w hj
      refine hchild.read (o + j) (some w) ?_
      have hlt := (List.getElem?_eq_some_iff.mp hj).1
      rw [List.flatMap_def, hflat j (by simpa [hitems] using hlt), hitems, getElem?_map_some hj]
    have hlen : (offsets 0 (values.map elements)).getD (i + 1) 0 -
        (offsets 0 (values.map elements)).getD i 0 = items.length := by
      rw [List.getD_eq_getElem?_getD, List.getD_eq_getElem?_getD, ho, hnext]
      simp [hitems]
    have hstart : (offsets 0 (values.map elements)).getD i 0 = o := by
      rw [List.getD_eq_getElem?_getD, ho]
      simp
    simp only [h, isValid, Option.isSome_some, if_true, mapM_eq_some hread, Option.map_some]
    rw [hlen, hstart]
  · exact absurd hlist (not_isList h hw)

theorem column_list {a : ArrayData}
    (ih : ∀ {values a}, buildArray C item values = .ok a → Column C item values a)
    (h : buildArray C (.list (.mk name item nullable metadata)) values = .ok a) :
    Column C (.list (.mk name item nullable metadata)) values a := by
  have hvalid := valid_of_build _ h
  obtain ⟨hlists, hlen, child, hbuild, h⟩ := buildList_eq_ok.mp h
  obtain ⟨-, -, -, -, rfl⟩ := listTryNew_eq_ok.mp h
  have hchild := ih hbuild
  refine ⟨rfl, by simp [ArrayData.length], hvalid, fun i v hv => ?_,
    fun i v hv => read_list hchild (hlists v (List.mem_of_getElem? hv)) hv,
    ⟨hlen, hchild.lists⟩, ⟨trivial, hchild.buffers⟩⟩
  simp [ArrayData.isNull, getElem?_map_some hv, isValid]

theorem decodes_elements (hd : ∀ v ∈ values,
      (decode C (.list (.mk name item nullable metadata)) v).isSome = true) :
    (∀ v ∈ values, IsList v) ∧
      ∀ w ∈ values.flatMap elements, (decode C item w).isSome = true := by
  constructor
  · intro v hv
    have := hd v hv
    rw [decode] at this
    intro w hw
    rw [hw] at this
    cases w with
    | list items => exact ⟨items, rfl⟩
    | null | bool | number | string | struct => cases this
  · intro w hw
    obtain ⟨v, hv, hw⟩ := List.mem_flatMap.mp hw
    have := hd v hv
    rw [decode] at this
    rcases present_cases v with h | ⟨items, h⟩ | ⟨u, h, hu⟩
    · simp [elements, h] at hw
    · rw [h] at this
      simp only [elements, h] at hw
      obtain ⟨u, hu, rfl⟩ := List.mem_map.mp hw
      obtain ⟨d, hd⟩ := Option.isSome_iff_exists.mp this
      obtain ⟨ds, hds, -⟩ := Option.map_eq_some_iff.mp hd
      exact isSome_of_mapM hds u hu
    · cases u with
      | list items => exact absurd rfl (hu items)
      | null | bool | number | string | struct => simp [elements, h] at hw

theorem buildable_list
    (hcol : ∀ {values a}, buildArray C item values = .ok a → Column C item values a)
    (ih : ∀ {values}, (∀ v ∈ values, (decode C item v).isSome = true) →
      Throughout ListFits item values → Throughout (BufferFits C) item values →
      ∃ a, buildArray C item values = .ok a)
    (hnullable : nullable = true)
    (hd : ∀ v ∈ values, (decode C (.list (.mk name item nullable metadata)) v).isSome = true)
    (hl : Throughout ListFits (.list (.mk name item nullable metadata)) values)
    (hb : Throughout (BufferFits C) (.list (.mk name item nullable metadata)) values) :
    ∃ a, buildArray C (.list (.mk name item nullable metadata)) values = .ok a := by
  obtain ⟨hlists, helems⟩ := decodes_elements hd
  obtain ⟨child, hbuild⟩ := ih helems hl.2 hb.2
  have hchild := hcol hbuild
  refine ⟨_, buildList_eq_ok.mpr ⟨hlists, hl.1, child, hbuild, listTryNew_eq_ok.mpr
    ⟨?_, by simp [offsets], fun hn => ?_, hchild.dataType, rfl⟩⟩⟩
  · rw [getLast?_offsets, hchild.length, length_flatten_elements]
    simp
  · rw [Field.isNullable_mk, hnullable] at hn
    cases hn

end Lists

/-! ### Structs -/

section Structs

variable {fields : Fields} {values : List (Option Value)} {children : Children}

/-- Row `i` of a struct array reads as the decodings of its fields. -/
theorem read_struct (hchildren : Columns C fields 0 values children) {i : Nat} {v : Option Value}
    (hlist : IsList v) (hv : values[i]? = some v) :
    decode C (.struct fields) v =
      some (ArrayData.read (.struct fields children (values.map isValid)) i) := by
  rw [decode, ArrayData.read, getElem?_map_some hv]
  rcases present_cases v with h | ⟨items, h⟩ | ⟨w, h, hw⟩
  · simp [h, isValid]
  · simp [h, isValid, hchildren.read i v items hv h]
  · exact absurd hlist (not_isList h hw)

theorem column_struct {a : ArrayData}
    (ih : ∀ {children}, buildFields C fields (gathered fields 0 values) = .ok children →
      Columns C fields 0 values children)
    (h : buildArray C (.struct fields) values = .ok a) : Column C (.struct fields) values a := by
  have hvalid := valid_of_build _ h
  obtain ⟨hlists, children, hbuild, h⟩ := buildStruct_eq_ok.mp h
  obtain ⟨-, -, rfl⟩ := (structTryNew_eq_ok (valid_of_buildFields fields hbuild)).mp h
  have hchildren := ih hbuild
  refine ⟨rfl, by simp [ArrayData.length], hvalid, fun i v hv => ?_,
    fun i v hv => read_struct hchildren (hlists v (List.mem_of_getElem? hv)) hv,
    hchildren.lists, hchildren.buffers⟩
  simp [ArrayData.isNull, getElem?_map_some hv, isValid]

/-- A field of a row decodes as part of the row, and absent fields decode as NULL. -/
theorem columns_cons {name : List Char} {type : DataType} {nullable : Bool}
    {metadata : List (List Char × List Char)} {i : Nat} {child : ArrayData}
    (hnullable : nullable = true) (hchild : Column C type (values.map (fieldValue i)) child)
    (hchildren : Columns C fields (i + 1) values children) :
    Columns C (.cons (.mk name type nullable metadata) fields) i values (.cons child children) := by
  refine ⟨⟨?_, hchild.dataType, fun hn => ?_, hchild.valid, hchildren.valid⟩,
    fun r v items hv h => ?_, ⟨hchild.lists, hchildren.lists⟩, ⟨hchild.buffers, hchildren.buffers⟩⟩
  · rw [hchild.length, List.length_map, List.length_map]
  · rw [Field.isNullable_mk, hnullable] at hn
    cases hn
  · have hfield : fieldValue i v = items[i]? := by simp [fieldValue, h]
    have hread := hchild.read r _ (getElem?_map_some hv)
    rw [hfield] at hread
    rw [decodeFields, hread, hchildren.read r v items hv h]
    rfl

/-- Every value that a row adds to the column of a field decodes if the row does. -/
theorem decodes_field {P : Option Value → Prop} {i : Nat} (hnone : P none)
    (hitems : ∀ v ∈ values, ∀ items, present v = some (.list items) → P items[i]?) :
    ∀ w ∈ values.map (fieldValue i), P w := by
  intro w hw
  obtain ⟨v, hv, rfl⟩ := List.mem_map.mp hw
  rcases present_cases v with h | ⟨items, h⟩ | ⟨u, h, hu⟩
  · simpa [fieldValue, h] using hnone
  · simpa [fieldValue, h] using hitems v hv items h
  · cases u with
    | list items => exact absurd rfl (hu items)
    | null | bool | number | string | struct => simpa [fieldValue, h] using hnone

theorem decodes_fields (hd : ∀ v ∈ values, (decode C (.struct fields) v).isSome = true) :
    (∀ v ∈ values, IsList v) ∧
      ∀ v ∈ values, ∀ items, present v = some (.list items) →
        (decodeFields C fields 0 items).isSome = true := by
  constructor
  · intro v hv
    have := hd v hv
    rw [decode] at this
    intro w hw
    rw [hw] at this
    cases w with
    | list items => exact ⟨items, rfl⟩
    | null | bool | number | string | struct => cases this
  · intro v hv items h
    have := hd v hv
    rw [decode, h] at this
    simpa using this

end Structs

/-! ### All types -/

mutual

/-- What was built has a slot for each value that reads as its decoding. -/
theorem column_of_build (type : DataType) (hr : isResult type = true)
    {values : List (Option Value)} {a : ArrayData} (h : buildArray C type values = .ok a) :
    Column C type values a := by
  cases type with
  | list field =>
    cases field with
    | mk name item nullable metadata =>
      simp only [isResult, Bool.and_eq_true] at hr
      exact column_list (fun h => column_of_build item hr.2 h) h
  | struct fields =>
    simp only [isResult, Bool.and_eq_true] at hr
    exact column_struct (fun h => columns_of_build fields hr.2 h) h
  | _ => exact column_leaf rfl hr h

theorem columns_of_build : ∀ (fields : Fields), areResults fields = true →
    ∀ {i : Nat} {values : List (Option Value)} {children : Children},
      buildFields C fields (gathered fields i values) = .ok children →
      Columns C fields i values children
  | .nil, _, i, values, children, h => by
    obtain rfl := Except.ok.inj h
    exact ⟨trivial, fun _ _ _ _ _ => rfl, trivial, trivial⟩
  | .cons (.mk name type nullable metadata) fields, hr, i, values, children, h => by
    simp only [areResults, Bool.and_eq_true] at hr
    rw [gathered_cons, buildFields, bind_eq_ok] at h
    obtain ⟨child, hchild, h⟩ := h
    obtain ⟨rest, hrest, h⟩ := bind_eq_ok.mp h
    obtain rfl := Except.ok.inj h
    exact columns_cons hr.1.1 (column_of_build type hr.1.2 hchild)
      (columns_of_build fields hr.2 hrest)

end

mutual

/-- Values that decode and fit are built. -/
theorem buildable (type : DataType) (hr : isResult type = true) {values : List (Option Value)}
    (hd : ∀ v ∈ values, (decode C type v).isSome = true) (hl : Throughout ListFits type values)
    (hb : Throughout (BufferFits C) type values) : ∃ a, buildArray C type values = .ok a := by
  cases type with
  | list field =>
    cases field with
    | mk name item nullable metadata =>
      simp only [isResult, Bool.and_eq_true] at hr
      exact buildable_list (column_of_build item hr.2)
        (fun hd hl hb => buildable item hr.2 hd hl hb) hr.1 hd hl hb
  | struct fields =>
    simp only [isResult, Bool.and_eq_true, Bool.not_eq_true', List.isEmpty_eq_false_iff] at hr
    obtain ⟨hlists, hfields⟩ := decodes_fields hd
    obtain ⟨children, hbuild⟩ := buildable_fields fields hr.2 hfields hl hb
    have hvalid := (columns_of_build fields hr.2 hbuild).valid
    exact ⟨_, buildStruct_eq_ok.mpr ⟨hlists, children, hbuild,
      (structTryNew_eq_ok (valid_of_buildFields fields hbuild)).mpr ⟨hr.1, hvalid, rfl⟩⟩⟩
  | _ => exact buildable_leaf rfl hr hd hb

theorem buildable_fields : ∀ (fields : Fields), areResults fields = true →
    ∀ {i : Nat} {values : List (Option Value)},
      (∀ v ∈ values, ∀ items, present v = some (.list items) →
        (decodeFields C fields i items).isSome = true) →
      ThroughoutFields ListFits fields i values → ThroughoutFields (BufferFits C) fields i values →
      ∃ children, buildFields C fields (gathered fields i values) = .ok children
  | .nil, _, _, _, _, _, _ => ⟨.nil, rfl⟩
  | .cons (.mk name type nullable metadata) fields, hr, i, values, hd, hl, hb => by
    simp only [areResults, Bool.and_eq_true] at hr
    -- a row decodes field by field
    have hsplit : ∀ v ∈ values, ∀ items, present v = some (.list items) →
        (decode C type items[i]?).isSome = true ∧
          (decodeFields C fields (i + 1) items).isSome = true := by
      intro v hv items h
      obtain ⟨ds, hds⟩ := Option.isSome_iff_exists.mp (hd v hv items h)
      rw [decodeFields] at hds
      obtain ⟨d, hfield, hds⟩ := Option.bind_eq_some_iff.mp hds
      obtain ⟨rest, hrest, -⟩ := Option.bind_eq_some_iff.mp hds
      exact ⟨by rw [hfield]; rfl, by rw [hrest]; rfl⟩
    obtain ⟨child, hchild⟩ := buildable type hr.1.2
      (decodes_field (P := fun w => (decode C type w).isSome = true) (by rw [decode_none]; rfl)
        fun v hv items h => (hsplit v hv items h).1) hl.1 hb.1
    obtain ⟨children, hchildren⟩ := buildable_fields fields hr.2
      (fun v hv items h => (hsplit v hv items h).2) hl.2 hb.2
    rw [gathered_cons, buildFields]
    exact ⟨_, bind_eq_ok.mpr ⟨child, hchild, bind_eq_ok.mpr ⟨children, hchildren, rfl⟩⟩⟩

end

mutual

theorem throughout_of_forall {P : DataType → List (Option Value) → Prop} (h : ∀ type values, P type values)
    (type : DataType) (values : List (Option Value)) : Throughout P type values := by
  cases type with
  | list field =>
    cases field with
    | mk name item nullable metadata => exact ⟨h _ _, throughout_of_forall h item _⟩
  | struct fields => exact throughoutFields_of_forall h fields 0 values
  | _ => exact h _ _

theorem throughoutFields_of_forall {P : DataType → List (Option Value) → Prop}
    (h : ∀ type values, P type values) : ∀ (fields : Fields) (i : Nat) (values : List (Option Value)),
      ThroughoutFields P fields i values
  | .nil, _, _ => trivial
  | .cons (.mk _ type _ _) fields, i, values =>
    ⟨throughout_of_forall h type _, throughoutFields_of_forall h fields (i + 1) values⟩

end

theorem bufferFits_of_unlimited (h : C.capacity = none) (type : DataType)
    (values : List (Option Value)) : BufferFits C type values := by
  cases type <;> simp [BufferFits, Decoder.holds, h]

theorem build_iff (hr : isResult type = true) :
    (∃ a, buildArray C type values = .ok a) ↔ Decodable C type values := by
  constructor
  · rintro ⟨a, h⟩
    have hcol := column_of_build type hr h
    refine ⟨fun v hv => ?_, hcol.lists, hcol.buffers⟩
    obtain ⟨i, hi⟩ := List.mem_iff_getElem?.mp hv
    rw [hcol.read i v hi]
    rfl
  · rintro ⟨hd, hl, hb⟩
    exact buildable type hr hd hl hb

/-- Building by columns is decoding by rows. A column is built exactly when all its values decode,
at every depth, and the elements of its lists fit the offsets; builders of texts that have a limit
must hold the bytes. Each slot then reads as the decoding of its value. -/
theorem buildArray_eq_decode (C : Decoder) {type : DataType} (hr : isResult type = true)
    (values : List (Option Value)) :
    ((∃ a, buildArray C type values = .ok a) ↔
      (∀ v ∈ values, (decode C type v).isSome = true) ∧ Throughout ListFits type values ∧
        Throughout (BufferFits C) type values) ∧
    (C.capacity = none → Throughout (BufferFits C) type values) ∧
    ∀ a, buildArray C type values = .ok a →
      a.length = values.length ∧
      ∀ i v, values[i]? = some v →
        (a.isNull i = true ↔ present v = none) ∧ decode C type v = some (a.read i) := by
  refine ⟨(build_iff hr).trans ⟨fun h => ⟨h.decodes, h.lists, h.buffers⟩,
    fun ⟨hd, hl, hb⟩ => ⟨hd, hl, hb⟩⟩, fun hc => ?_, fun a h => ?_⟩
  · exact throughout_of_forall (bufferFits_of_unlimited hc) type values
  · have hcol := column_of_build type hr h
    exact ⟨hcol.length, fun i v hv => ⟨hcol.isNull i v hv, hcol.read i v hv⟩⟩

/-- A decoder without floats, base64 and JSON. -/
def plainDecoder : Decoder where
  parseF64 := fun _ => none
  narrow := fun _ => 0
  base64 := fun _ => none
  isRfc3339 := fun _ => false
  renderJson := fun _ => []
  debug := id
  arrowMessage := fun _ => []
  capacity := some maxOffset

/-- An array of structs whose two fields have the same, empty name. -/
def pairs : DataType :=
  .list (.new "item".toList
    (.struct (.cons (.new [] .boolean true) (.cons (.new [] .boolean true) .nil))) true)

/-- Absent, NULL, and three structs of which one is short and one is NULL. -/
def pairsValues : List (Option Value) :=
  [none, some .null, some (.list [.list [.bool true], .null, .list [.bool false, .bool true]])]

theorem buildArray_eq_decode_pairs :
    isResult pairs = true ∧ ∃ a, buildArray plainDecoder pairs pairsValues = .ok a ∧
      a.length = 3 ∧ a.isNull 0 = true ∧
      a.read 2 = .list [.struct [.scalar (.bool true), .null], .null,
        .struct [.scalar (.bool false), .scalar (.bool true)]] := by
  have hr : isResult pairs = true := by decide
  obtain ⟨hbuild, -, hread⟩ := buildArray_eq_decode plainDecoder hr pairsValues
  have hlists : (pairsValues.flatMap elements).length ≤ maxOffset := by decide
  obtain ⟨a, ha⟩ := hbuild.mpr
    ⟨by decide, ⟨hlists, trivial, trivial, trivial⟩, ⟨trivial, rfl, rfl, trivial⟩⟩
  obtain ⟨hlen, hslot⟩ := hread a ha
  refine ⟨hr, a, ha, hlen, (hslot 0 none rfl).1.mpr rfl, ?_⟩
  exact Option.some.inj ((hslot 2 _ rfl).2.symm.trans rfl)

end Convert
end SpannerAdbc
