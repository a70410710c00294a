import SpannerAdbc.Arrow.Take
import SpannerAdbc.Binding.Agree

/-!
# SpannerAdbc.Binding.Dictionary

A dictionary-encoded column against the plain column it encodes (`ArrayData.decode`). A row of keys
leads to a cell of the innermost values or to a null key (`leads`), and `cell_value` follows it; the
cell is then bound as the decoded cell is, with four exceptions, all of which `Transparent` names:

* the `arrow.json` tag of a text that is encoded more than once is not seen;
* a null key above a second dictionary is refused, whatever the values are;
* lists of dictionary-encoded items are refused;
* a null key above decimals is bound without a look at their scale.
-/

namespace SpannerAdbc
namespace Binding

open Arrow Lib
open SpannerAdbc.Stream (Value)

variable {C : Codec} {name : List Char} {type : DataType} {bind : ScalarBinder}
  {a values : ArrayData} {item field : Field}

/-! ## Cells of taken rows -/

/-- A scalar binder reads the null and the value of a slot, nothing else. -/
theorem scalarBinder_congr (h : scalarBinder C type = some bind) {b : ArrayData} {i j : Nat}
    (hnull : a.isNull i = b.isNull j) (hslot : a.slot i = b.slot j) (name : List Char) :
    bind name a i = bind name b j := by
  cases type <;> cases h <;> simp only [scalarValue, tryScalarValue, hnull, intAt, boolAt, float16At,
    float32At, float64At, textAt, bytesAt, hslot]

/-- The scales that a number can have. -/
def scaleBinds : DataType → Bool
  | .decimal128 _ scale => 0 ≤ scale ∧ scale ≤ 38
  | _ => true

/-- A null binds as NULL, of a decimal only if its scale does. -/
theorem scalarBinder_null (h : scalarBinder C type = some bind) {i : Nat}
    (hnull : type = .null ∨ a.isNull i = true) (name : List Char) :
    (bind name a i).toOption = if scaleBinds type then some nullValue else none := by
  cases type with
  | decimal128 precision scale =>
    have hnull : a.isNull i = true := hnull.resolve_left (by simp)
    cases h
    by_cases hscale : 0 ≤ scale ∧ scale ≤ 38
    · simp [numericScale, hscale, scalarValue, hnull, scaleBinds, Bind.bind, Except.bind,
        Except.toOption]
    · simp [numericScale, hscale, scaleBinds, Bind.bind, Except.bind, Except.toOption]
  | null =>
    cases h
    rfl
  | _ =>
    cases h <;> (
      have hnull : a.isNull i = true := hnull.resolve_left (by simp)
      simp only [scalarValue, tryScalarValue, hnull, if_true]
      rfl)

/-- Neither a list nor a dictionary. -/
def isCell : ArrayData → Bool
  | .list _ _ _ _ _ | .dictionary _ _ _ => false
  | _ => true

theorem cellValue_of_isCell (h : isCell a = true) (field : Field) (row : Nat) :
    cellValue C name field a row = match scalarBinder C a.dataType with
      | none => .error (.unsupportedType name a.dataType)
      | some bind => do return (← bind name a row, jsonType field) := by
  cases a with
  | list | dictionary => cases h
  | _ => rfl

theorem isCell_take (h : isCell a = true) (indices : List (Option Nat)) :
    isCell (a.take indices) = true := by
  cases a with
  | list | dictionary => cases h
  | _ => rfl

theorem isFlat_of_isCell (ha : a.Valid) (h : isCell a = true) :
    isFlat a.dataType = true := by
  cases a with
  | list | dictionary => cases h
  | null | struct | union => rfl
  | scalars type slots =>
    have hscalar := ha.1
    rw [ArrayData.dataType]
    cases type <;> first | rfl | cases hscalar
  | other type len =>
    rw [ArrayData.dataType]
    cases type <;> first | rfl | cases ha

theorem nullDictionaryValue_of_isFlat (h : isFlat type = true) (field : Field) :
    nullDictionaryValue C name field type = match scalarBinder C type with
      | none => .error (.unsupportedType name type)
      | some _ => .ok (nullValue, jsonType field) := by
  cases type with
  | list | largeList | dictionary => cases h
  | _ => rfl

theorem scalarBinder_of_not_isModelled (h : type.isModelled = false) :
    scalarBinder C type = none := by
  cases type <;> first | rfl | cases h

/-- The outcome of a scalar is its value with the type of the parameter. -/
theorem toOption_tag (r : Except BindError Value) (tag : Option ParamType) :
    (do return (← r, tag) : Except BindError (Value × Option ParamType)).toOption =
      r.toOption.map fun value => (value, tag) := by
  cases r <;> rfl

section Take

variable {a : ArrayData} {indices : List (Option Nat)} {p row : Nat}

/-- A list cell of the same elements. -/
theorem listCellValue_congr {item : Field} {x y : Slice} (hlen : x.len = y.len)
    (hnull : ∀ j < y.len, x.array.isNull (x.start + j) = y.array.isNull (y.start + j))
    (hslot : ∀ j < y.len, x.array.slot (x.start + j) = y.array.slot (y.start + j)) :
    listCellValue C name item (some x) = listCellValue C name item (some y) := by
  unfold listCellValue
  cases hbind : scalarBinder C item.dataType with
  | none => rfl
  | some bind =>
    have hitems : (List.range x.len).mapM (fun j => bind name x.array (x.start + j)) =
        (List.range y.len).mapM (fun j => bind name y.array (y.start + j)) := by
      rw [hlen]
      refine mapM_congr fun j hj => ?_
      have hj := List.mem_range.mp hj
      exact scalarBinder_congr hbind (hnull j hj) (hslot j hj) name
    simp only [sliceValue, hitems]

theorem cellValue_take (ha : a.Valid) (hplain : a.dataType.isDictionary = false)
    (h : indices[p]? = some (some row)) (hrow : row < a.length) (field : Field) :
    cellValue C name field (a.take indices) p = cellValue C name field a row := by
  by_cases hcell : isCell a = true
  · rw [cellValue_of_isCell (isCell_take hcell indices), cellValue_of_isCell hcell, dataType_take]
    cases hbind : scalarBinder C a.dataType with
    | none => rfl
    | some bind =>
      have heq : bind name (a.take indices) p = bind name a row :=
        scalarBinder_congr hbind (isNull_take h hrow) (slot_take h) name
      simp only [heq]
  · cases a with
    | dictionary => cases hplain
    | list large item offsets child validity =>
      have hnull := isNull_take h hrow
      by_cases hvalid : validity[row]? = some true
      · obtain ⟨hlen, hflat⟩ := segment_take offsets h hvalid
        have hbound : ∀ j < offsets.getD (row + 1) 0 - offsets.getD row 0,
            offsets.getD row 0 + j < child.length := by
          intro j hj
          have := getD_le ha.2.2.1 (row + 1)
          omega
        have hnot : (ArrayData.list large item offsets child validity).isNull row = false := by
          simp [ArrayData.isNull, hvalid]
        rw [hnot] at hnull
        simp only [ArrayData.take] at hnull ⊢
        rw [cellValue, cellValue, hnull, hnot]
        exact listCellValue_congr hlen (fun j hj => isNull_take (hflat j hj) (hbound j hj))
          fun j hj => slot_take (hflat j hj)
      · have hnot : (ArrayData.list large item offsets child validity).isNull row = true := by
          have hget : validity[row]? = some validity[row] := List.getElem?_eq_getElem hrow
          rw [hget] at hvalid
          simpa [ArrayData.isNull, hget] using hvalid
        rw [hnot] at hnull
        simp only [ArrayData.take] at hnull ⊢
        rw [cellValue, cellValue, hnull, hnot]
        rfl
    | _ => exact absurd rfl hcell

/-- A missing index gives a null, which binds as the null of a dictionary does; only the scale of a
decimal is looked at as well. -/
theorem cellValue_take_null (ha : a.Valid) (hplain : a.dataType.isDictionary = false)
    (h : indices[p]? = some none) (field : Field) :
    (cellValue C name field (a.take indices) p).toOption =
      if scaleBinds a.dataType then (nullDictionaryValue C name field a.dataType).toOption
      else none := by
  by_cases hcell : isCell a = true
  · rw [cellValue_of_isCell (isCell_take hcell indices), dataType_take,
      nullDictionaryValue_of_isFlat (isFlat_of_isCell ha hcell)]
    cases hbind : scalarBinder C a.dataType with
    | none => simp [Except.toOption]
    | some bind =>
      have hnull : a.dataType = .null ∨ (a.take indices).isNull p = true := by
        cases a with
        | list | dictionary => cases hcell
        | null => exact .inl rfl
        | scalars | struct => simp [ArrayData.take, ArrayData.isNull, h, takesValue]
        | union => cases hbind
        | other type len =>
          rw [ArrayData.dataType, scalarBinder_of_not_isModelled ha] at hbind
          cases hbind
      rw [toOption_tag, scalarBinder_null hbind hnull]
      split <;> rfl
  · cases a with
    | dictionary => cases hplain
    | list large item offsets child validity =>
      have hnull : (ArrayData.take (.list large item offsets child validity) indices).isNull p =
          true := by
        simp [ArrayData.take, ArrayData.isNull, h, takesValue]
      simp only [ArrayData.take] at hnull ⊢
      rw [cellValue, hnull]
      cases large <;> rfl
    | _ => exact absurd rfl hcell

end Take

/-! ## Where a row leads -/

/-- What a row of a column comes to: a cell of the innermost values, or a null key above values of a
type. -/
inductive Lead where
  | cell (values : ArrayData) (row : Nat)
  | nullKey (valueType : DataType)

variable {lead : Lead}

def leads : ArrayData → Nat → Lead
  | .dictionary _ keys values, row =>
    match keys[row]?.join with
    | some valueRow => leads values valueRow
    | none => .nullKey values.dataType
  | .null len, row => .cell (.null len) row
  | .scalars type slots, row => .cell (.scalars type slots) row
  | .list large item offsets child validity, row =>
    .cell (.list large item offsets child validity) row
  | .struct fields children validity, row => .cell (.struct fields children validity) row
  | .union fields rows children, row => .cell (.union fields rows children) row
  | .other type len, row => .cell (.other type len) row

/-- The conversion of what a row leads to. -/
def Lead.value (C : Codec) (name : List Char) (field : Field) :
    Lead → Except BindError (Value × Option ParamType)
  | .cell values row => cellValue C name field values row
  | .nullKey valueType => nullDictionaryValue C name field valueType

theorem cellValue_eq_leads (field : Field) : ∀ (column : ArrayData) (row : Nat),
    cellValue C name field column row = (leads column row).value C name field
  | .dictionary _ keys values, row => by
    rw [cellValue, leads]
    cases keys[row]?.join with
    | none => rfl
    | some valueRow => exact cellValue_eq_leads field values valueRow
  | .null _, _ => rfl
  | .scalars _ _, _ => rfl
  | .list _ _ _ _ _, _ => rfl
  | .struct _ _ _, _ => rfl
  | .union _ _ _, _ => rfl
  | .other _ _, _ => rfl

/-- The decoded cell of what a row leads to. -/
def Lead.decodedOutcome (C : Codec) (name : List Char) (field : Field) :
    Lead → Option (Value × Option ParamType)
  | .cell values row => (cellValue C name field values.decode row).toOption
  | .nullKey valueType =>
    if scaleBinds valueType.decoded then
      (nullDictionaryValue C name field valueType.decoded).toOption
    else none

theorem isDictionary_decoded : ∀ type : DataType, type.decoded.isDictionary = false
  | .dictionary _ value => isDictionary_decoded value
  | .null | .boolean | .int8 | .int16 | .int32 | .int64 | .uint8 | .uint16 | .uint32 | .uint64
  | .float16 | .float32 | .float64 | .timestamp _ _ | .date32 | .date64 | .time32 _ | .time64 _
  | .duration _ | .interval _ | .binary | .fixedSizeBinary _ | .largeBinary | .binaryView | .utf8
  | .largeUtf8 | .utf8View | .list _ | .listView _ | .fixedSizeList _ _ | .largeList _
  | .largeListView _ | .struct _ | .union _ _ | .decimal32 _ _ | .decimal64 _ _ | .decimal128 _ _
  | .decimal256 _ _ | .map _ _ | .runEndEncoded _ _ => rfl

variable (C name) in
theorem cellValue_decode (field : Field) : ∀ {column : ArrayData} {row : Nat}, column.Valid →
    row < column.length → (cellValue C name field column.decode row).toOption =
      (leads column row).decodedOutcome C name field
  | .dictionary _ keys values, row, h, hrow => by
    have hkey : keys[row]? = some keys[row] := List.getElem?_eq_getElem hrow
    have hvalid := valid_decode h.2
    have htype := dataType_decode h.2
    have hplain : values.decode.dataType.isDictionary = false := by
      rw [htype]
      exact isDictionary_decoded _
    rw [ArrayData.decode, leads, hkey, Option.join_some]
    cases hi : keys[row] with
    | none =>
      rw [hi] at hkey
      rw [cellValue_take_null hvalid hplain hkey, htype]
      rfl
    | some i =>
      rw [hi] at hkey
      have hlt : i < values.length := h.1 _ (List.getElem_mem hrow) i hi
      rw [cellValue_take hvalid hplain hkey (by rw [length_decode]; exact hlt)]
      exact cellValue_decode field h.2 hlt
  | .null _, _, _, _ => rfl
  | .scalars _ _, _, _, _ => rfl
  | .list _ _ _ _ _, _, _, _ => rfl
  | .struct _ _ _, _, _, _ => rfl
  | .union _ _ _, _, _, _ => rfl
  | .other _ _, _, _, _ => rfl

/-! ## What encoding changes -/

/-- A list of dictionary-encoded items. -/
def encodedItems : DataType → Bool
  | .list item | .largeList item => item.dataType.isDictionary
  | _ => false

/-- Refused because of the encoding. -/
def Lead.isRefused : Lead → Bool
  | .cell values _ => encodedItems values.dataType
  | .nullKey valueType => valueType.isDictionary || encodedItems valueType

/-- Bound although the decimals it stands for are refused. -/
def Lead.skipsScale : Lead → Bool
  | .cell _ _ => false
  | .nullKey valueType => !scaleBinds valueType

/-- The types that scalars bind as, of a decimal whatever its scale is. -/
def hasBinder : DataType → Bool
  | .null => true
  | type => type.isScalar

/-- The values of a type that have a text on the wire. -/
def inRange : DataType → Int → Bool
  | .date32, days => isNaive (.ofDayNumber (epochDay + days))
  | .date64, millis => fitsSigned 32 (millis / 86400000) &&
      isNaive (.ofDayNumber (epochDay + millis / 86400000))
  | .timestamp unit _, value => unit = .nanosecond || isNaive (instant unit value).date
  | _, _ => true

def elementBinds (type : DataType) (a : ArrayData) (i : Nat) : Bool :=
  bindsScalar type && (a.isNull i || inRange type (intAt a i))

/-- What a row that is refused because of the encoding stands for does not bind either: the decoded
type of a null has no binder, or that of the items has none or one of the items does not bind. -/
def Lead.plainRefused : Lead → Bool
  | .nullKey valueType =>
    match valueType.decoded with
    | .list item | .largeList item => !hasBinder item.dataType
    | type => !bindsScalar type
  | .cell (.list large item offsets child validity) row =>
    let items := listValue offsets child.decode row
    !hasBinder item.dataType.decoded || !(ArrayData.list large item offsets child validity).isNull row &&
      (List.range items.len).any fun j =>
        !elementBinds item.dataType.decoded items.array (items.start + j)
  | .cell _ _ => false

/-- The encoding of a cell does not show. -/
structure Transparent (field : Field) (column : ArrayData) (row : Nat) : Prop where
  tag : isJsonField field = isJsonField field.decoded
  refused : (leads column row).isRefused = true → (leads column row).plainRefused = true
  scale : (leads column row).skipsScale = false

/-- What a lead has in common with the decoded type of its column. -/
inductive Lead.Of (type : DataType) : Lead → Prop where
  | cell {values : ArrayData} {row : Nat} : values.Valid → values.dataType.isDictionary = false →
      values.dataType.decoded = type → Of type (.cell values row)
  | nullKey {valueType : DataType} : valueType.decoded = type → Of type (.nullKey valueType)

theorem isDictionary_of_isFlat (h : isFlat type = true) :
    type.isDictionary = false := by
  cases type <;> first | rfl | cases h

theorem leads_of : ∀ {column : ArrayData} {row : Nat}, column.Valid →
    (leads column row).Of column.dataType.decoded
  | .dictionary _ keys values, row, h => by
    rw [leads]
    cases keys[row]?.join with
    | none => exact .nullKey rfl
    | some i => exact leads_of h.2
  | .null _, _, h => .cell h rfl rfl
  | .scalars _ _, _, h => .cell h (isDictionary_of_isFlat (isFlat_of_isCell h rfl)) rfl
  | .list large _ _ _ _, _, h => .cell h (by cases large <;> rfl) rfl
  | .struct _ _ _, _, h => .cell h rfl rfl
  | .union _ _ _, _, h => .cell h rfl rfl
  | .other _ _, _, h => .cell h (isDictionary_of_isFlat (isFlat_of_isCell h rfl)) rfl

theorem scalarBinder_dictionary (h : type.isDictionary = true) :
    scalarBinder C type = none := by
  cases type <;> first | rfl | cases h

theorem listCellValue_encoded (h : item.dataType.isDictionary = true) (slice : Option Slice) :
    (listCellValue C name item slice).toOption = none := by
  rw [listCellValue, scalarBinder_dictionary h]
  rfl

/-- Decoding leaves the types that bind as scalars alone, and makes no other type one of them. -/
theorem scalarBinder_decoded (h : type.isDictionary = false) :
    scalarBinder C type.decoded = scalarBinder C type := by
  cases type <;> first | rfl | cases h

theorem isJsonField_decoded (h : field.dataType.isDictionary = false) :
    isJsonField field.decoded = isJsonField field := by
  obtain ⟨name, type, nullable, metadata⟩ := field
  cases type <;> first | rfl | cases h

theorem listCellValue_decoded (h : item.dataType.isDictionary = false) {x y : Option Slice}
    (hxy : ∀ bind, scalarBinder C item.dataType = some bind → x = y) :
    (listCellValue C name item x).toOption = (listCellValue C name item.decoded y).toOption := by
  unfold listCellValue
  rw [dataType_decoded, scalarBinder_decoded h, isJsonField_decoded h]
  cases hbind : scalarBinder C item.dataType with
  | none => rfl
  | some bind => rw [hxy bind hbind]

/-- The arrays of scalars are their own decoded arrays. -/
theorem decode_of_scalarBinder (h : scalarBinder C a.dataType = some bind) : a.decode = a := by
  cases a with
  | list large item offsets child validity => cases large <;> cases h
  | struct | dictionary => cases h
  | _ => rfl

/-- A list cell binds as the decoded one, unless its items are encoded. -/
theorem listCell_decode {large : Bool} {offsets : List Nat} {child : ArrayData}
    {validity : List Bool} (ha : (ArrayData.list large item offsets child validity).Valid)
    (h : item.dataType.isDictionary = false) (f g : Field) (row : Nat) :
    (cellValue C name f (.list large item offsets child validity) row).toOption =
      (cellValue C name g (ArrayData.decode (.list large item offsets child validity)) row).toOption :=
    by
  refine listCellValue_decoded h fun bind hbind => ?_
  rw [← ha.2.2.2.1] at hbind
  rw [decode_of_scalarBinder hbind]
  rfl

/-- Only a list has encoded items. -/
theorem list_of_encodedItems (hvalid : values.Valid) (h : encodedItems values.dataType = true) :
    ∃ large item offsets child validity,
      values = .list large item offsets child validity := by
  by_cases hcell : isCell values = true
  · have hflat := isFlat_of_isCell hvalid hcell
    generalize values.dataType = type at h hflat
    cases type <;> first | cases h | cases hflat
  · cases values with
    | list large item offsets child validity => exact ⟨large, item, offsets, child, validity, rfl⟩
    | dictionary => cases h
    | _ => exact absurd rfl hcell

variable (C name) in
theorem toOption_of_isRefused (hof : lead.Of type) (h : lead.isRefused = true) (field : Field) :
    (lead.value C name field).toOption = none := by
  cases hof with
  | @cell values row hvalid _ _ =>
    obtain ⟨large, item, offsets, child, validity, rfl⟩ := list_of_encodedItems hvalid h
    have hitem : item.dataType.isDictionary = true := by cases large <;> exact h
    exact listCellValue_encoded hitem _
  | @nullKey valueType _ =>
    cases valueType with
    | list item | largeList item => exact listCellValue_encoded h _
    | dictionary => rfl
    | _ => cases h

theorem isSome_scalarBinder (type : DataType) : (scalarBinder C type).isSome = hasBinder type := by
  cases type <;> rfl

theorem hasBinder_of_none (h : scalarBinder C type = none) :
    hasBinder type = false := by
  rw [← isSome_scalarBinder (C := C), h]
  rfl

theorem hasBinder_of_some (h : scalarBinder C type = some bind) : hasBinder type = true := by
  rw [← isSome_scalarBinder (C := C), h]
  rfl

theorem bindsScalar_eq (type : DataType) :
    bindsScalar type = (hasBinder type && scaleBinds type) := by
  cases type <;> simp [bindsScalar, hasBinder, scaleBinds, DataType.isScalar]

/-- An element is refused for the scale of its type or for its range. -/
theorem scalarBinder_eq_error_iff (h : scalarBinder C type = some bind) (name : List Char)
    (a : ArrayData) (i : Nat) :
    (bind name a i).toOption = none ↔ elementBinds type a i = false := by
  have htry : ∀ {convert : List Char → Int → Except BindError (List Char)} {range : Int → Bool},
      (∀ v, (convert name v).toOption.isSome = range v) →
      ((tryScalarValue convert name a i).toOption = none ↔
        (a.isNull i || range (intAt a i)) = false) := by
    intro convert range hconvert
    unfold tryScalarValue
    cases a.isNull i with
    | true => simp [Except.toOption]
    | false =>
      rw [Bool.false_or, ← hconvert]
      cases convert name (intAt a i) <;> simp [Except.toOption, Except.map]
  cases type with
  | decimal128 precision scale =>
    cases h
    by_cases hscale : 0 ≤ scale ∧ scale ≤ 38
    · simp [numericScale, hscale, scalarValue, elementBinds, bindsScalar, inRange, Bind.bind,
        Except.bind, Except.toOption]
    · simp [numericScale, hscale, elementBinds, bindsScalar, Bind.bind, Except.bind,
        Except.toOption]
  | date32 =>
    cases h
    refine htry fun days => ?_
    simp only [dateString, inRange]
    split <;> simp_all [Except.toOption]
  | date64 =>
    cases h
    refine htry fun millis => ?_
    simp only [date64Days, dateString, inRange]
    split
    · simp only [Bind.bind, Except.bind]
      split <;> simp_all [Except.toOption]
    · simp_all [Except.toOption, Bind.bind, Except.bind]
  | timestamp unit timezone =>
    cases h
    refine htry fun value => ?_
    simp only [timestampString, inRange]
    split <;> simp_all [Except.toOption]
  | _ =>
    cases h <;>
      simp [scalarValue, elementBinds, bindsScalar, inRange, DataType.isScalar, Except.toOption]

theorem toOption_mapM_eq_none {α β : Type} {f : α → Except BindError β} {as : List α} :
    (as.mapM f).toOption = none ↔ ∃ a ∈ as, (f a).toOption = none := by
  induction as with
  | nil => simp [Except.toOption, pure, Except.pure]
  | cons a as ih =>
    rw [List.mapM_cons, List.exists_mem_cons_iff]
    cases ha : f a with
    | error e => simp [Except.toOption, Bind.bind, Except.bind]
    | ok b =>
      rw [← ih]
      cases List.mapM f as <;> simp [Except.toOption, Bind.bind, Except.bind, pure, Except.pure]

theorem listCellValue_eq_none_iff {slice : Option Slice} :
    (listCellValue C name item slice).toOption = none ↔ hasBinder item.dataType = false ∨
      ∃ s ∈ slice, ∃ j < s.len, elementBinds item.dataType s.array (s.start + j) = false := by
  unfold listCellValue
  cases hbind : scalarBinder C item.dataType with
  | none => exact iff_of_true rfl (.inl (hasBinder_of_none hbind))
  | some bind =>
    have hhas := hasBinder_of_some hbind
    cases slice with
    | none => simp [sliceValue, hhas, Except.toOption, Bind.bind, Except.bind, pure, Except.pure]
    | some s =>
      have hitems : ((List.range s.len).mapM fun j => bind name s.array (s.start + j)).toOption =
          none ↔ _ := toOption_mapM_eq_none
      simp only [List.mem_range, scalarBinder_eq_error_iff hbind] at hitems
      simp only [hhas, Bool.true_eq_false, false_or, Option.mem_some_iff, exists_eq_left']
      rw [← hitems, toOption_tag, Option.map_eq_none_iff, sliceValue]
      cases List.mapM (fun j => bind name s.array (s.start + j)) (List.range s.len) <;>
        simp [Except.toOption, Bind.bind, Except.bind, pure, Except.pure]

variable (C name) in
/-- When the cell that a refused row stands for is refused as well. -/
theorem decodedOutcome_eq_none_iff (hof : lead.Of type) (h : lead.isRefused = true)
    (field : Field) :
    lead.decodedOutcome C name field = none ↔ lead.plainRefused = true := by
  cases hof with
  | @nullKey valueType _ =>
    have hplain := isDictionary_decoded valueType
    rw [Lead.decodedOutcome, Lead.plainRefused]
    generalize valueType.decoded = type at hplain ⊢
    cases type with
    | dictionary => cases hplain
    | list item | largeList item =>
      simp [scaleBinds, nullDictionaryValue, listCellValue_eq_none_iff]
    | _ =>
      rw [nullDictionaryValue_of_isFlat rfl]
      simp only [bindsScalar_eq]
      cases hbind : scalarBinder C _ with
      | none => simp [hasBinder_of_none hbind, Except.toOption]
      | some bind => simp [hasBinder_of_some hbind, Except.toOption]
  | @cell values row hvalid _ _ =>
    obtain ⟨large, item, offsets, child, validity, rfl⟩ := list_of_encodedItems hvalid h
    have hnull : (ArrayData.list large item.decoded offsets child.decode validity).isNull row =
        (ArrayData.list large item offsets child validity).isNull row := rfl
    rw [Lead.decodedOutcome, Lead.plainRefused, ArrayData.decode, cellValue, hnull,
      listCellValue_eq_none_iff, dataType_decoded]
    cases (ArrayData.list large item offsets child validity).isNull row <;> simp

theorem isString_iff :
    type.isString = true ↔ type = .utf8 ∨ type = .largeUtf8 ∨ type = .utf8View := by
  cases type <;> simp [DataType.isString]

theorem isString_storage (h : type.isDictionary = false) :
    type.storage.isString = type.isString := by
  cases type <;> first | rfl | cases h

/-- Decoding changes no string type, and makes none of another plain type. -/
theorem isString_decoded (h : type.isDictionary = false) :
    type.decoded.isString = type.isString := by
  cases type <;> first | rfl | cases h

theorem decoded_of_isString (h : type.isString = true) : type.decoded = type := by
  obtain rfl | rfl | rfl := isString_iff.mp h <;> rfl

/-- Only a field of texts has a tag to lose. -/
theorem isString_of_tag_ne (h : isJsonField field ≠ isJsonField field.decoded) :
    field.dataType.decoded.isString = true := by
  by_contra hstring
  refine h ?_
  have hplain : field.dataType.decoded.storage.isString = false := by
    rw [isString_storage (isDictionary_decoded _)]
    exact Bool.eq_false_iff.mpr hstring
  have hstorage : field.dataType.storage.isString = false := by
    refine Bool.eq_false_iff.mpr fun hstorage => hstring ?_
    cases htype : field.dataType with
    | dictionary key value =>
      rw [htype] at hstorage
      have hvalue : value.isString = true := hstorage
      rw [DataType.decoded, decoded_of_isString hvalue]
      exact hvalue
    | _ =>
      rw [htype] at hstorage
      exact hstorage
  rw [isJsonField, isJsonField, dataType_decoded, hplain, hstorage]
  rfl

variable (C name) in
/-- A text always binds, under the type its field asks for. -/
theorem cellValue_text (hvalid : values.Valid) (h : values.dataType.isString = true) (row : Nat) :
    ∃ value, ∀ field, cellValue C name field values row = .ok (value, jsonType field) := by
  cases values with
  | null | struct | dictionary | union => cases h
  | list large => cases large <;> cases h
  | other type len => obtain rfl | rfl | rfl := isString_iff.mp h <;> cases hvalid
  | scalars type slots => obtain rfl | rfl | rfl := isString_iff.mp h <;> exact ⟨_, fun _ => rfl⟩

theorem nullDictionaryValue_text (h : type.isString = true) (field : Field) :
    nullDictionaryValue C name field type = .ok (nullValue, jsonType field) := by
  obtain rfl | rfl | rfl := isString_iff.mp h <;> rfl

variable (C name) in
/-- Of texts the decoded cell is accepted, and so is the encoded one if nothing refuses it; they
have the same value, each under the type of its own field. -/
theorem text_outcome (hof : lead.Of type) (hstring : type.isString = true) :
    ∃ value, (∀ field, lead.decodedOutcome C name field = some (value, jsonType field)) ∧
      (lead.isRefused = false →
        ∀ field, (lead.value C name field).toOption = some (value, jsonType field)) := by
  cases hof with
  | @cell values row hvalid hplain htype =>
    rw [← htype, isString_decoded hplain] at hstring
    have hdecode : values.decode = values := by
      cases values with
      | list large => cases large <;> cases hstring
      | struct | dictionary => cases hstring
      | _ => rfl
    obtain ⟨value, hvalue⟩ := cellValue_text C name hvalid hstring row
    refine ⟨value, fun field => ?_, fun _ field => ?_⟩
    · rw [Lead.decodedOutcome, hdecode, hvalue]
      rfl
    · rw [Lead.value, hvalue]
      rfl
  | @nullKey valueType htype =>
    rw [← htype] at hstring
    have hscale : scaleBinds valueType.decoded = true := by
      obtain htype | htype | htype := isString_iff.mp hstring <;> rw [htype] <;> rfl
    refine ⟨nullValue, fun field => ?_, fun href field => ?_⟩
    · rw [Lead.decodedOutcome, if_pos hscale, nullDictionaryValue_text hstring]
      rfl
    · have hplain : valueType.isDictionary = false := (Bool.or_eq_false_iff.mp href).1
      rw [isString_decoded hplain] at hstring
      rw [Lead.value, nullDictionaryValue_text hstring]
      rfl

/-- Where the scale is skipped the null is bound, and the decoded null is not. -/
theorem outcome_of_skipsScale (hof : lead.Of type) (h : lead.skipsScale = true) (f g : Field) :
    (lead.value C name f).toOption ≠ lead.decodedOutcome C name g := by
  cases hof with
  | cell => cases h
  | @nullKey valueType _ =>
    cases valueType with
    | decimal128 precision scale =>
      have hscale : scaleBinds (.decimal128 precision scale) = false := by
        simpa [Lead.skipsScale] using h
      have hdecoded : DataType.decoded (.decimal128 precision scale) =
          .decimal128 precision scale := rfl
      rw [Lead.decodedOutcome, hdecoded, hscale]
      exact Option.some_ne_none _
    | _ => cases h

/-- Nothing else shows. -/
theorem outcome_of_same_tag (hof : lead.Of type) (href : lead.isRefused = false)
    (hscale : lead.skipsScale = false) {f g : Field} (htag : isJsonField f = isJsonField g) :
    (lead.value C name f).toOption = lead.decodedOutcome C name g := by
  have hjson : jsonType f = jsonType g := by rw [jsonType, jsonType, htag]
  cases hof with
  | @cell values row hvalid hplain _ =>
    by_cases hcell : isCell values = true
    · cases values with
      | list | dictionary => cases hcell
      | struct fields children validity => rfl
      | _ =>
        simp only [Lead.value, Lead.decodedOutcome, ArrayData.decode]
        rw [cellValue_of_isCell rfl, cellValue_of_isCell rfl, hjson]
    · cases values with
      | dictionary => cases hplain
      | list large item offsets child validity =>
        have hitem : item.dataType.isDictionary = false := by cases large <;> exact href
        exact listCell_decode hvalid hitem f g row
      | _ => exact absurd rfl hcell
  | @nullKey valueType _ =>
    obtain ⟨hplain, hitems⟩ := Bool.or_eq_false_iff.mp href
    have hbinds : scaleBinds valueType = true := by simpa [Lead.skipsScale] using hscale
    cases valueType with
    | dictionary => cases hplain
    | list item | largeList item =>
      exact listCellValue_decoded hitems fun _ _ => rfl
    | struct fields => rfl
    | _ =>
      simp only [Lead.value, Lead.decodedOutcome, DataType.decoded, hbinds, if_true]
      rw [nullDictionaryValue_of_isFlat rfl, nullDictionaryValue_of_isFlat rfl, hjson]

theorem skipsScale_of_isRefused (h : lead.isRefused = true) :
    lead.skipsScale = false := by
  cases lead with
  | cell => rfl
  | nullKey valueType => cases valueType <;> first | rfl | cases h

/-- For every column and row, converting the encoded cell and the decoded one come to the same value,
parameter type and acceptance exactly when the encoding is transparent. -/
theorem dictionary_binding_iff {field : Field} {column : ArrayData} {row : Nat}
    (hvalid : column.Valid) (hrow : row < column.length) (htype : field.dataType = column.dataType) :
    (cellValue C name field column row).toOption =
        (cellValue C name field.decoded column.decode row).toOption ↔
      Transparent field column row := by
  have hof : (leads column row).Of field.dataType.decoded := by
    rw [htype]
    exact leads_of hvalid
  have hdecoded := cellValue_decode C name field.decoded hvalid hrow
  rw [cellValue_eq_leads field column row, hdecoded]
  cases href : (leads column row).isRefused with
  | true =>
    have hnone := toOption_of_isRefused C name hof href field
    rw [hnone]
    constructor
    · intro hsame
      refine ⟨?_, fun _ => ?_, skipsScale_of_isRefused href⟩
      · by_contra htag
        obtain ⟨value, haccepted, _⟩ :=
          text_outcome C name hof (isString_of_tag_ne htag)
        rw [haccepted] at hsame
        cases hsame
      · exact (decodedOutcome_eq_none_iff C name hof href _).mp hsame.symm
    · intro h
      exact ((decodedOutcome_eq_none_iff C name hof href _).mpr (h.refused href)).symm
  | false =>
    cases hscale : (leads column row).skipsScale with
    | true =>
      refine iff_of_false (outcome_of_skipsScale hof hscale _ _) fun h => ?_
      rw [h.scale] at hscale
      cases hscale
    | false =>
      by_cases htag : isJsonField field = isJsonField field.decoded
      · refine iff_of_true (outcome_of_same_tag hof href hscale htag) ⟨htag, fun h => ?_, hscale⟩
        rw [href] at h
        cases h
      · -- Both are accepted, with the same text and different types.
        refine iff_of_false (fun hsame => ?_) fun h => htag h.tag
        obtain ⟨value, hright, hleft⟩ :=
          text_outcome C name hof (isString_of_tag_ne htag)
        rw [hleft href, hright, Option.some.injEq, Prod.mk.injEq] at hsame
        refine htag ?_
        have hjson := hsame.2
        unfold jsonType at hjson
        cases h : isJsonField field <;> cases h' : isJsonField field.decoded <;>
          simp [h, h'] at hjson ⊢

/-- One dictionary of plain values, of a scale that binds and without encoded items, is never seen. -/
theorem transparent_of_plain {key : KeyType}
    (htype : field.dataType = .dictionary key values.dataType)
    (hplain : values.dataType.isDictionary = false)
    (hitems : encodedItems values.dataType = false) (hscale : scaleBinds values.dataType = true)
    (keys : List (Option Nat)) (row : Nat) :
    Transparent field (.dictionary key keys values) row := by
  have htag : isJsonField field = isJsonField field.decoded := by
    have hstorage : field.dataType.decoded.storage.isString = field.dataType.storage.isString := by
      rw [isString_storage (isDictionary_decoded _), htype]
      exact isString_decoded hplain
    rw [isJsonField, isJsonField, dataType_decoded, hstorage]
    cases field
    rfl
  have hcell : ∀ i, leads values i = .cell values i := by
    intro i
    cases values with
    | dictionary => cases hplain
    | _ => rfl
  have hlead : (leads (.dictionary key keys values) row).isRefused = false ∧
      (leads (.dictionary key keys values) row).skipsScale = false := by
    rw [leads]
    cases keys[row]?.join with
    | none => simp [Lead.isRefused, Lead.skipsScale, hplain, hitems, hscale]
    | some i => simp [hcell, Lead.isRefused, Lead.skipsScale, hitems]
  refine ⟨htag, fun h => ?_, hlead.2⟩
  rw [hlead.1] at h
  cases h

/-- Texts with a null among the keys and one in the dictionary. -/
def encodedTexts : ArrayData :=
  .dictionary .int8 [some 1, none, some 0] (.scalars .utf8 [none, some (.text "a".toList)])

theorem encodedTexts_valid : encodedTexts.Valid := ⟨by decide, rfl, by decide⟩

def jsonField (type : DataType) : Field :=
  .mk "doc".toList type true [(arrowExtensionName, arrowJsonExtension)]

theorem dictionary_binding_texts :
    (cellValue plainCodec "doc".toList (jsonField encodedTexts.dataType) encodedTexts 1).toOption =
      (cellValue plainCodec "doc".toList (jsonField encodedTexts.dataType).decoded encodedTexts.decode
        1).toOption :=
  (dictionary_binding_iff encodedTexts_valid (by decide) rfl).mpr
    (transparent_of_plain rfl rfl rfl rfl _ _)

/-- The same texts, encoded once more. -/
def encodedTwice : ArrayData := .dictionary .int8 [some 0, none] encodedTexts

/-- Decimals of a scale that no number has. -/
def encodedTens : ArrayData := .dictionary .int8 [none] (.scalars (.decimal128 5 (-1)) [])

/-- A list of one encoded text. -/
def encodedList : ArrayData :=
  .list false (.new "item".toList (.dictionary .int8 .utf8) true) [0, 1]
    (.dictionary .int8 [some 0] (.scalars .utf8 [some (.text "a".toList)])) [true]

/-- Encoded twice a tagged text is no longer JSON and a null key is refused, although the decoded
column binds both as JSON; a null of decimals is bound that is refused when it is not encoded; and
a list of encoded texts is refused. -/
theorem dictionary_binding_shows :
    cellValue plainCodec "doc".toList (jsonField encodedTwice.dataType) encodedTwice 0 =
        .ok (.string "a", none) ∧
      cellValue plainCodec "doc".toList (jsonField encodedTwice.dataType).decoded
        encodedTwice.decode 0 = .ok (.string "a", some .json) ∧
    cellValue plainCodec "doc".toList (jsonField encodedTwice.dataType) encodedTwice 1 =
        .error (.unsupportedType "doc".toList (.dictionary .int8 .utf8)) ∧
      cellValue plainCodec "doc".toList (jsonField encodedTwice.dataType).decoded
        encodedTwice.decode 1 = .ok (.null, some .json) ∧
    cellValue plainCodec "n".toList (.new "n".toList encodedTens.dataType true) encodedTens 0 =
        .ok (.null, none) ∧
      cellValue plainCodec "n".toList (Field.decoded (.new "n".toList encodedTens.dataType true))
        encodedTens.decode 0 = .error (.unsupportedScale "n".toList (-1)) ∧
    cellValue plainCodec "l".toList (.new "l".toList encodedList.dataType true) encodedList 0 =
        .error (.unsupportedElement "l".toList (.dictionary .int8 .utf8)) ∧
      cellValue plainCodec "l".toList (Field.decoded (.new "l".toList encodedList.dataType true))
        encodedList.decode 0 = .ok (.list [.string "a"], none) :=
  ⟨rfl, rfl, rfl, rfl, rfl, rfl, rfl, rfl⟩

end Binding
end SpannerAdbc
