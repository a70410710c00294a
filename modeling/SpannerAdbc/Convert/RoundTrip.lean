import Mathlib.Algebra.Order.Field.Rat
import SpannerAdbc.Binding.Cell
import SpannerAdbc.Convert.Schema
import SpannerAdbc.Convert.Wire

/-!
# SpannerAdbc.Convert.RoundTrip

Binding and reading are inverse. An Arrow cell is encoded by `cellValue` and its wire value decoded at
the Spanner type that matches the field; what it means is the same before and after.

Cells are compared by their `Logical` value: a date by its day, a timestamp of any unit by its instant
and a decimal of any scale by the number it is.
-/

namespace SpannerAdbc
namespace Convert

open Arrow Lib Binding
open SpannerAdbc.Stream (Value)

/-! ## What cells mean -/

inductive Logical where
  | null
  | scalar (value : Scalar)
  | day (days : Int)
  | instant (nanos : Int)
  | decimal (value : ℚ)
  | list (items : List Logical)

def scalarMeaning : DataType → Scalar → Logical
  | .date32, .int days => .day days
  | .date64, .int millis => .day (millis / 86400000)
  | .timestamp unit _, .int ticks => .instant (ticks * tickNanos unit)
  | .decimal128 _ scale, .int unscaled => .decimal (unscaled / 10 ^ scale.toNat)
  | _, value => .scalar value

def elementMeaning (type : DataType) : Datum → Logical
  | .scalar value => scalarMeaning type value
  | _ => .null

/-- The logical value of a cell of a scalar type or of a list of scalars. -/
def meaning : DataType → Datum → Logical
  | .list item, .list items | .largeList item, .list items =>
    .list (items.map (elementMeaning item.dataType))
  | type, datum => elementMeaning type datum

/-! ## Matching types -/

/-- The Spanner type of a scalar type. -/
def matchingCode : DataType → Option TypeCode
  | .int8 | .int16 | .int32 | .int64 | .uint8 | .uint16 | .uint32 => some .int64
  | .boolean => some .bool
  | .utf8 | .largeUtf8 | .utf8View => some .string
  | .binary | .largeBinary | .binaryView | .fixedSizeBinary _ => some .bytes
  | .date32 | .date64 => some .date
  | .timestamp _ _ => some .timestamp
  | .decimal128 _ scale => if 0 ≤ scale ∧ scale ≤ 9 then some .numeric else none
  | _ => none

/-- A tagged text is JSON. -/
def matchingElement (field : Field) : Option SpannerType :=
  (matchingCode field.dataType).map fun code =>
    .mk (if isJsonField field then .json else code) .absent .absent

def matchingType (field : Field) : Option SpannerType :=
  match field.dataType with
  | .list item | .largeList item =>
    (matchingElement item).map fun element => .mk .array (.of element) .absent
  | _ => matchingElement field

/-! ## Ranges -/

/-- The values that are in the range of the Spanner type and of the Arrow type it is read as. The
other types have no values outside. -/
def ScalarInRange : DataType → Scalar → Prop
  | .date32, .int days => isSpannerDay days
  | .date64, .int millis => isSpannerDay (millis / 86400000)
  | .timestamp unit _, .int ticks => fitsSigned 64 (ticks * tickNanos unit) = true
  | .decimal128 _ scale, .int unscaled => unscaled.natAbs * 10 ^ (9 - scale.toNat) < 10 ^ 38
  | _, _ => True

def ElementInRange (type : DataType) (datum : Datum) : Prop :=
  ∀ value, datum = .scalar value → ScalarInRange type value

def InRange : DataType → Datum → Prop
  | .list item, .list items | .largeList item, .list items =>
    ∀ datum ∈ items, ElementInRange item.dataType datum
  | type, datum => ElementInRange type datum

/-! ## Scalars -/

/-- The Arrow type that a Spanner type without parts is read as. -/
def codeType : TypeCode → DataType
  | .int64 => .int64
  | .bool => .boolean
  | .bytes => .binary
  | .date => .date32
  | .timestamp => .timestamp .nanosecond (some timestampTz)
  | .numeric => .decimal128 numericPrecision numericScale
  | _ => .utf8

section Scalars

variable (C : Codec) (D : Decoder)

/-- An encoder of elements of type `type` whose wire values are read at `target` as what they were. -/
structure Encodes (type target : DataType) (bind : ScalarBinder) : Prop where
  null : ∀ name a i, a.isNull i = true → bind name a i = .ok nullValue
  value : ∀ name a i s, a.isNull i = false → a.slot i = some s → Scalar.fits type s = true →
    ScalarInRange type s → ∃ v s', bind name a i = .ok v ∧ v ≠ .null ∧
      convertScalar D target v = .ok s' ∧ scalarMeaning target s' = scalarMeaning type s

variable {C D} {type : DataType}

theorem encodes_scalarValue {target : DataType} {convert : ArrayData → Nat → Value}
    (h : ∀ a i s, a.slot i = some s → Scalar.fits type s = true → ScalarInRange type s →
      convert a i ≠ .null ∧ ∃ s', convertScalar D target (convert a i) = .ok s' ∧
        scalarMeaning target s' = scalarMeaning type s) :
    Encodes D type target (scalarValue convert) where
  null := fun name a i hn => by rw [scalarValue, if_pos hn]
  value := fun name a i s hn hs hfits hrange => by
    obtain ⟨hne, s', hconv, hmean⟩ := h a i s hs hfits hrange
    refine ⟨convert a i, s', ?_, hne, hconv, hmean⟩
    rw [scalarValue, if_neg (by simp [hn])]

/-- The types of which a value is an integer that is formatted and parsed. -/
theorem encodes_tryScalarValue {target : DataType}
    {convert : List Char → Int → Except BindError (List Char)}
    (hint : ∀ s, Scalar.fits type s = true → ∃ i, s = .int i)
    (h : ∀ name i, ScalarInRange type (.int i) → ∃ text s', convert name i = .ok text ∧
      convertScalar D target (textValue text) = .ok s' ∧
      scalarMeaning target s' = scalarMeaning type (.int i)) :
    Encodes D type target (tryScalarValue convert) where
  null := fun name a i hn => by rw [tryScalarValue, if_pos hn]
  value := fun name a i s hn hs hfits hrange => by
    obtain ⟨n, rfl⟩ := hint s hfits
    obtain ⟨text, s', htext, hconv, hmean⟩ := h name n hrange
    refine ⟨textValue text, s', ?_, by simp [textValue], hconv, hmean⟩
    rw [tryScalarValue, if_neg (by simp [hn]), intAt, hs]
    simp only [htext]
    rfl

theorem tryAsString_textValue (text : List Char) : tryAsString (textValue text) = some text := by
  rw [textValue, tryAsString, String.toList_ofList]

theorem encodes_int
    (hint : ∀ s, Scalar.fits type s = true → ∃ i, s = .int i ∧ fitsSigned 64 i = true)
    (hmean : ∀ i, scalarMeaning type (.int i) = .scalar (.int i)) :
    Encodes D type .int64 (scalarValue fun a i => intValue (intAt a i)) := by
  refine encodes_scalarValue fun a i s hs hfits _ => ?_
  obtain ⟨n, rfl, hn⟩ := hint s hfits
  refine ⟨by simp [intValue, textValue], .int n, ?_, (hmean n).symm⟩
  rw [convertScalar, parsed_eq_ok, intAt, hs, intValue, parseInt64, tryAsString_textValue]
  simp [parseI64_intText hn]

theorem encodes_text (htext : ∀ s, Scalar.fits type s = true → ∃ t, s = .text t)
    (hmean : ∀ t, scalarMeaning type (.text t) = .scalar (.text t)) :
    Encodes D type .utf8 (scalarValue fun a i => textValue (textAt a i)) := by
  refine encodes_scalarValue fun a i s hs hfits _ => ?_
  obtain ⟨t, rfl⟩ := htext s hfits
  refine ⟨by simp [textValue], .text t, ?_, (hmean t).symm⟩
  rw [textAt, hs]
  exact congrArg (Except.ok ∘ Scalar.text) (by rw [valueText, tryAsString_textValue])

theorem encodes_bytes (hbase : ∀ bytes, D.base64 (C.base64 bytes) = some bytes)
    (hbytes : ∀ s, Scalar.fits type s = true → ∃ b, s = .bytes b)
    (hmean : ∀ b, scalarMeaning type (.bytes b) = .scalar (.bytes b)) :
    Encodes D type .binary (scalarValue fun a i => textValue (C.base64 (bytesAt a i))) := by
  refine encodes_scalarValue fun a i s hs hfits _ => ?_
  obtain ⟨b, rfl⟩ := hbytes s hfits
  refine ⟨by simp [textValue], .bytes b, ?_, (hmean b).symm⟩
  rw [convertScalar, parsed_eq_ok, bytesAt, hs, tryAsString_textValue]
  simp [hbase]

theorem encodes_boolean : Encodes D .boolean .boolean (scalarValue fun a i => .bool (boolAt a i)) := by
  refine encodes_scalarValue fun a i s hs hfits _ => ?_
  cases s with
  | bool b =>
    refine ⟨by simp, .bool b, ?_, rfl⟩
    rw [convertScalar, parsed_eq_ok, boolAt, hs]
  | _ => cases hfits

theorem encodes_date32 : Encodes D .date32 .date32 (tryScalarValue dateString) := by
  refine encodes_tryScalarValue ?_ fun name days hrange => ?_
  · intro s hs
    cases s <;> first | exact ⟨_, rfl⟩ | cases hs
  · obtain ⟨text, htext, hparse⟩ := parseDateDays_dateString name hrange
    refine ⟨text, .int days, htext, ?_, rfl⟩
    rw [convertScalar, parsed_eq_ok, tryAsString_textValue, Option.bind_some, hparse]
    rfl

theorem encodes_date64 : Encodes D .date64 .date32
    (tryScalarValue fun name millis => do dateString name (← date64Days name millis)) := by
  refine encodes_tryScalarValue ?_ fun name millis hrange => ?_
  · intro s hs
    cases s <;> first | exact ⟨_, rfl⟩ | cases hs
  · obtain ⟨text, htext, hparse⟩ := parseDateDays_dateString name hrange
    have hdays : date64Days name millis = .ok (millis / 86400000) := by
      refine if_pos (fitsSigned_iff.mpr ?_)
      have h := hrange
      simp only [ScalarInRange, isSpannerDay] at h
      omega
    refine ⟨text, .int (millis / 86400000), ?_, ?_, rfl⟩
    · rw [hdays]
      exact htext
    · rw [convertScalar, parsed_eq_ok, tryAsString_textValue, Option.bind_some, hparse]
      rfl

theorem encodes_timestamp (unit : TimeUnit) (tz : Option (List Char)) :
    Encodes D (.timestamp unit tz) (.timestamp .nanosecond (some timestampTz))
      (tryScalarValue fun name value => timestampString name unit value) := by
  refine encodes_tryScalarValue ?_ fun name ticks hrange => ?_
  · intro s hs
    cases s <;> first | exact ⟨_, rfl⟩ | cases hs
  · obtain ⟨text, htext, hparse⟩ := parseTimestampNanos_timestampString name hrange
    refine ⟨text, .int (ticks * tickNanos unit), htext, ?_, ?_⟩
    · rw [convertScalar, convertNanos, tryAsString_textValue]
      simp only [hparse]
    · simp [scalarMeaning, tickNanos, perSecond]

theorem encodes_decimal {precision : Nat} {scale : Int} (hscale : 0 ≤ scale ∧ scale ≤ 9) :
    Encodes D (.decimal128 precision scale) (.decimal128 numericPrecision numericScale)
      (fun name a i => do
        let scale ← Binding.numericScale name scale
        scalarValue (fun a i => textValue (numericString (intAt a i) scale)) name a i) := by
  have hok : ∀ name, Binding.numericScale name scale = .ok scale.toNat := fun name =>
    if_pos ⟨hscale.1, by omega⟩
  have hbind : Encodes D (.decimal128 precision scale) (.decimal128 numericPrecision numericScale)
      (scalarValue fun a i => textValue (numericString (intAt a i) scale.toNat)) := by
    refine encodes_scalarValue fun a i s hs hfits hrange => ?_
    cases s with
    | int unscaled =>
      refine ⟨by simp [textValue], .int (unscaled * 10 ^ (9 - scale.toNat)), ?_, ?_⟩
      · rw [convertScalar, parsed_eq_ok, intAt, hs, tryAsString_textValue, Option.bind_some,
          parseNumericI128_numericString (by omega) (Nat.lt_trans hrange (by decide))]
        rfl
      · -- the same number with the numerator and the denominator scaled up
        have hpow : (10 : ℚ) ^ 9 = 10 ^ scale.toNat * 10 ^ (9 - scale.toNat) := by
          rw [← pow_add, show scale.toNat + (9 - scale.toNat) = 9 by omega]
        refine congrArg Logical.decimal ?_
        change ((unscaled * 10 ^ (9 - scale.toNat) : Int) : ℚ) / 10 ^ 9 = _
        rw [hpow]
        push_cast
        exact mul_div_mul_right _ _ (pow_ne_zero _ (by decide))
    | _ => cases hfits
  refine ⟨fun name a i hn => ?_, fun name a i s hn hs hfits hrange => ?_⟩
  · rw [hok]
    exact hbind.null name a i hn
  · rw [hok]
    exact hbind.value name a i s hn hs hfits hrange

theorem encodes_of_code (hbase : ∀ bytes, D.base64 (C.base64 bytes) = some bytes)
    {code : TypeCode} (h : matchingCode type = some code) :
    ∃ bind, scalarBinder C type = some bind ∧ Encodes D type (codeType code) bind := by
  cases type with
  | int8 | int16 | int32 | int64 | uint8 | uint16 | uint32 =>
    obtain rfl := Option.some.inj h
    refine ⟨_, rfl, encodes_int (fun s hs => ?_) fun _ => rfl⟩
    cases s with
    | int i =>
      refine ⟨i, rfl, ?_⟩
      simp only [Scalar.fits, fitsSigned, fitsUnsigned, decide_eq_true_eq] at hs ⊢
      omega
    | _ => cases hs
  | boolean =>
    obtain rfl := Option.some.inj h
    exact ⟨_, rfl, encodes_boolean⟩
  | utf8 | largeUtf8 | utf8View =>
    obtain rfl := Option.some.inj h
    refine ⟨_, rfl, encodes_text (fun s hs => ?_) fun _ => rfl⟩
    cases s <;> first | exact ⟨_, rfl⟩ | cases hs
  | binary | largeBinary | binaryView | fixedSizeBinary =>
    obtain rfl := Option.some.inj h
    refine ⟨_, rfl, encodes_bytes hbase (fun s hs => ?_) fun _ => rfl⟩
    cases s <;> first | exact ⟨_, rfl⟩ | cases hs
  | date32 =>
    obtain rfl := Option.some.inj h
    exact ⟨_, rfl, encodes_date32⟩
  | date64 =>
    obtain rfl := Option.some.inj h
    exact ⟨_, rfl, encodes_date64⟩
  | timestamp unit tz =>
    obtain rfl := Option.some.inj h
    exact ⟨_, rfl, encodes_timestamp unit tz⟩
  | decimal128 precision scale =>
    simp only [matchingCode, Option.ite_none_right_eq_some, Option.some.injEq] at h
    obtain ⟨hscale, rfl⟩ := h
    exact ⟨_, rfl, encodes_decimal hscale⟩
  | _ => cases h

end Scalars

/-! ## Elements -/

section Elements

variable {C : Codec} {D : Decoder} {code : TypeCode} {type : DataType}

theorem isResult_codeType (code : TypeCode) : isResult (codeType code) = true := by
  cases code <;> rfl

theorem isLeaf_codeType (code : TypeCode) : isLeaf (codeType code) = true := by
  cases code <;> rfl

theorem arrowType_code (h : matchingCode type = some code) {depth : Nat}
    (hd : depth ≤ maxTypeNestingDepth) (json : Bool) (hjson : json = true → code = .string) :
    arrowType .nanosecondsErrorOnOverflow (.mk (if json then .json else code) .absent .absent) depth =
      .ok (codeType code) := by
  rw [arrowType.eq_def]
  simp only [capped_of_le hd]
  cases json with
  | true =>
    rw [hjson rfl]
    rfl
  | false =>
    cases type with
    | decimal128 precision scale =>
      simp only [matchingCode, Option.ite_none_right_eq_some, Option.some.injEq] at h
      obtain ⟨-, rfl⟩ := h
      rfl
    | _ => cases h <;> rfl

theorem isText_of_code (h : matchingCode type = some code) (json : Bool) :
    (if json then TypeCode.json else code).isText = false := by
  cases json with
  | true => rfl
  | false =>
    cases type with
    | decimal128 precision scale =>
      simp only [matchingCode, Option.ite_none_right_eq_some, Option.some.injEq] at h
      obtain ⟨-, rfl⟩ := h
      rfl
    | _ => cases h <;> rfl

theorem arrowType_array (h : matchingCode type = some code) (json : Bool)
    (hjson : json = true → code = .string) :
    arrowType .nanosecondsErrorOnOverflow
        (.mk .array (.of (.mk (if json then .json else code) .absent .absent)) .absent) 0 =
      .ok (.list (fieldOf listItem (if json then .json else code) true (codeType code))) := by
  rw [arrowType.eq_def]
  simp only [capped_of_le (Nat.zero_le _), arrayArrowType, SpannerType.code, isText_of_code h json,
    Bool.false_eq_true, if_false]
  exact bind_eq_ok.mpr ⟨_, arrowType_code h (by decide) json hjson, rfl⟩

/-- Only texts are tagged. -/
theorem code_of_isJsonField {field : Field} (h : matchingCode field.dataType = some code)
    (hjson : isJsonField field = true) :
    code = .string := by
  obtain ⟨hstring, -⟩ := Bool.and_eq_true_iff.mp hjson
  cases htype : field.dataType with
  | utf8 | largeUtf8 | utf8View =>
    rw [htype] at h
    exact (Option.some.inj h).symm
  | dictionary =>
    rw [htype] at h
    cases h
  | _ =>
    rw [htype] at hstring
    cases hstring

theorem scalars_of_code {column : ArrayData} (hvalid : column.Valid)
    (h : matchingCode column.dataType = some code) :
    ∃ slots, column = .scalars column.dataType slots := by
  cases column with
  | scalars type slots => exact ⟨slots, rfl⟩
  | null | struct | dictionary | union => cases h
  | list large => cases large <;> cases h
  | other type len =>
    simp only [ArrayData.dataType] at h
    cases type <;> first | (cases hvalid; done) | cases h

/-- One element, null or not. -/
theorem element_roundTrip {target : DataType} {bind : ScalarBinder}
    (henc : Encodes D type target bind) (hleaf : isLeaf target = true) {a : ArrayData}
    (hvalid : a.Valid) (ha : ∃ slots, a = .scalars type slots) (name : List Char) {i : Nat}
    (hi : i < a.length) (hrange : ElementInRange type (a.read i)) :
    ∃ v d, bind name a i = .ok v ∧ decode D target (some v) = some d ∧
      elementMeaning target d = elementMeaning type (a.read i) := by
  obtain ⟨slots, rfl⟩ := ha
  have hslot : slots[i]? = some slots[i] := List.getElem?_eq_getElem hi
  cases hs : slots[i] with
  | none =>
    rw [hs] at hslot
    refine ⟨nullValue, .null, henc.null name _ i (by simp [ArrayData.isNull, hslot]), ?_, ?_⟩
    · rw [decode_leaf hleaf]
      rfl
    · simp [ArrayData.read, hslot, elementMeaning]
  | some s =>
    rw [hs] at hslot
    have hread : ArrayData.read (.scalars type slots) i = .scalar s := by simp [ArrayData.read, hslot]
    have hfits := hvalid.2 (some s) (List.mem_of_getElem? hslot) s rfl
    obtain ⟨v, s', hbind, hne, hconv, hmean⟩ := henc.value name (.scalars type slots) i s
      (by simp [ArrayData.isNull, hslot]) (by simp [ArrayData.slot, hslot]) hfits (hrange s hread)
    refine ⟨v, .scalar s', hbind, ?_, ?_⟩
    · have hpresent : present (some v) = some v := by
        cases v <;> first | rfl | exact absurd rfl hne
      rw [decode_leaf hleaf, decodeScalar, hpresent]
      simp [hconv, Except.toOption]
    · rw [hread]
      exact hmean

end Elements

/-! ## Cells -/

section Cells

variable {C : Codec} {D : Decoder} {name : List Char} {field : Field} {column : ArrayData} {row : Nat}
  {type : DataType} {item : Field} {code : TypeCode}

/-- What is sent for a cell, what it is read as, and that it means the same. -/
def RoundTrips (C : Codec) (D : Decoder) (name : List Char) (field : Field) (column : ArrayData)
    (row : Nat) (arrow : DataType) : Prop :=
  ∃ value paramType d, cellValue C name field column row = .ok (value, paramType) ∧
    decode D arrow (some value) = some d ∧
    meaning arrow d = meaning field.dataType (column.read row) ∧
    (Throughout ListFits arrow [some value] → Throughout (BufferFits D) arrow [some value] →
      ∃ a, buildArray D arrow [some value] = .ok a ∧ a.read 0 = d)

/-- A column of the one wire value is built, and its slot reads as the decoding. -/
theorem build_single {arrow : DataType} (hr : isResult arrow = true) {value : Value} {d : Datum}
    (hd : decode D arrow (some value) = some d) (hl : Throughout ListFits arrow [some value])
    (hb : Throughout (BufferFits D) arrow [some value]) :
    ∃ a, buildArray D arrow [some value] = .ok a ∧ a.read 0 = d := by
  obtain ⟨a, ha⟩ := buildable arrow hr (by simp [hd]) hl hb
  have hread := (column_of_build arrow hr ha).read 0 (some value) rfl
  exact ⟨a, ha, Option.some.inj (hread.symm.trans hd)⟩

/-- The types of elements are no lists. -/
theorem meaning_of_code (h : matchingCode type = some code) (d : Datum) :
    meaning type d = elementMeaning type d := by
  cases type <;> first | rfl | cases h

theorem inRange_of_code (h : matchingCode type = some code) {d : Datum} (hd : InRange type d) :
    ElementInRange type d := by
  cases type <;> first | exact hd | cases h

theorem meaning_codeType (code : TypeCode) (d : Datum) :
    meaning (codeType code) d = elementMeaning (codeType code) d := by
  cases code <;> rfl

theorem cellValue_scalars {slots : List (Option Scalar)} {bind : ScalarBinder}
    (h : scalarBinder C type = some bind) :
    cellValue C name field (.scalars type slots) row = do
      return (← bind name (.scalars type slots) row, jsonType field) := by
  simp only [cellValue, ArrayData.dataType, h]

theorem scalar_roundTrips (hbase : ∀ bytes, D.base64 (C.base64 bytes) = some bytes)
    (hcode : matchingCode field.dataType = some code) (hvalid : column.Valid)
    (htype : column.dataType = field.dataType) (hrow : row < column.length)
    (hrange : InRange field.dataType (column.read row)) :
    RoundTrips C D name field column row (codeType code) := by
  rw [← htype] at hcode hrange
  obtain ⟨slots, hslots⟩ := scalars_of_code hvalid hcode
  obtain ⟨bind, hbinder, henc⟩ := encodes_of_code hbase hcode
  obtain ⟨v, d, hbind, hdecode, hmean⟩ := element_roundTrip henc (isLeaf_codeType code) hvalid
    ⟨slots, hslots⟩ name hrow (inRange_of_code hcode hrange)
  refine ⟨v, jsonType field, d, ?_, hdecode, ?_, build_single (isResult_codeType code) hdecode⟩
  · rw [hslots, cellValue_scalars hbinder, ← hslots, hbind]
    rfl
  · rw [meaning_codeType, hmean, ← htype, meaning_of_code hcode]

theorem list_of_dataType (hvalid : column.Valid)
    (h : column.dataType = .list item ∨ column.dataType = .largeList item) :
    ∃ large offsets child validity, column = .list large item offsets child validity := by
  cases column with
  | list large item' offsets child validity =>
    refine ⟨large, offsets, child, validity, ?_⟩
    cases large <;> simpa [ArrayData.dataType] using h
  | scalars type slots =>
    obtain rfl | rfl := h <;> cases hvalid.1
  | other type len =>
    obtain rfl | rfl := h <;> cases hvalid
  | null | struct | dictionary | union => rcases h with h | h <;> cases h

theorem meaning_list (h : type = .list item ∨ type = .largeList item) (items : List Datum) :
    meaning type (.list items) = .list (items.map (elementMeaning item.dataType)) := by
  rcases h with rfl | rfl <;> rfl

theorem meaning_null (type : DataType) : meaning type .null = .null := by
  cases type <;> rfl

theorem inRange_list (h : type = .list item ∨ type = .largeList item) {items : List Datum}
    (hr : InRange type (.list items)) :
    ∀ datum ∈ items, ElementInRange item.dataType datum := by
  rcases h with rfl | rfl <;> exact hr

/-- The elements of a row lie within the child. -/
theorem element_lt {large : Bool} {offsets : List Nat} {child : ArrayData} {validity : List Bool}
    (hvalid : (ArrayData.list large item offsets child validity).Valid)
    (hrow : row < validity.length) {j : Nat}
    (hj : j < offsets.getD (row + 1) 0 - offsets.getD row 0) :
    offsets.getD row 0 + j < child.length := by
  obtain ⟨hlen, -, hle, -⟩ := hvalid
  have hnext : offsets.getD (row + 1) 0 ≤ child.length := by
    rw [List.getD_eq_getElem?_getD, List.getElem?_eq_getElem (by omega), Option.getD_some]
    exact hle _ (List.getElem_mem _)
  omega

theorem list_roundTrips (hbase : ∀ bytes, D.base64 (C.base64 bytes) = some bytes)
    {code' : TypeCode} (hcode : matchingCode item.dataType = some code) (hvalid : column.Valid)
    (htype : column.dataType = field.dataType)
    (hlist : field.dataType = .list item ∨ field.dataType = .largeList item)
    (hrow : row < column.length) (hrange : InRange field.dataType (column.read row)) :
    RoundTrips C D name field column row (.list (fieldOf listItem code' true (codeType code))) := by
  have hr : isResult (.list (fieldOf listItem code' true (codeType code))) = true := by
    rw [isResult_list_fieldOf, isResult_codeType]
  obtain ⟨metadata, hfield⟩ := fieldOf_eq listItem code' true (codeType code)
  rw [hfield] at hr ⊢
  obtain ⟨large, offsets, child, validity, rfl⟩ := list_of_dataType hvalid (htype ▸ hlist)
  obtain ⟨-, -, -, hchildType, -, hchild⟩ := id hvalid
  obtain ⟨bind, hbinder, henc⟩ := encodes_of_code hbase hcode
  have hvalidity : validity[row]? = some validity[row] := List.getElem?_eq_getElem hrow
  -- the type of the child is only used to bind its elements
  obtain ⟨slots, hslots⟩ := scalars_of_code hchild (hchildType ▸ hcode)
  rw [hchildType] at hslots
  cases hv : validity[row] with
  | false =>
    rw [hv] at hvalidity
    have hread : ArrayData.read (.list large item offsets child validity) row = .null := by
      simp [ArrayData.read, hvalidity]
    have hdecode : decode D (.list (.mk listItem (codeType code) true metadata)) (some nullValue) =
        some .null := by simp [decode, present, nullValue]
    refine ⟨nullValue, if isJsonField item then some .jsonArray else none, .null, ?_, hdecode, ?_,
      build_single hr hdecode⟩
    · simp only [cellValue, ArrayData.isNull, hvalidity, listCellValue, hbinder]
      rfl
    · rw [hread, meaning_null, meaning_null]
  | true =>
    rw [hv] at hvalidity
    have hread : ArrayData.read (.list large item offsets child validity) row =
        .list ((List.range (offsets.getD (row + 1) 0 - offsets.getD row 0)).map fun j =>
          child.read (offsets.getD row 0 + j)) := by simp [ArrayData.read, hvalidity]
    rw [hread] at hrange
    obtain ⟨vs, ds, hvs, hds, hmean⟩ := mapM_mapM
      (List.range (offsets.getD (row + 1) 0 - offsets.getD row 0))
      (f := fun j => bind name child (offsets.getD row 0 + j))
      (g := fun v => decode D (codeType code) (some v)) (m := elementMeaning (codeType code))
      (k := fun j => elementMeaning item.dataType (child.read (offsets.getD row 0 + j))) fun j hj =>
        element_roundTrip henc (isLeaf_codeType code) hchild ⟨slots, hslots⟩ name
          (element_lt hvalid hrow (List.mem_range.mp hj))
          (inRange_list hlist hrange _ (List.mem_map.mpr ⟨j, hj, rfl⟩))
    have hdecode : decode D (.list (.mk listItem (codeType code) true metadata)) (some (.list vs)) =
        some (.list ds) := by simp [decode, present, hds]
    refine ⟨.list vs, if isJsonField item then some .jsonArray else none, .list ds, ?_, hdecode, ?_,
      build_single hr hdecode⟩
    · have hslice : sliceValue bind name (some (listValue offsets child row)) = .ok (.list vs) :=
        bind_eq_ok.mpr ⟨vs, hvs, rfl⟩
      simp only [cellValue, ArrayData.isNull, hvalidity, listCellValue, hbinder]
      exact bind_eq_ok.mpr ⟨.list vs, hslice, rfl⟩
    · rw [hread, meaning_list (.inl rfl), meaning_list hlist, List.map_map]
      exact congrArg Logical.list hmean

end Cells

/-- Binding and reading are inverse, for every cell of a scalar type or a list of scalars whose values
are in range: the cell is encoded, its wire value decodes at the type that the matching Spanner type
is read as, and it means what the cell meant. -/
theorem bind_read_inverse (C : Codec) (D : Decoder)
    (hbase : ∀ bytes, D.base64 (C.base64 bytes) = some bytes) {name : List Char} {field : Field}
    {column : ArrayData} {row : Nat} {type : SpannerType} (hvalid : column.Valid)
    (htype : column.dataType = field.dataType) (hrow : row < column.length)
    (hmatch : matchingType field = some type)
    (hrange : InRange field.dataType (column.read row)) :
    ∃ arrow, arrowType .nanosecondsErrorOnOverflow type 0 = .ok arrow ∧
      RoundTrips C D name field column row arrow := by
  by_cases hlist : ∃ item, field.dataType = .list item ∨ field.dataType = .largeList item
  · obtain ⟨item, hlist⟩ := hlist
    have hm : (matchingElement item).map (fun element => SpannerType.mk .array (.of element) .absent) =
        some type := by
      rw [← hmatch, matchingType]
      rcases hlist with h | h <;> rw [h]
    obtain ⟨element, helement, rfl⟩ := Option.map_eq_some_iff.mp hm
    obtain ⟨code, hcode, rfl⟩ := Option.map_eq_some_iff.mp helement
    exact ⟨_, arrowType_array hcode (isJsonField item) (code_of_isJsonField hcode),
      list_roundTrips hbase hcode hvalid htype hlist hrow hrange⟩
  · have hm : matchingElement field = some type := by
      rw [← hmatch, matchingType]
      split
      · exact absurd ⟨_, .inl ‹_›⟩ hlist
      · exact absurd ⟨_, .inr ‹_›⟩ hlist
      · rfl
    obtain ⟨code, hcode, rfl⟩ := Option.map_eq_some_iff.mp hm
    exact ⟨_, arrowType_code hcode (by decide) (isJsonField field) (code_of_isJsonField hcode),
      scalar_roundTrips hbase hcode hvalid htype hrow hrange⟩

/-- Bytes as characters of the same numbers, in place of base64. -/
def latinCodec : Codec where
  widen16 bits := bits.toUInt64
  widen32 bits := bits.toUInt64
  floatValue := .number
  base64 bytes := bytes.map fun b => Char.ofNat b.toNat

def latinDecoder : Decoder :=
  { plainDecoder with base64 := fun s => some (s.map fun c => UInt8.ofNat c.toNat) }

theorem latin_inverse (bytes : List UInt8) :
    latinDecoder.base64 (latinCodec.base64 bytes) = some bytes := by
  have hbyte : ∀ b : UInt8, UInt8.ofNat (Char.ofNat b.toNat).toNat = b := by
    intro b
    have hvalid : b.toNat.isValidChar := .inl (by have := b.toNat_lt; omega)
    rw [Char.ofNat, dif_pos hvalid]
    exact UInt8.ofNat_toNat
  simp [latinDecoder, latinCodec, Function.comp_def, hbyte]

/-- Prices in cents. -/
def prices : Field := .new "prices".toList (.list (.new "item".toList (.decimal128 10 2) true)) true

/-- One row of two prices and a null. -/
def pricesColumn : ArrayData :=
  .list false (.new "item".toList (.decimal128 10 2) true) [0, 3]
    (.scalars (.decimal128 10 2) [some (.int 1999), none, some (.int (-5))]) [true]

theorem bind_read_inverse_prices :
    ∃ arrow, arrowType .nanosecondsErrorOnOverflow
        (.mk .array (.of (.mk .numeric .absent .absent)) .absent) 0 = .ok arrow ∧
      RoundTrips latinCodec latinDecoder "p1".toList prices pricesColumn 0 arrow := by
  have hvalid : pricesColumn.Valid :=
    ⟨rfl, by decide, by decide, rfl, by simp [Field.new], rfl, by decide⟩
  refine bind_read_inverse latinCodec latinDecoder latin_inverse hvalid rfl (by decide) rfl ?_
  have hread : pricesColumn.read 0 = .list [.scalar (.int 1999), .null, .scalar (.int (-5))] := rfl
  rw [hread]
  intro datum hdatum value hvalue
  subst hvalue
  simp only [List.mem_cons, Datum.scalar.injEq, reduceCtorEq, List.not_mem_nil, or_false,
    false_or] at hdatum
  rcases hdatum with rfl | rfl <;> simp [ScalarInRange, Field.new, Field.dataType]

end Convert
end SpannerAdbc
