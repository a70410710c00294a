import Mathlib.Data.List.GetD
import SpannerAdbc.Arrow.Array
import SpannerAdbc.Lib.Offsets

/-!
# SpannerAdbc.Arrow.Take

Arrow's `take`, the rows of an array at a list of indices, and what it is needed for here: the plain
array that a dictionary-encoded array stands for (`decode`). A taken row is the row it was taken from
(`slot_take`, `isNull_take`, `segment_take`), and taking keeps arrays valid (`valid_take`,
`valid_decode`).
-/

namespace SpannerAdbc
namespace Arrow

open Lib

/-- Whether an index is there and its row is not null. -/
def takesValue (validity : List Bool) (index : Option Nat) : Bool :=
  index.any fun row => validity[row]? == some true

/-- The rows of the child that a taken list cell has. -/
def takenRows (offsets : List Nat) (validity : List Bool) (index : Option Nat) : List (Option Nat) :=
  if takesValue validity index then
    let start := offsets.getD (index.getD 0) 0
    (List.range (offsets.getD (index.getD 0 + 1) 0 - start)).map fun j => some (start + j)
  else []

mutual

def ArrayData.take : ArrayData → List (Option Nat) → ArrayData
  | .null _, indices => .null indices.length
  | .scalars type slots, indices =>
    .scalars type (indices.map fun index => index.bind fun row => slots[row]?.join)
  | .list large field offsets child validity, indices =>
    let rows := indices.map (takenRows offsets validity)
    .list large field (Lib.offsets 0 rows) (child.take rows.flatten)
      (indices.map (takesValue validity))
  | .struct fields children validity, indices =>
    .struct fields (children.take indices) (indices.map (takesValue validity))
  | .dictionary key keys values, indices =>
    .dictionary key (indices.map fun index => index.bind fun row => keys[row]?.join) values
  | .union fields rows children, indices =>
    .union fields (indices.map fun index => index.bind fun row => rows[row]?.join) children
  | .other type _, indices => .other type indices.length

def Children.take : Children → List (Option Nat) → Children
  | .nil, _ => .nil
  | .cons child children, indices => .cons (child.take indices) (children.take indices)

end

@[simp] theorem dataType_take (a : ArrayData) (indices : List (Option Nat)) :
    (a.take indices).dataType = a.dataType := by
  cases a <;> rfl

@[simp] theorem length_take (a : ArrayData) (indices : List (Option Nat)) :
    (a.take indices).length = indices.length := by
  cases a <;> simp [ArrayData.take, ArrayData.length]

/-! ## Row by row -/

section Rows

variable {indices : List (Option Nat)} {p : Nat} {index : Option Nat} {row : Nat}
  {validity : List Bool}

theorem slot_take {a : ArrayData} (h : indices[p]? = some index) :
    (a.take indices).slot p = index.bind a.slot := by
  cases a with
  | scalars type slots =>
    simp only [ArrayData.take, ArrayData.slot, List.getElem?_map, h, Option.map_some, Option.join_some]
    rfl
  | _ =>
    have hnone : ∀ index : Option Nat, (index.bind fun _ => (none : Option Scalar)) = none := by
      intro index
      cases index <;> rfl
    exact (hnone index).symm

theorem takesValue_some (h : row < validity.length) :
    (takesValue validity (some row) == false) = (validity[row]? == some false) := by
  simp only [takesValue, Option.any_some, List.getElem?_eq_getElem h]
  cases validity[row] <;> rfl

/-- A row taken from an array is null if it is null there. -/
theorem isNull_take {a : ArrayData} (h : indices[p]? = some (some row)) (hrow : row < a.length) :
    (a.take indices).isNull p = a.isNull row := by
  cases a with
  | null | union | other => rfl
  | scalars type slots =>
    have hslot : slots[row]? = some slots[row] := List.getElem?_eq_getElem hrow
    simp [ArrayData.take, ArrayData.isNull, h, hslot]
  | list large field offsets child validity =>
    simp only [ArrayData.take, ArrayData.isNull, List.getElem?_map, h, Option.map_some]
    exact takesValue_some hrow
  | struct fields children validity =>
    simp only [ArrayData.take, ArrayData.isNull, List.getElem?_map, h, Option.map_some]
    exact takesValue_some hrow
  | dictionary key keys values =>
    have hkey : keys[row]? = some keys[row] := List.getElem?_eq_getElem hrow
    simp [ArrayData.take, ArrayData.isNull, h, hkey]

/-- Where a taken list cell lies in the taken child: row by row the cell it was taken from. -/
theorem segment_take (offsets : List Nat) (h : indices[p]? = some (some row))
    (hvalid : validity[row]? = some true) :
    let rows := indices.map (takenRows offsets validity)
    let len := offsets.getD (row + 1) 0 - offsets.getD row 0
    (Lib.offsets 0 rows).getD (p + 1) 0 - (Lib.offsets 0 rows).getD p 0 = len ∧
      ∀ j < len, rows.flatten[(Lib.offsets 0 rows).getD p 0 + j]? =
        some (some (offsets.getD row 0 + j)) := by
  intro rows len
  have hrows : rows[p]? = some ((List.range len).map fun j => some (offsets.getD row 0 + j)) := by
    simp [rows, len, h, takenRows, takesValue, hvalid]
  obtain ⟨o, hstart, hnext, hflat⟩ := Lib.segment 0 hrows
  simp only [List.length_map, List.length_range, Nat.zero_add] at hstart hnext hflat
  have hstart' : (Lib.offsets 0 rows).getD p 0 = o := by
    rw [List.getD_eq_getElem?_getD, hstart, Option.getD_some]
  have hnext' : (Lib.offsets 0 rows).getD (p + 1) 0 = o + len := by
    rw [List.getD_eq_getElem?_getD, hnext, Option.getD_some]
  rw [hstart', hnext']
  refine ⟨Nat.add_sub_cancel_left o len, fun j hj => ?_⟩
  rw [hflat j hj]
  simp [hj]

end Rows

/-! ## Valid arrays -/

variable {offsets : List Nat}

theorem getD_le {len : Nat} (h : ∀ offset ∈ offsets, offset ≤ len) (i : Nat) :
    offsets.getD i 0 ≤ len := by
  by_cases hlt : i < offsets.length
  · rw [List.getD_eq_getElem _ 0 hlt]
    exact h _ (List.getElem_mem hlt)
  · rw [List.getD_eq_default _ 0 (by omega)]
    exact Nat.zero_le len

/-- The rows that are taken from the child of a list are rows of the child. -/
theorem row_of_mem_takenRows {validity : List Bool} {index row : Option Nat} {len : Nat}
    (hlen : ∀ offset ∈ offsets, offset ≤ len) (h : row ∈ takenRows offsets validity index) :
    ∃ i, row = some i ∧ i < len := by
  rw [takenRows] at h
  split at h
  · obtain ⟨j, hj, rfl⟩ := List.mem_map.mp h
    refine ⟨_, rfl, ?_⟩
    have hend := getD_le hlen (index.getD 0 + 1)
    have hj := List.mem_range.mp hj
    omega
  · cases h

/-- Where none of the rows that are taken is null, the taken array has no null. -/
theorem isNull_take_eq_false {a : ArrayData} {indices : List (Option Nat)}
    (ha : ∀ i, a.isNull i = false) (h : ∀ index ∈ indices, ∃ row, index = some row ∧ row < a.length)
    (p : Nat) : (a.take indices).isNull p = false := by
  by_cases hp : p < indices.length
  · obtain ⟨row, hrow, hlt⟩ := h _ (List.getElem_mem hp)
    rw [isNull_take (by rw [List.getElem?_eq_getElem hp, hrow]) hlt]
    exact ha row
  · exact ArrayData.isNull_of_length_le (by rw [length_take]; omega)

mutual

theorem valid_take : ∀ (a : ArrayData) {indices : List (Option Nat)}, a.Valid →
    (∀ index ∈ indices, ∀ row ∈ index, row < a.length) → (a.take indices).Valid
  | .null _, _, _, _ => trivial
  | .other _ _, _, h, _ => h
  | .scalars type slots, indices, h, _ => by
    refine ⟨h.1, fun slot hslot value hvalue => ?_⟩
    obtain ⟨index, -, rfl⟩ := List.mem_map.mp hslot
    obtain ⟨row, -, hrow⟩ := Option.bind_eq_some_iff.mp hvalue
    refine h.2 (some value) ?_ value rfl
    exact List.mem_of_getElem? (Option.join_eq_some_iff.mp hrow)
  | .list _ field offsets child validity, indices, h, _ => by
    obtain ⟨-, -, hle, htype, hnulls, hchild⟩ := h
    have hrows : ∀ index ∈ (indices.map (takenRows offsets validity)).flatten,
        ∃ row, index = some row ∧ row < child.length := by
      intro index hindex
      obtain ⟨rows, hrows, hindex⟩ := List.mem_flatten.mp hindex
      obtain ⟨i, -, rfl⟩ := List.mem_map.mp hrows
      exact row_of_mem_takenRows hle hindex
    refine ⟨by simp [Lib.offsets], pairwise_offsets 0 _, fun offset hoffset => ?_, ?_,
      fun hnot => isNull_take_eq_false (hnulls hnot) hrows, valid_take child hchild ?_⟩
    · rw [length_take]
      have := (mem_offsets hoffset).2
      omega
    · rw [dataType_take, htype]
    · intro index hindex row hrow
      obtain ⟨row', rfl, hlt⟩ := hrows index hindex
      obtain rfl := Option.some.inj hrow
      exact hlt
  | .struct fields children validity, indices, h, hindices => validChildren_take children h hindices
  | .dictionary _ keys values, indices, h, _ => by
    refine ⟨fun key hkey row hrow => ?_, h.2⟩
    obtain ⟨index, -, rfl⟩ := List.mem_map.mp hkey
    obtain ⟨i, -, hi⟩ := Option.bind_eq_some_iff.mp hrow
    exact h.1 (some row) (List.mem_of_getElem? (Option.join_eq_some_iff.mp hi)) row rfl
  | .union _ rows _, indices, h, _ => by
    refine ⟨fun taken htaken row hrow => ?_, h.2⟩
    obtain ⟨index, -, rfl⟩ := List.mem_map.mp htaken
    obtain ⟨i, -, hi⟩ := Option.bind_eq_some_iff.mp hrow
    exact h.1 (some row) (List.mem_of_getElem? (Option.join_eq_some_iff.mp hi)) row rfl

theorem validChildren_take : ∀ (children : Children) {fields : Fields} {validity : List Bool}
    {indices : List (Option Nat)}, children.Valid fields validity →
    (∀ index ∈ indices, ∀ row ∈ index, row < validity.length) →
    (children.take indices).Valid fields (indices.map (takesValue validity))
  | .nil, .nil, _, _, _, _ => trivial
  | .nil, .cons _ _, _, _, h, _ => h
  | .cons _ _, .nil, _, _, h, _ => h
  | .cons child children, .cons field fields, validity, indices, h, hindices => by
    obtain ⟨hlen, htype, hnulls, hchild, hchildren⟩ := h
    refine ⟨by simp, by rw [dataType_take, htype], fun hnot p hnull => ?_,
      valid_take child hchild (by rw [hlen]; exact hindices),
      validChildren_take children hchildren hindices⟩
    have hp : p < indices.length := by
      by_contra hge
      rw [ArrayData.isNull_of_length_le (by rw [length_take]; omega)] at hnull
      cases hnull
    rw [List.getElem?_map, List.getElem?_eq_getElem hp, Option.map_some]
    cases hindex : indices[p] with
    | none => rfl
    | some row =>
      have hrow : row < validity.length := hindices _ (List.getElem_mem hp) row hindex
      have htaken : indices[p]? = some (some row) := by rw [List.getElem?_eq_getElem hp, hindex]
      rw [isNull_take htaken (by rw [hlen]; exact hrow)] at hnull
      simp [takesValue, hnulls hnot row hnull]

end

/-! ## Dictionaries -/

mutual

/-- The type of the values that a type encodes. Types whose arrays are not read stay as they are. -/
def DataType.decoded : DataType → DataType
  | .dictionary _ value => value.decoded
  | .list field => .list field.decoded
  | .largeList field => .largeList field.decoded
  | .struct fields => .struct fields.decoded
  | type => type

/-- The values of a dictionary may be null where the keys are not. -/
def Field.decoded : Field → Field
  | .mk name dataType nullable metadata =>
    .mk name dataType.decoded (nullable || dataType.isDictionary) metadata

def Fields.decoded : Fields → Fields
  | .nil => .nil
  | .cons field fields => .cons field.decoded fields.decoded

end

mutual

/-- The plain array that an array encodes, without dictionaries at any level. -/
def ArrayData.decode : ArrayData → ArrayData
  | .dictionary _ keys values => values.decode.take keys
  | .list large field offsets child validity =>
    .list large field.decoded offsets child.decode validity
  | .struct fields children validity => .struct fields.decoded children.decode validity
  | .null len => .null len
  | .scalars type slots => .scalars type slots
  | .union fields rows children => .union fields rows children
  | .other type len => .other type len

def Children.decode : Children → Children
  | .nil => .nil
  | .cons child children => .cons child.decode children.decode

end

@[simp] theorem dataType_decoded (field : Field) : field.decoded.dataType = field.dataType.decoded := by
  cases field
  rfl

theorem isNullable_decoded (field : Field) :
    field.decoded.isNullable = (field.isNullable || field.dataType.isDictionary) := by
  cases field
  rfl

theorem decoded_of_isScalar {type : DataType} (h : type.isScalar = true) : type.decoded = type := by
  cases type <;> first | rfl | cases h

theorem decoded_of_not_isModelled {type : DataType} (h : type.isModelled = false) :
    type.decoded = type := by
  cases type <;> first | rfl | cases h

@[simp] theorem length_decode (a : ArrayData) : a.decode.length = a.length := by
  cases a with
  | dictionary key keys values => rw [ArrayData.decode, length_take, ArrayData.length]
  | _ => rfl

theorem isNull_decode {a : ArrayData} (h : a.dataType.isDictionary = false) (i : Nat) :
    a.decode.isNull i = a.isNull i := by
  cases a with
  | dictionary key keys values => cases h
  | _ => rfl

theorem dataType_decode : ∀ {a : ArrayData}, a.Valid → a.decode.dataType = a.dataType.decoded
  | .dictionary _ keys values, h => by
    rw [ArrayData.decode, dataType_take, dataType_decode h.2]
    rfl
  | .null _, _ => rfl
  | .scalars _ _, h => (decoded_of_isScalar h.1).symm
  | .list large _ _ _ _, _ => by cases large <;> rfl
  | .struct _ _ _, _ => rfl
  | .union _ _ _, _ => rfl
  | .other _ _, h => (decoded_of_not_isModelled h).symm

mutual

/-- A valid array decodes to a valid array. -/
theorem valid_decode : ∀ {a : ArrayData}, a.Valid → a.decode.Valid
  | .dictionary _ keys values, h => by
    refine valid_take _ (valid_decode h.2) ?_
    rw [length_decode]
    exact h.1
  | .null _, h => h
  | .scalars _ _, h => h
  | .union _ _ _, h => h
  | .other _ _, h => h
  | .list large field offsets child validity, h => by
    obtain ⟨hoffsets, hsorted, hle, htype, hnulls, hchild⟩ := h
    refine ⟨hoffsets, hsorted, by rw [length_decode]; exact hle, ?_, fun hnot => ?_,
      valid_decode hchild⟩
    · rw [dataType_decode hchild, dataType_decoded, htype]
    · rw [isNullable_decoded, Bool.or_eq_false_iff, ← htype] at hnot
      intro i
      rw [isNull_decode hnot.2]
      exact hnulls hnot.1 i
  | .struct fields children validity, h => validChildren_decode h

theorem validChildren_decode : ∀ {children : Children} {fields : Fields} {validity : List Bool},
    children.Valid fields validity → children.decode.Valid fields.decoded validity
  | .nil, .nil, _, _ => trivial
  | .nil, .cons _ _, _, h => False.elim h
  | .cons _ _, .nil, _, h => False.elim h
  | .cons child children, .cons field fields, validity, h => by
    obtain ⟨hlen, htype, hnulls, hchild, hchildren⟩ := h
    refine ⟨by rw [length_decode, hlen], ?_, fun hnot i hnull => ?_, valid_decode hchild,
      validChildren_decode hchildren⟩
    · rw [dataType_decode hchild, dataType_decoded, htype]
    · rw [isNullable_decoded, Bool.or_eq_false_iff, ← htype] at hnot
      rw [isNull_decode hnot.2] at hnull
      exact hnulls hnot.1 i hnull

end

end Arrow
end SpannerAdbc
