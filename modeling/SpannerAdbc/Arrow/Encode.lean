import SpannerAdbc.Arrow.Build
import SpannerAdbc.Lib.Offsets

/-!
# SpannerAdbc.Arrow.Encode

Arrays against the rows they hold. `Encodes a type rows` says that `a` is a valid array of the type and
reads as the rows; there is one lemma for each way to make an array (`encodes_scalars`,
`encodes_newNullArray`, `encodes_list`, `encodes_struct`, `encodes_union`).
-/

namespace SpannerAdbc
namespace Arrow

open Lib

/-- An array that exists. -/
abbrev ArrayRef := { a : ArrayData // a.Valid }

def ArrayData.rows (a : ArrayData) : List Datum := (List.range a.length).map a.read

variable {child a : ArrayData} {field : Field} {type : DataType} {parts : List (List Datum)}
  {validity : List Bool}

theorem rows_eq {rows : List Datum} (hlen : a.length = rows.length)
    (h : ∀ i d, rows[i]? = some d → a.read i = d) : a.rows = rows := by
  refine List.ext_getElem? fun i => ?_
  rw [ArrayData.rows, List.getElem?_map, hlen]
  cases hi : rows[i]? with
  | none =>
    rw [List.getElem?_eq_none (by simpa using List.getElem?_eq_none_iff.mp hi)]
    rfl
  | some d =>
    rw [List.getElem?_range (List.getElem?_eq_some_iff.mp hi).1, Option.map_some, h i d hi]

@[simp] theorem length_rows (a : ArrayData) : a.rows.length = a.length := by
  simp [ArrayData.rows]

theorem read_of_rows {rows : List Datum} (h : a.rows = rows) {i : Nat} {d : Datum}
    (hi : rows[i]? = some d) : a.read i = d := by
  have hlt : i < a.length := by
    rw [← length_rows, h]
    exact (List.getElem?_eq_some_iff.mp hi).1
  rw [← h, ArrayData.rows, List.getElem?_map, List.getElem?_range hlt] at hi
  exact Option.some.inj hi

structure Encodes (a : ArrayData) (type : DataType) (data : List Datum) : Prop where
  valid : a.Valid
  dataType : a.dataType = type
  rows : a.rows = data
  nulls : ∀ i, a.isNull i = true → data[i]? = some .null

theorem Encodes.length {data : List Datum} (h : Encodes a type data) : a.length = data.length := by
  rw [← h.rows, length_rows]

/-- An array whose rows are all there has no null. -/
theorem Encodes.isNull_eq_false {data : List Datum} (h : Encodes a type data)
    (hrows : Datum.null ∉ data) (i : Nat) : a.isNull i = false := by
  by_contra hnull
  exact hrows (List.mem_of_getElem? (h.nulls i (Bool.eq_true_of_not_eq_false hnull)))

/-! ## Scalars -/

def Datum.ofSlot (slot : Option Scalar) : Datum := (slot.map Datum.scalar).getD .null

theorem encodes_scalars {slots : List (Option Scalar)} (htype : type.isScalar = true)
    (hfits : ∀ slot ∈ slots, ∀ value ∈ slot, Scalar.fits type value = true) :
    Encodes (.scalars type slots) type (slots.map Datum.ofSlot) where
  valid := ⟨htype, hfits⟩
  dataType := rfl
  rows := by
    refine rows_eq (List.length_map _).symm fun i d hi => ?_
    rw [List.getElem?_map] at hi
    obtain ⟨slot, hslot, rfl⟩ := Option.map_eq_some_iff.mp hi
    rw [ArrayData.read, hslot]
    rfl
  nulls i hi := by
    have hslot : slots[i]? = some none := beq_iff_eq.mp hi
    rw [List.getElem?_map, hslot]
    rfl

/-! ## Null arrays -/

mutual

/-- `new_null_array`. -/
def newNullArray : DataType → Nat → ArrayData
  | .null, n => .null n
  | .list field, n =>
    .list false field (List.replicate (n + 1) 0) (newNullOf field 0) (List.replicate n false)
  | .largeList field, n =>
    .list true field (List.replicate (n + 1) 0) (newNullOf field 0) (List.replicate n false)
  | .struct fields, n => .struct fields (newNullChildren fields n) (List.replicate n false)
  | .dictionary key value, n =>
    .dictionary key (List.replicate n none) (newNullArray value 0)
  | .union fields .dense, n => .union fields (List.replicate n none) (newEmptyChildren fields)
  | type, n => if type.isScalar then .scalars type (List.replicate n none) else .other type n

def newNullOf : Field → Nat → ArrayData
  | .mk _ type _ _, n => newNullArray type n

def newNullChildren : Fields → Nat → Children
  | .nil, _ => .nil
  | .cons field fields, n => .cons (newNullOf field n) (newNullChildren fields n)

def newEmptyChildren : UnionFields → Children
  | .nil => .nil
  | .cons _ field fields => .cons (newNullOf field 0) (newEmptyChildren fields)

end

theorem newNullOf_eq (field : Field) (n : Nat) : newNullOf field n = newNullArray field.dataType n := by
  cases field
  rfl

@[simp] theorem length_newNullArray (type : DataType) (n : Nat) :
    (newNullArray type n).length = n := by
  unfold newNullArray
  split <;> first | (split <;> simp [ArrayData.length]) | simp [ArrayData.length]

theorem dataType_newNullArray (type : DataType) (n : Nat) : (newNullArray type n).dataType = type := by
  unfold newNullArray
  split
  case h_5 key value => rw [ArrayData.dataType, dataType_newNullArray value 0]
  case h_7 => split <;> rfl
  all_goals rfl
termination_by sizeOf type

theorem join_replicate {A : Type} (n i : Nat) : (List.replicate n (none : Option A))[i]?.join = none := by
  rw [List.getElem?_replicate]
  split <;> rfl

theorem read_newNullArray (type : DataType) (n i : Nat) : (newNullArray type n).read i = .null := by
  have hvalidity : (List.replicate n false)[i]? ≠ some true := by
    rw [List.getElem?_replicate]
    split <;> simp
  unfold newNullArray
  split
  case h_7 =>
    split
    · simp [ArrayData.read, join_replicate]
    · rfl
  all_goals simp [ArrayData.read, join_replicate, hvalidity]

theorem lt_of_isNull {i : Nat} (h : a.isNull i = true) : i < a.length := by
  by_contra hge
  rw [ArrayData.isNull_of_length_le (Nat.le_of_not_lt hge)] at h
  cases h

/-- Null lists over an empty child. -/
theorem valid_nullLists {large : Bool} (hchild : child.Valid) (hlen : child.length = 0)
    (htype : child.dataType = field.dataType) (n : Nat) :
    (ArrayData.list large field (List.replicate (n + 1) 0) child (List.replicate n false)).Valid := by
  refine ⟨by simp, List.pairwise_replicate.mpr (.inr (Nat.le_refl 0)), fun offset hoffset => ?_, htype,
    fun _ i => ArrayData.isNull_of_length_le (by omega), hchild⟩
  rw [List.eq_of_mem_replicate hoffset]
  exact Nat.zero_le _

mutual

theorem valid_newNullArray (type : DataType) (n : Nat) : (newNullArray type n).Valid := by
  unfold newNullArray
  split
  case h_1 => trivial
  case h_2 field | h_3 field =>
    exact valid_nullLists (valid_newNullOf field 0) (by rw [newNullOf_eq, length_newNullArray])
      (by rw [newNullOf_eq, dataType_newNullArray]) n
  case h_4 fields => exact valid_newNullChildren fields n
  case h_5 key value =>
    refine ⟨fun k hk i hi => ?_, valid_newNullArray value 0⟩
    rw [List.eq_of_mem_replicate hk] at hi
    cases hi
  case h_6 fields =>
    refine ⟨fun r hr i hi => ?_, valid_newEmptyChildren fields⟩
    rw [List.eq_of_mem_replicate hr] at hi
    cases hi
  case h_7 hnull hlist hlarge hstruct hdictionary hunion =>
    split
    · rename_i hscalar
      refine ⟨hscalar, fun slot hslot value hvalue => ?_⟩
      rw [List.eq_of_mem_replicate hslot] at hvalue
      cases hvalue
    · rename_i hscalar
      -- Every type that has arrays of its own has an equation of its own.
      change type.isModelled = false
      cases type with
      | null => exact (hnull rfl).elim
      | list => exact (hlist _ rfl).elim
      | largeList => exact (hlarge _ rfl).elim
      | struct => exact (hstruct _ rfl).elim
      | dictionary => exact (hdictionary _ _ rfl).elim
      | union fields mode =>
        cases mode with
        | dense => exact (hunion _ rfl).elim
        | sparse => rfl
      | _ => first | rfl | exact absurd rfl hscalar
termination_by sizeOf type

theorem valid_newNullOf (field : Field) (n : Nat) : (newNullOf field n).Valid := by
  obtain ⟨name, type, nullable, metadata⟩ := field
  exact valid_newNullArray type n
termination_by sizeOf field

theorem valid_newNullChildren (fields : Fields) (n : Nat) :
    (newNullChildren fields n).Valid fields (List.replicate n false) := by
  cases fields with
  | nil => trivial
  | cons field fields =>
    refine ⟨?_, ?_, fun _ i hi => ?_, valid_newNullOf field n, valid_newNullChildren fields n⟩
    · rw [newNullOf_eq, length_newNullArray, List.length_replicate]
    · rw [newNullOf_eq, dataType_newNullArray]
    · have hlt := lt_of_isNull hi
      rw [newNullOf_eq, length_newNullArray] at hlt
      simp [hlt]
termination_by sizeOf fields

theorem valid_newEmptyChildren (fields : UnionFields) :
    (newEmptyChildren fields).UnionValid fields := by
  cases fields with
  | nil => trivial
  | cons id field fields =>
    refine ⟨?_, valid_newNullOf field 0, valid_newEmptyChildren fields⟩
    rw [newNullOf_eq, dataType_newNullArray]
termination_by sizeOf fields

end

theorem encodes_newNullArray (type : DataType) (n : Nat) :
    Encodes (newNullArray type n) type (List.replicate n .null) where
  valid := valid_newNullArray type n
  dataType := dataType_newNullArray type n
  rows := rows_eq (by simp) fun i d hi => by
    rw [read_newNullArray, List.eq_of_mem_replicate (List.mem_of_getElem? hi)]
  nulls i hi := by
    have hlt := lt_of_isNull hi
    rw [length_newNullArray] at hlt
    simp [hlt]

/-! ## Lists -/

/-- Lists cut out of a flat child; a null one has no elements. -/
theorem encodes_list (hchild : Encodes child field.dataType parts.flatten)
    (hlen : validity.length = parts.length)
    (h : listTryNew field (offsets 0 parts) child validity = .ok a) :
    Encodes a (.list field)
      ((parts.zip validity).map fun p => if p.2 then .list p.1 else .null) := by
  obtain ⟨-, -, hnulls, htype, rfl⟩ := listTryNew_eq_ok.mp h
  refine ⟨⟨?_, pairwise_offsets 0 parts, fun offset hoffset => ?_, htype, hnulls, hchild.valid⟩, rfl,
    ?_, fun i hi => ?_⟩
  · rw [offsets, List.length_cons, length_ends, hlen]
  · rw [hchild.length]
    have := (mem_offsets hoffset).2
    omega
  · refine rows_eq (by simp [ArrayData.length, hlen]) fun i d hi => ?_
    rw [List.getElem?_map] at hi
    obtain ⟨⟨part, valid⟩, hp, rfl⟩ := Option.map_eq_some_iff.mp hi
    obtain ⟨hpart, hvalid⟩ := List.getElem?_zip_eq_some.mp hp
    rw [ArrayData.read, hvalid]
    cases valid with
    | false => rfl
    | true =>
      obtain ⟨o, hstart, hnext, hflat⟩ := segment 0 hpart
      rw [Nat.zero_add] at hstart hnext
      have hstart' : (offsets 0 parts).getD i 0 = o := by
        rw [List.getD_eq_getElem?_getD, hstart, Option.getD_some]
      have hnext' : (offsets 0 parts).getD (i + 1) 0 = o + part.length := by
        rw [List.getD_eq_getElem?_getD, hnext, Option.getD_some]
      simp only [hstart', hnext', Nat.add_sub_cancel_left, if_true]
      refine congrArg Datum.list (List.ext_getElem? fun j => ?_)
      rw [List.getElem?_map]
      cases hj : part[j]? with
      | none =>
        rw [List.getElem?_eq_none (by simpa using List.getElem?_eq_none_iff.mp hj)]
        rfl
      | some d =>
        have hlt := (List.getElem?_eq_some_iff.mp hj).1
        rw [List.getElem?_range hlt, Option.map_some]
        exact congrArg some (read_of_rows hchild.rows ((hflat j hlt).trans hj))
  · have hvalid : validity[i]? = some false := beq_iff_eq.mp hi
    have hlt : i < parts.length := by
      rw [← hlen]
      exact (List.getElem?_eq_some_iff.mp hvalid).1
    have hzip : (parts.zip validity)[i]? = some (parts[i], false) :=
      List.getElem?_zip_eq_some.mpr ⟨List.getElem?_eq_getElem hlt, hvalid⟩
    rw [List.getElem?_map, hzip]
    rfl

/-- Enough elements are there, and none is null that must not be. -/
theorem exists_listTryNew (hchild : Encodes child field.dataType parts.flatten)
    (hlen : validity.length = parts.length)
    (hnulls : field.isNullable = false → Datum.null ∉ parts.flatten) :
    ∃ a, listTryNew field (offsets 0 parts) child validity = .ok a := by
  refine ⟨_, listTryNew_eq_ok.mpr ⟨?_, ?_, fun hf => ?_, hchild.dataType, rfl⟩⟩
  · rw [getLast?_offsets, Option.getD_some, hchild.length, Nat.zero_add]
  · rw [offsets, List.length_cons, length_ends, hlen]
    rfl
  · exact hchild.isNull_eq_false (hnulls hf)

/-! ## Structs -/

def Children.ofList : List ArrayData → Children
  | [] => .nil
  | child :: children => .cons child (.ofList children)

theorem read_ofList (arrays : List ArrayData) (i : Nat) :
    (Children.ofList arrays).read i = arrays.map fun a => a.read i := by
  induction arrays with
  | nil => rfl
  | cons a arrays ih => rw [Children.ofList, Children.read, ih, List.map_cons]

theorem toList_ofList (arrays : List ArrayData) : (Children.ofList arrays).toList = arrays := by
  induction arrays with
  | nil => rfl
  | cons a arrays ih => rw [Children.ofList, Children.toList, ih]

section Struct

variable {X : Type} {xs : List X} {cells : List (Field × (X → Datum))} {arrays : List ArrayData}

theorem valid_ofList (h : List.Forall₂ (fun c a => Encodes a c.1.dataType (xs.map c.2)) cells arrays)
    (hnulls : ∀ c ∈ cells, c.1.isNullable = false → ∀ x ∈ xs, c.2 x ≠ .null) :
    (Children.ofList arrays).Valid (Fields.ofList (cells.map Prod.fst))
      (List.replicate xs.length true) := by
  induction h with
  | nil => trivial
  | @cons c a cells arrays hc _ ih =>
    obtain ⟨hfirst, hrest⟩ := List.forall_mem_cons.mp hnulls
    refine ⟨?_, hc.dataType, fun hf i hi => ?_, hc.valid, ih hrest⟩
    · rw [hc.length, List.length_map, List.length_replicate]
    · obtain ⟨x, hx, hnull⟩ := List.mem_map.mp (List.mem_of_getElem? (hc.nulls i hi))
      exact absurd hnull (hfirst hf x hx)

theorem forall_valid_of_encodes
    (h : List.Forall₂ (fun c a => Encodes a c.1.dataType (xs.map c.2)) cells arrays) :
    ∀ a ∈ arrays, a.Valid := by
  induction h with
  | nil => simp
  | cons hc _ ih => exact List.forall_mem_cons.mpr ⟨hc.valid, ih⟩

/-- The rows of a struct are those of its children side by side. -/
theorem map_read_of_encodes {i : Nat} {x : X} (hx : xs[i]? = some x)
    (h : List.Forall₂ (fun c a => Encodes a c.1.dataType (xs.map c.2)) cells arrays) :
    (arrays.map fun a => a.read i) = cells.map fun c => c.2 x := by
  induction h with
  | nil => rfl
  | @cons c a cells arrays hc _ ih =>
    have hread : a.read i = c.2 x := by
      refine read_of_rows hc.rows ?_
      rw [List.getElem?_map, hx]
      rfl
    rw [List.map_cons, List.map_cons, hread, ih]

theorem encodes_struct
    (h : List.Forall₂ (fun c a => Encodes a c.1.dataType (xs.map c.2)) cells arrays)
    (hne : cells ≠ []) (hnulls : ∀ c ∈ cells, c.1.isNullable = false → ∀ x ∈ xs, c.2 x ≠ .null) :
    ∃ a, structTryNew (Fields.ofList (cells.map Prod.fst)) (Children.ofList arrays)
        (List.replicate xs.length true) = .ok a ∧
      Encodes a (.struct (Fields.ofList (cells.map Prod.fst)))
        (xs.map fun x => .struct (cells.map fun c => c.2 x)) := by
  have hvalid := valid_ofList h hnulls
  have harrays : ∀ child ∈ (Children.ofList arrays).toList, child.Valid := by
    rw [toList_ofList]
    intro child hchild
    exact forall_valid_of_encodes h child hchild
  have hfields : (Fields.ofList (cells.map Prod.fst)).toList ≠ [] := by
    obtain ⟨c, cells, rfl⟩ := List.exists_cons_of_ne_nil hne
    exact List.cons_ne_nil _ _
  refine ⟨_, (structTryNew_eq_ok harrays).mpr ⟨hfields, hvalid, rfl⟩, hvalid, rfl, ?_, fun i hi => ?_⟩
  · refine rows_eq (by simp [ArrayData.length]) fun i d hi => ?_
    rw [List.getElem?_map] at hi
    obtain ⟨x, hx, rfl⟩ := Option.map_eq_some_iff.mp hi
    have hlt := (List.getElem?_eq_some_iff.mp hx).1
    rw [ArrayData.read, if_pos (by simp [hlt]), read_ofList, map_read_of_encodes hx h]
  · have hfalse : (List.replicate xs.length true)[i]? = some false := beq_iff_eq.mp hi
    have := List.eq_of_mem_replicate (List.mem_of_getElem? hfalse)
    cases this

def RecordBatch.rows (batch : RecordBatch) : List Datum :=
  (List.range batch.numRows).map fun i => .struct (batch.columns.map fun column => column.read i)

/-- The columns fit the fields, as the constructor of a batch demands. -/
theorem fit_of_encodes (h : List.Forall₂ (fun c a => Encodes a c.1.dataType (xs.map c.2)) cells arrays)
    (hnulls : ∀ c ∈ cells, c.1.isNullable = false → ∀ x ∈ xs, c.2 x ≠ .null) :
    (∀ column ∈ arrays, column.length = xs.length) ∧
      arrays.map ArrayData.dataType = (cells.map Prod.fst).map Field.dataType ∧
      ∀ fc ∈ (cells.map Prod.fst).zip arrays, fc.1.isNullable = false →
        ∀ i, fc.2.isNull i = false := by
  induction h with
  | nil => simp
  | @cons c a cells arrays hc _ ih =>
    obtain ⟨hfirst, hrest⟩ := List.forall_mem_cons.mp hnulls
    obtain ⟨hlengths, htypes, hzip⟩ := ih hrest
    refine ⟨List.forall_mem_cons.mpr ⟨?_, hlengths⟩, ?_, List.forall_mem_cons.mpr ⟨fun hf => ?_, hzip⟩⟩
    · rw [hc.length, List.length_map]
    · rw [List.map_cons, List.map_cons, List.map_cons, hc.dataType, htypes]
    · refine hc.isNull_eq_false fun hnull => ?_
      obtain ⟨x, hx, e⟩ := List.mem_map.mp hnull
      exact hfirst hf x hx e

theorem encodes_batch
    (h : List.Forall₂ (fun c a => Encodes a c.1.dataType (xs.map c.2)) cells arrays)
    (hne : cells ≠ []) (hnulls : ∀ c ∈ cells, c.1.isNullable = false → ∀ x ∈ xs, c.2 x ≠ .null)
    (valid : ∀ column ∈ arrays, column.Valid) :
    ∃ batch, RecordBatch.tryNew (cells.map Prod.fst) arrays valid = .ok batch ∧
      batch.schema = cells.map Prod.fst ∧
      batch.rows = xs.map fun x => .struct (cells.map fun c => c.2 x) := by
  have hne' : arrays ≠ [] := by
    rintro rfl
    cases h
    exact hne rfl
  obtain ⟨hlengths, htypes, hzip⟩ := fit_of_encodes h hnulls
  obtain ⟨batch, hbatch, hschema, hcolumns, hrows⟩ :=
    RecordBatch.tryNew_of_nulls valid hne' hzip hlengths htypes
  refine ⟨batch, hbatch, hschema, ?_⟩
  rw [RecordBatch.rows, hrows, hcolumns]
  refine List.ext_getElem? fun i => ?_
  rw [List.getElem?_map, List.getElem?_map]
  cases hx : xs[i]? with
  | none =>
    rw [List.getElem?_eq_none (by simpa using List.getElem?_eq_none_iff.mp hx)]
    rfl
  | some x =>
    rw [List.getElem?_range (List.getElem?_eq_some_iff.mp hx).1, Option.map_some, Option.map_some,
      map_read_of_encodes hx h]

end Struct

/-! ## Dense unions -/

def UnionFields.toList : UnionFields → List (Int × Field)
  | .nil => []
  | .cons id field fields => (id, field) :: fields.toList

/-- `i32::MIN`, which stands for a missing child. -/
def i32Min : Int := -2147483648

/-- `len() as i32`. -/
def lenI32 (a : ArrayData) : Int := (a.length : Int).bmod (2 ^ 32)

/-- `UnionArray::try_new` of a dense union. Arrow leaves the types of the children to the caller; here
other types are refused. -/
def unionTryNew (fields : UnionFields) (typeIds offsets : List Int) (children : Children) :
    Except ArrowError ArrayData :=
  if fields.toList.length ≠ children.toList.length then
    .error (.unionFields fields.toList.length children.toList.length)
  else if offsets.length ≠ typeIds.length then
    .error (.unionOffsets typeIds.length offsets.length)
  else if typeIds.any fun id =>
      (children.ofTypeId fields id).all fun child => lenI32 child == i32Min then
    .error .unionTypeId
  else if (typeIds.zip offsets).any fun r => (children.ofTypeId fields r.1).any fun child =>
      r.2 < 0 || lenI32 child ≤ r.2 then
    .error .unionOffset
  else
    match (fields.toList.zip children.toList).find? fun fc => fc.2.dataType ≠ fc.1.2.dataType with
    | some fc => .error (.mismatch fc.1.2.dataType fc.2.dataType)
    | none => .ok (.union fields ((typeIds.zip offsets).map fun r => some (r.1, r.2.toNat)) children)

theorem readUnion_eq {id : Int} : ∀ {children : Children} {fields : UnionFields},
    children.ofTypeId fields id = some child → ∀ i, children.readUnion fields id i = child.read i
  | .nil, .nil, h, _ => by cases h
  | .nil, .cons _ _ _, h, _ => by cases h
  | .cons _ _, .nil, h, _ => by cases h
  | .cons first children, .cons id' field fields, h, i => by
    rw [Children.ofTypeId] at h
    rw [Children.readUnion]
    by_cases hid : id' = id
    · rw [if_pos hid] at h ⊢
      rw [Option.some.inj h]
    · rw [if_neg hid] at h ⊢
      exact readUnion_eq h i

theorem unionValid_iff : ∀ {children : Children} {fields : UnionFields},
    (∀ child ∈ children.toList, child.Valid) → (children.UnionValid fields ↔
      fields.toList.length = children.toList.length ∧
        ∀ fc ∈ fields.toList.zip children.toList, fc.2.dataType = fc.1.2.dataType)
  | .nil, .nil, _ => by simp [Children.UnionValid, Children.toList, UnionFields.toList]
  | .nil, .cons _ _ _, _ => by simp [Children.UnionValid, Children.toList, UnionFields.toList]
  | .cons _ _, .nil, _ => by simp [Children.UnionValid, Children.toList, UnionFields.toList]
  | .cons child children, .cons id field fields, hvalid => by
    obtain ⟨hchild, hchildren⟩ := List.forall_mem_cons.mp hvalid
    have ih : children.UnionValid fields ↔ _ := unionValid_iff hchildren
    simp only [Children.UnionValid, Children.toList, UnionFields.toList, List.length_cons,
      List.zip_cons_cons, List.forall_mem_cons, Nat.add_right_cancel_iff, ih, hchild, true_and]
    tauto

theorem lenI32_le (a : ArrayData) : lenI32 a ≤ a.length := by
  have hpow : (2 ^ 32 : Nat) = 4294967296 := rfl
  unfold lenI32
  rw [hpow, Int.bmod_def]
  split <;> omega

theorem lenI32_eq (h : a.length < 2 ^ 31) : lenI32 a = a.length := by
  have hpow : (2 ^ 32 : Nat) = 4294967296 := rfl
  unfold lenI32
  rw [hpow, Int.bmod_def]
  split <;> omega

/-- Every row is found in its child, by the two loops over the rows. -/
theorem rows_fit_iff {A : Type} (find : Int → Option A) (len : A → Int) (low : Int)
    {typeIds offsets : List Int} (hlen : offsets.length = typeIds.length) :
    (∀ r ∈ typeIds.zip offsets, ∃ child, find r.1 = some child ∧ len child ≠ low ∧ 0 ≤ r.2 ∧
        r.2 < len child) ↔
      (typeIds.any fun id => (find id).all fun child => len child == low) = false ∧
      ((typeIds.zip offsets).any fun r => (find r.1).any fun child =>
        decide (r.2 < 0) || decide (len child ≤ r.2)) = false := by
  rw [List.any_eq_false, List.any_eq_false]
  constructor
  · intro h
    refine ⟨fun id hid => ?_, fun r hr => ?_⟩
    · obtain ⟨i, hi⟩ := List.mem_iff_getElem?.mp hid
      have hlt : i < offsets.length := by
        rw [hlen]
        exact (List.getElem?_eq_some_iff.mp hi).1
      have hr : (id, offsets[i]) ∈ typeIds.zip offsets :=
        List.mem_of_getElem? (List.getElem?_zip_eq_some.mpr ⟨hi, List.getElem?_eq_getElem hlt⟩)
      obtain ⟨child, hchild, hne, -⟩ := h _ hr
      simp only at hchild
      simpa [hchild] using hne
    · obtain ⟨child, hchild, -, hpos, hlt⟩ := h r hr
      simp [hchild, hpos, hlt]
  · rintro ⟨hids, hoffsets⟩ r hr
    have hid := hids r.1 (List.of_mem_zip hr).1
    have hoffset := hoffsets r hr
    cases hchild : find r.1 with
    | none => simp [hchild] at hid
    | some child =>
      rw [hchild] at hid hoffset
      simp only [Option.all_some, beq_iff_eq, Option.any_some, Bool.or_eq_true, decide_eq_true_eq,
        not_or, not_lt, not_le] at hid hoffset
      exact ⟨child, rfl, hid, hoffset⟩

section Union

variable {fields : UnionFields} {typeIds offsets : List Int} {children : Children} {a : ArrayData}

/-- What the constructor checks. -/
structure UnionFits (fields : UnionFields) (typeIds offsets : List Int) (children : Children) :
    Prop where
  childCount : fields.toList.length = children.toList.length
  offsetCount : offsets.length = typeIds.length
  rows : ∀ r ∈ typeIds.zip offsets, ∃ child, children.ofTypeId fields r.1 = some child ∧
    lenI32 child ≠ i32Min ∧ 0 ≤ r.2 ∧ r.2 < lenI32 child
  types : ∀ fc ∈ fields.toList.zip children.toList, fc.2.dataType = fc.1.2.dataType

theorem unionTryNew_eq_ok : unionTryNew fields typeIds offsets children = .ok a ↔
    UnionFits fields typeIds offsets children ∧
      a = .union fields ((typeIds.zip offsets).map fun r => some (r.1, r.2.toNat)) children := by
  rw [unionTryNew]
  split
  · rename_i hcount
    exact ⟨fun h => (nomatch h), fun h => absurd h.1.childCount hcount⟩
  · rename_i hcount
    split
    · rename_i hlen
      exact ⟨fun h => (nomatch h), fun h => absurd h.1.offsetCount hlen⟩
    · rename_i hlen
      have hrows := rows_fit_iff (children.ofTypeId fields) lenI32 i32Min (not_not.mp hlen)
      split
      · rename_i hid
        refine ⟨fun h => (nomatch h), fun h => ?_⟩
        rw [(hrows.mp h.1.rows).1] at hid
        cases hid
      · rename_i hid
        split
        · rename_i hoffset
          refine ⟨fun h => (nomatch h), fun h => ?_⟩
          rw [(hrows.mp h.1.rows).2] at hoffset
          cases hoffset
        · rename_i hoffset
          split
          · rename_i fc hfc
            refine ⟨fun h => (nomatch h), fun h => ?_⟩
            have hne := List.find?_some hfc
            exact absurd (h.1.types fc (List.mem_of_find?_eq_some hfc)) (of_decide_eq_true hne)
          · rename_i hnone
            rw [Except.ok.injEq]
            refine ⟨fun h => ⟨⟨not_not.mp hcount, not_not.mp hlen, ?_, fun fc hfc => ?_⟩, h.symm⟩,
              fun h => h.2.symm⟩
            · exact hrows.mpr ⟨Bool.eq_false_iff.mpr hid, Bool.eq_false_iff.mpr hoffset⟩
            · simpa using List.find?_eq_none.mp hnone fc hfc

theorem valid_of_unionTryNew (hvalid : ∀ child ∈ children.toList, child.Valid)
    (h : unionTryNew fields typeIds offsets children = .ok a) : a.Valid := by
  obtain ⟨hfits, rfl⟩ := unionTryNew_eq_ok.mp h
  refine ⟨fun row hrow r hr => ?_, (unionValid_iff hvalid).mpr ⟨hfits.childCount, hfits.types⟩⟩
  obtain ⟨s, hs, rfl⟩ := List.mem_map.mp hrow
  obtain rfl := Option.mem_some_iff.mp hr
  obtain ⟨child, hchild, -, hpos, hlt⟩ := hfits.rows s hs
  refine ⟨child, hchild, ?_⟩
  have := lenI32_le child
  omega

/-- A union whose rows all lie in one child, in its order, has the rows of that child. -/
theorem encodes_union {id : Int} {child : ArrayData} {data : List Datum}
    (hvalid : ∀ child ∈ children.toList, child.Valid)
    (hchild : children.ofTypeId fields id = some child) (hdata : child.rows = data)
    (h : unionTryNew fields (List.replicate data.length id)
      ((List.range data.length).map Int.ofNat) children = .ok a) :
    Encodes a (.union fields .dense) data := by
  have ha := valid_of_unionTryNew hvalid h
  obtain ⟨-, rfl⟩ := unionTryNew_eq_ok.mp h
  refine ⟨ha, rfl, rows_eq (by simp [ArrayData.length]) fun i d hi => ?_, fun i hi => ?_⟩
  · have hlt := (List.getElem?_eq_some_iff.mp hi).1
    have hrow : ((List.replicate data.length id).zip ((List.range data.length).map Int.ofNat))[i]? =
        some (id, Int.ofNat i) :=
      List.getElem?_zip_eq_some.mpr ⟨by simp [hlt], by simp [hlt]⟩
    rw [ArrayData.read, List.getElem?_map, hrow]
    change children.readUnion fields id i = d
    rw [readUnion_eq hchild, read_of_rows hdata hi]
  · cases hi

end Union

end Arrow
end SpannerAdbc
