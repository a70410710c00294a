import SpannerAdbc.Convert.Scalar
import SpannerAdbc.Lib.Offsets

/-!
# SpannerAdbc.Convert.Column

`build_array`: one Arrow array from one wire value per row. The builder of a list gathers the elements
of all rows and builds one child of them; the builder of a struct gathers one column per field and
builds a child of each. A NULL becomes a null slot, and a value that does not decode an error.

`buildWith_eq_ok`, `listLoop_eq_ok` and `structLoop_eq_ok` say what the three loops gather, and
`valid_of_build` that whatever is built is an array that Arrow allows.
-/

namespace SpannerAdbc
namespace Convert

open Arrow Lib
open SpannerAdbc.Stream (Value)

/-- Building an array fails with an error, or a builder of Arrow's panics. -/
inductive Failure where
  | error (e : Error)
  | unwind

variable (C : Decoder)

/-- The value unless it is a NULL. -/
def present : Option Value → Option Value
  | some .null => none
  | value => value

/-! ## Scalars -/

/-- The bytes that a value takes in the buffer of a builder of texts or byte strings. -/
def byteSize : Scalar → Nat
  | .text value => (asBytes value).length
  | .bytes value => value.length
  | _ => 0

def Decoder.holds (size : Nat) : Bool := C.capacity.all fun capacity => size ≤ capacity

structure Builder where
  slots : List (Option Scalar) := []
  size : Nat := 0

/-- `append_null` and `append_value`; the latter panics if the buffer outgrows its offsets. -/
def Builder.append (b : Builder) : Option Scalar → Except Failure Builder
  | none => .ok { b with slots := b.slots ++ [none] }
  | some value =>
    let size := b.size + byteSize value
    if C.holds size then .ok { slots := b.slots ++ [some value], size } else .error .unwind

/-- One row of `build_with` and of `build_primitive`. -/
def buildStep (convert : Value → Except Error Scalar) (b : Builder) (value : Option Value) :
    Except Failure Builder :=
  match present value with
  | none => b.append C none
  | some v => do b.append C (some (← (convert v).mapError .error))

def buildWith (convert : Value → Except Error Scalar) (values : List (Option Value)) :
    Except Failure (List (Option Scalar)) := do
  return (← values.foldlM (buildStep C convert) {}).slots

/-! ## Lists and structs -/

def arrowErr (e : ArrowError) : Failure :=
  .error (err ("failed to build Arrow array: ".toList ++ C.arrowMessage e) .internal)

def offsetError : Error := err "ARRAY result exceeds the i32 offset range".toList .internal

/-- The largest offset, `i32::MAX`. -/
def maxOffset : Nat := 2 ^ 31 - 1

structure ListBuilder where
  children : List (Option Value) := []
  offsets : List Nat := [0]
  validity : List Bool := []

/-- The end of a row of `build_list`, whose length becomes the next offset. -/
def ListBuilder.push (b : ListBuilder) (children : List (Option Value)) (valid : Bool) :
    Except Failure ListBuilder :=
  if children.length > maxOffset then .error (.error offsetError)
  else .ok
    { children
      offsets := b.offsets ++ [children.length]
      validity := b.validity ++ [valid] }

/-- One row of `build_list`. -/
def listStep (b : ListBuilder) (value : Option Value) : Except Failure ListBuilder :=
  match present value with
  | none => b.push b.children false
  | some (.list items) => b.push (b.children ++ items.map some) true
  | some v => .error (.error (decodeError C "ARRAY".toList v))

structure StructBuilder where
  children : List (List (Option Value))
  validity : List Bool := []

/-- One row of `build_struct`. A list may be shorter than the struct. -/
def structStep (b : StructBuilder) (value : Option Value) : Except Failure StructBuilder :=
  match present value with
  | none => .ok
    { children := b.children.map fun child => child ++ [none]
      validity := b.validity ++ [false] }
  | some (.list items) => .ok
    { children := b.children.mapIdx fun i child => child ++ [items[i]?]
      validity := b.validity ++ [true] }
  | some v => .error (.error (decodeError C "STRUCT".toList v))

mutual

def buildArray : DataType → List (Option Value) → Except Failure ArrayData
  | .list (.mk name item nullable metadata), values => do
    let b ← values.foldlM (listStep C) {}
    let child ← buildArray item b.children
    (listTryNew (.mk name item nullable metadata) b.offsets child b.validity).mapError (arrowErr C)
  | .struct fields, values => do
    let b ← values.foldlM (structStep C) { children := List.replicate fields.toList.length [] }
    let arrays ← buildFields fields b.children
    (structTryNew fields arrays b.validity).mapError (arrowErr C)
  | .decimal128 precision scale, values => do
    let slots ← buildWith C (convertScalar C (.decimal128 precision scale)) values
    (checkPrecision precision scale).mapError (arrowErr C)
    return .scalars (.decimal128 precision scale) slots
  | type, values => do
    return .scalars (builtType type) (← buildWith C (convertScalar C type) values)

/-- The arrays of the fields, each from the column gathered for it. -/
def buildFields : Fields → List (List (Option Value)) → Except Failure Children
  | .cons (.mk _ type _ _) fields, column :: columns => do
    let child ← buildArray type column
    return .cons child (← buildFields fields columns)
  | _, _ => .ok .nil

end

/-! ## The loop over scalars -/

section Loops

variable {C} {value : Option Value} {values : List (Option Value)}
  {convert : Value → Except Error Scalar} {b b' : ListBuilder}

/-- The slot of a value that decodes. -/
def slotOf (convert : Value → Except Error Scalar) (value : Option Value) : Option Scalar :=
  (present value).bind fun v => (convert v).toOption

def slotSize (slot : Option Scalar) : Nat := (slot.map byteSize).getD 0

/-- Every value but the NULLs converts. -/
def Converts (convert : Value → Except Error Scalar) (value : Option Value) : Prop :=
  ∀ v, present value = some v → ∃ s, convert v = .ok s

theorem Decoder.holds_of_le {m n : Nat} (h : m ≤ n) (hn : C.holds n = true) : C.holds m = true := by
  unfold Decoder.holds at hn ⊢
  cases hc : C.capacity with
  | none => rfl
  | some capacity =>
    rw [hc] at hn
    simp only [Option.all_some, decide_eq_true_eq] at hn ⊢
    omega

theorem Builder.append_eq_ok {b b' : Builder} {slot : Option Scalar} (hb : C.holds b.size = true) :
    b.append C slot = .ok b' ↔
      C.holds (b.size + slotSize slot) = true ∧ b' = ⟨b.slots ++ [slot], b.size + slotSize slot⟩ := by
  cases slot with
  | none => simp [Builder.append, slotSize, hb, eq_comm]
  | some value =>
    simp only [Builder.append, slotSize, Option.map_some, Option.getD_some]
    split
    · rename_i hs
      simp [hs, eq_comm]
    · rename_i hs
      simp [hs]

theorem buildStep_eq_ok {b b' : Builder} (hb : C.holds b.size = true) :
    buildStep C convert b value = .ok b' ↔
      Converts convert value ∧ C.holds (b.size + slotSize (slotOf convert value)) = true ∧
        b' = ⟨b.slots ++ [slotOf convert value], b.size + slotSize (slotOf convert value)⟩ := by
  rw [buildStep, Converts, slotOf]
  cases hv : present value with
  | none => simp [Builder.append_eq_ok hb]
  | some v =>
    cases hc : convert v with
    | error e => simp [bind_eq_ok, mapError_eq_ok, hc]
    | ok s => simp [bind_eq_ok, mapError_eq_ok, hc, Except.toOption, Builder.append_eq_ok hb]

theorem buildLoop_eq_ok {b b' : Builder} (hb : C.holds b.size = true) :
    values.foldlM (buildStep C convert) b = .ok b' ↔
      (∀ v ∈ values, Converts convert v) ∧
        C.holds (b.size + (values.map fun v => slotSize (slotOf convert v)).sum) = true ∧
        b' = ⟨b.slots ++ values.map (slotOf convert),
          b.size + (values.map fun v => slotSize (slotOf convert v)).sum⟩ := by
  induction values generalizing b with
  | nil =>
    simp only [List.foldlM_nil, List.map_nil, List.sum_nil, List.append_nil, Nat.add_zero]
    exact ⟨fun h => ⟨by simp, hb, (Except.ok.inj h).symm⟩, fun ⟨_, _, h⟩ => h ▸ rfl⟩
  | cons v values ih =>
    rw [List.foldlM_cons, bind_eq_ok, List.forall_mem_cons]
    simp only [List.map_cons, List.sum_cons, ← Nat.add_assoc]
    constructor
    · rintro ⟨next, hstep, hrest⟩
      obtain ⟨hv, hsize, rfl⟩ := (buildStep_eq_ok hb).mp hstep
      obtain ⟨hvs, hsizes, rfl⟩ := (ih hsize).mp hrest
      exact ⟨⟨hv, hvs⟩, hsizes, by simp⟩
    · rintro ⟨⟨hv, hvs⟩, hsizes, rfl⟩
      -- the sizes grow, so a total that fits has fitted after every row
      have hsize := C.holds_of_le (Nat.le_add_right _ _) hsizes
      exact ⟨_, (buildStep_eq_ok hb).mpr ⟨hv, hsize, rfl⟩,
        (ih hsize).mpr ⟨hvs, hsizes, by simp⟩⟩

theorem buildWith_eq_ok {slots : List (Option Scalar)} :
    buildWith C convert values = .ok slots ↔
      (∀ v ∈ values, Converts convert v) ∧
        C.holds (values.map fun v => slotSize (slotOf convert v)).sum = true ∧
        slots = values.map (slotOf convert) := by
  have hzero : C.holds ({} : Builder).size = true := by
    cases hc : C.capacity <;> simp [Decoder.holds, hc]
  rw [buildWith, bind_eq_ok]
  constructor
  · rintro ⟨b, hloop, hslots⟩
    obtain ⟨hvs, hsizes, rfl⟩ := (buildLoop_eq_ok hzero).mp hloop
    rw [Nat.zero_add] at hsizes
    exact ⟨hvs, hsizes, by simpa [pure, Except.pure, eq_comm] using hslots⟩
  · rintro ⟨hvs, hsizes, rfl⟩
    rw [← Nat.zero_add (List.sum _)] at hsizes
    exact ⟨_, (buildLoop_eq_ok hzero).mpr ⟨hvs, hsizes, rfl⟩, rfl⟩

/-! ## The loops over lists and structs -/

/-- A NULL or a wire list. -/
def IsList (value : Option Value) : Prop :=
  ∀ v, present value = some v → ∃ items, v = .list items

/-- The elements that a row adds to the child of a list. -/
def elements (value : Option Value) : List (Option Value) :=
  match present value with
  | some (.list items) => items.map some
  | _ => []

/-- The value that a row adds to the column of field `i` of a struct. -/
def fieldValue (i : Nat) (value : Option Value) : Option Value :=
  match present value with
  | some (.list items) => items[i]?
  | _ => none

def isValid (value : Option Value) : Bool := (present value).isSome

/-- The three kinds of values that a list or struct meets. -/
theorem present_cases (value : Option Value) :
    present value = none ∨ (∃ items, present value = some (.list items)) ∨
      ∃ v, present value = some v ∧ ∀ items, v ≠ .list items := by
  cases h : present value with
  | none => exact .inl rfl
  | some v =>
    by_cases hl : ∃ items, v = .list items
    · obtain ⟨items, rfl⟩ := hl
      exact .inr (.inl ⟨items, rfl⟩)
    · exact .inr (.inr ⟨v, rfl, not_exists.mp hl⟩)

theorem isList_of_none (h : present value = none) : IsList value := by
  intro v hv
  rw [h] at hv
  cases hv

theorem isList_of_list {items : List Value} (h : present value = some (.list items)) :
    IsList value := by
  intro v hv
  rw [h] at hv
  exact ⟨items, (Option.some.inj hv).symm⟩

theorem not_isList {v : Value} (h : present value = some v) (hv : ∀ items, v ≠ .list items) :
    ¬ IsList value := by
  intro hl
  obtain ⟨items, rfl⟩ := hl v h
  exact hv items rfl

theorem mapIdx_const {α β : Type} (f : α → β) (as : List α) :
    (as.mapIdx fun _ a => f a) = as.map f :=
  List.ext_getElem (by simp) (by simp)

theorem ListBuilder.push_eq_ok {children : List (Option Value)} {valid : Bool} :
    b.push children valid = .ok b' ↔
      children.length ≤ maxOffset ∧
        b' = ⟨children, b.offsets ++ [children.length], b.validity ++ [valid]⟩ := by
  rw [ListBuilder.push]
  split
  · rename_i hlt
    exact ⟨fun h => (nomatch h), fun ⟨hle, _⟩ => absurd hle (Nat.not_le_of_lt hlt)⟩
  · rename_i hle
    exact ⟨fun h => ⟨Nat.le_of_not_lt hle, (Except.ok.inj h).symm⟩, fun ⟨_, h⟩ => h ▸ rfl⟩

theorem listStep_eq_ok :
    listStep C b value = .ok b' ↔
      IsList value ∧ (b.children ++ elements value).length ≤ maxOffset ∧
        b' = ⟨b.children ++ elements value,
          b.offsets ++ [b.children.length + (elements value).length],
          b.validity ++ [isValid value]⟩ := by
  rcases present_cases value with h | ⟨items, h⟩ | ⟨v, h, hv⟩
  · simp [listStep, ListBuilder.push_eq_ok, elements, isValid, isList_of_none h, h]
  · simp [listStep, ListBuilder.push_eq_ok, elements, isValid, isList_of_list h, h]
  · have hl := not_isList h hv
    cases v with
    | list items => exact absurd rfl (hv items)
    | null | bool | number | string | struct => simp [listStep, h, hl]

theorem listLoop_eq_ok (hb : b.children.length ≤ maxOffset) :
    values.foldlM (listStep C) b = .ok b' ↔
      (∀ v ∈ values, IsList v) ∧ (b.children ++ values.flatMap elements).length ≤ maxOffset ∧
        b' = ⟨b.children ++ values.flatMap elements,
          b.offsets ++ ends b.children.length (values.map elements),
          b.validity ++ values.map isValid⟩ := by
  induction values generalizing b with
  | nil =>
    simp only [List.foldlM_nil, List.flatMap_nil, List.map_nil, ends, List.append_nil]
    constructor
    · intro h
      exact ⟨by simp, hb, (Except.ok.inj h).symm⟩
    · rintro ⟨-, -, rfl⟩
      rfl
  | cons v values ih =>
    rw [List.foldlM_cons, bind_eq_ok, List.forall_mem_cons, List.flatMap_cons, ← List.append_assoc]
    constructor
    · rintro ⟨next, hstep, hrest⟩
      obtain ⟨hv, hlen, rfl⟩ := listStep_eq_ok.mp hstep
      obtain ⟨hvs, hlens, rfl⟩ := (ih hlen).mp hrest
      exact ⟨⟨hv, hvs⟩, hlens, by simp [ends]⟩
    · rintro ⟨⟨hv, hvs⟩, hlens, rfl⟩
      -- the children grow, so a total that fits has fitted after every row
      have hlen : (b.children ++ elements v).length ≤ maxOffset := by
        rw [List.length_append] at hlens
        omega
      exact ⟨_, listStep_eq_ok.mpr ⟨hv, hlen, rfl⟩, (ih hlen).mpr ⟨hvs, hlens, by simp [ends]⟩⟩

theorem structStep_eq_ok {b b' : StructBuilder} :
    structStep C b value = .ok b' ↔
      IsList value ∧
        b' = ⟨b.children.mapIdx fun i child => child ++ [fieldValue i value],
          b.validity ++ [isValid value]⟩ := by
  rcases present_cases value with h | ⟨items, h⟩ | ⟨v, h, hv⟩
  · simp [structStep, fieldValue, isValid, isList_of_none h, h, mapIdx_const, eq_comm]
  · simp [structStep, fieldValue, isValid, isList_of_list h, h, eq_comm]
  · have hl := not_isList h hv
    cases v with
    | list items => exact absurd rfl (hv items)
    | null | bool | number | string | struct => simp [structStep, h, hl]

theorem structLoop_eq_ok {b b' : StructBuilder} :
    values.foldlM (structStep C) b = .ok b' ↔
      (∀ v ∈ values, IsList v) ∧
        b' = ⟨b.children.mapIdx fun i child => child ++ values.map (fieldValue i),
          b.validity ++ values.map isValid⟩ := by
  induction values generalizing b with
  | nil =>
    simp only [List.foldlM_nil, List.map_nil, List.append_nil]
    rw [mapIdx_const, List.map_id']
    exact ⟨fun h => ⟨by simp, (Except.ok.inj h).symm⟩, fun ⟨_, h⟩ => h ▸ rfl⟩
  | cons v values ih =>
    rw [List.foldlM_cons, bind_eq_ok, List.forall_mem_cons]
    constructor
    · rintro ⟨next, hstep, hrest⟩
      obtain ⟨hv, rfl⟩ := structStep_eq_ok.mp hstep
      obtain ⟨hvs, rfl⟩ := ih.mp hrest
      exact ⟨⟨hv, hvs⟩, by simp [List.mapIdx_mapIdx, Function.comp_def]⟩
    · rintro ⟨⟨hv, hvs⟩, rfl⟩
      exact ⟨_, structStep_eq_ok.mpr ⟨hv, rfl⟩,
        ih.mpr ⟨hvs, by simp [List.mapIdx_mapIdx, Function.comp_def]⟩⟩

end Loops

/-! ## Arrays -/

section Arrays

variable {C} {values : List (Option Value)} {a : ArrayData}

/-- Neither a list nor a struct. -/
def isLeaf : DataType → Bool
  | .list _ | .struct _ => false
  | _ => true

theorem scalars_of_build {type : DataType} (hleaf : isLeaf type = true)
    (h : buildArray C type values = .ok a) :
    ∃ slots, buildWith C (convertScalar C type) values = .ok slots ∧
      a = .scalars (builtType type) slots := by
  cases type with
  | list | struct => cases hleaf
  | decimal128 precision scale =>
    obtain ⟨slots, hslots, h⟩ := bind_eq_ok.mp h
    obtain ⟨-, -, h⟩ := bind_eq_ok.mp h
    exact ⟨slots, hslots, (Except.ok.inj h).symm⟩
  | _ =>
    obtain ⟨slots, hslots, h⟩ := bind_eq_ok.mp h
    exact ⟨slots, hslots, (Except.ok.inj h).symm⟩

theorem buildList_eq_ok {name : List Char} {item : DataType} {nullable : Bool}
    {metadata : List (List Char × List Char)} :
    buildArray C (.list (.mk name item nullable metadata)) values = .ok a ↔
      (∀ v ∈ values, IsList v) ∧ (values.flatMap elements).length ≤ maxOffset ∧
        ∃ child, buildArray C item (values.flatMap elements) = .ok child ∧
          listTryNew (.mk name item nullable metadata) (offsets 0 (values.map elements)) child
            (values.map isValid) = .ok a := by
  rw [buildArray, bind_eq_ok]
  constructor
  · rintro ⟨b, hloop, h⟩
    obtain ⟨child, hchild, h⟩ := bind_eq_ok.mp h
    obtain ⟨hlists, hlen, rfl⟩ := (listLoop_eq_ok (Nat.zero_le _)).mp hloop
    exact ⟨hlists, hlen, child, hchild, mapError_eq_ok.mp h⟩
  · rintro ⟨hlists, hlen, child, hchild, h⟩
    exact ⟨_, (listLoop_eq_ok (Nat.zero_le _)).mpr ⟨hlists, hlen, rfl⟩,
      bind_eq_ok.mpr ⟨child, hchild, mapError_eq_ok.mpr h⟩⟩

theorem length_flatten_elements (values : List (Option Value)) :
    (values.map elements).flatten.length = (values.flatMap elements).length := by
  rw [List.flatMap_def]

/-- The columns gathered for the fields from position `i` on. -/
def gathered (fields : Fields) (i : Nat) (values : List (Option Value)) :
    List (List (Option Value)) :=
  (List.range' i fields.toList.length).map fun k => values.map (fieldValue k)

theorem gathered_cons (field : Field) (fields : Fields) (i : Nat) (values : List (Option Value)) :
    gathered (.cons field fields) i values =
      values.map (fieldValue i) :: gathered fields (i + 1) values := by
  rw [gathered, Fields.toList, List.length_cons, List.range'_succ, List.map_cons]
  rfl

theorem buildStruct_eq_ok {fields : Fields} :
    buildArray C (.struct fields) values = .ok a ↔
      (∀ v ∈ values, IsList v) ∧
        ∃ children, buildFields C fields (gathered fields 0 values) = .ok children ∧
          structTryNew fields children (values.map isValid) = .ok a := by
  have hgather : (List.replicate fields.toList.length ([] : List (Option Value))).mapIdx
      (fun i child => child ++ values.map (fieldValue i)) = gathered fields 0 values :=
    List.ext_getElem (by simp [gathered]) (by simp [gathered])
  rw [buildArray, bind_eq_ok]
  constructor
  · rintro ⟨b, hloop, h⟩
    obtain ⟨children, hchildren, h⟩ := bind_eq_ok.mp h
    obtain ⟨hlists, rfl⟩ := structLoop_eq_ok.mp hloop
    rw [hgather] at hchildren
    exact ⟨hlists, children, hchildren, mapError_eq_ok.mp h⟩
  · rintro ⟨hlists, children, hchildren, h⟩
    rw [← hgather] at hchildren
    exact ⟨_, structLoop_eq_ok.mpr ⟨hlists, rfl⟩,
      bind_eq_ok.mpr ⟨children, hchildren, mapError_eq_ok.mpr h⟩⟩

theorem valid_scalars {type : DataType} {slots : List (Option Scalar)}
    (h : buildWith C (convertScalar C type) values = .ok slots) :
    (ArrayData.scalars (builtType type) slots).Valid := by
  obtain ⟨-, -, rfl⟩ := buildWith_eq_ok.mp h
  refine ⟨isScalar_builtType type, fun slot hslot s hs => ?_⟩
  obtain ⟨v, -, rfl⟩ := List.mem_map.mp hslot
  obtain ⟨w, -, hw⟩ := Option.bind_eq_some_iff.mp hs
  cases hc : convertScalar C type w with
  | error e => simp [hc, Except.toOption] at hw
  | ok t =>
    obtain rfl : t = s := by simpa [hc, Except.toOption] using hw
    exact fits_convertScalar hc

mutual

/-- Whatever is built is an array that Arrow allows, for every type. -/
theorem valid_of_build (type : DataType) {values : List (Option Value)} {a : ArrayData}
    (h : buildArray C type values = .ok a) : a.Valid := by
  cases type with
  | list field =>
    cases field with
    | mk name item nullable metadata =>
      obtain ⟨-, -, child, hbuild, h⟩ := buildList_eq_ok.mp h
      obtain ⟨hlast, -, hnull, htype, rfl⟩ := listTryNew_eq_ok.mp h
      rw [getLast?_offsets, Option.getD_some] at hlast
      exact ⟨by simp [offsets], pairwise_offsets 0 _, fun o ho => (mem_offsets ho).2.trans hlast,
        htype, hnull, valid_of_build item hbuild⟩
  | struct fields =>
    obtain ⟨-, children, hbuild, h⟩ := buildStruct_eq_ok.mp h
    obtain ⟨-, hvalid, rfl⟩ := (structTryNew_eq_ok (valid_of_buildFields fields hbuild)).mp h
    exact hvalid
  | _ =>
    obtain ⟨slots, hslots, rfl⟩ := scalars_of_build rfl h
    exact valid_scalars hslots

theorem valid_of_buildFields : ∀ (fields : Fields) {columns : List (List (Option Value))}
    {children : Children}, buildFields C fields columns = .ok children →
      ∀ child ∈ children.toList, child.Valid
  | .nil, columns, children, h => by
    obtain rfl := Except.ok.inj h
    simp [Children.toList]
  | .cons (.mk _ _ _ _) _, [], children, h => by
    obtain rfl := Except.ok.inj h
    simp [Children.toList]
  | .cons (.mk _ type _ _) fields, column :: columns, children, h => by
    obtain ⟨child, hchild, h⟩ := bind_eq_ok.mp h
    obtain ⟨rest, hrest, h⟩ := bind_eq_ok.mp h
    obtain rfl := Except.ok.inj h
    exact List.forall_mem_cons.mpr ⟨valid_of_build type hchild, valid_of_buildFields fields hrest⟩

end

end Arrays

end Convert
end SpannerAdbc
