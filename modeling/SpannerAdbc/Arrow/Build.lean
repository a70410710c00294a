import SpannerAdbc.Arrow.Array
import SpannerAdbc.Lib.Result

/-!
# SpannerAdbc.Arrow.Build

Arrow's checked constructors of list arrays, struct arrays and record batches. Each refuses parts that
do not fit together; `listTryNew_eq_ok`, `structTryNew_eq_ok` and `RecordBatch.tryNew_eq_ok` say when
they accept.
-/

namespace SpannerAdbc
namespace Arrow

open Lib

/-- The failed checks of Arrow's constructors. -/
inductive ArrowError where
  | precision (precision : Nat) (scale : Int)
  | maxOffset (last len : Nat)
  | nullBuffer (expected actual : Nat)
  | nonNullable (field : Field)
  | mismatch (expected actual : DataType)
  | noFields
  | fieldCount (expected actual : Nat)
  | childLength (expected actual : Nat)
  | unionFields (expected actual : Nat)
  | unionOffsets (typeIds offsets : Nat)
  | unionTypeId
  | unionOffset
  | columnCount (columns fields : Nat)
  | noColumns
  | columnLength
  | columnTypes (expected actual : List DataType)
  deriving DecidableEq, Repr

/-- `with_precision_and_scale` of a decimal array; the values are not checked. -/
def checkPrecision (precision : Nat) (scale : Int) : Except ArrowError Unit :=
  if precision = 0 ∨ precision > 38 ∨ scale > 38 ∨ (scale > 0 ∧ scale > precision) then
    .error (.precision precision scale)
  else .ok ()

/-- `ListArray::try_new`. -/
def listTryNew (field : Field) (offsets : List Nat) (child : ArrayData) (validity : List Bool) :
    Except ArrowError ArrayData :=
  let len := offsets.length - 1
  let last := offsets.getLast?.getD 0
  if last > child.length then .error (.maxOffset last child.length)
  else if validity.length ≠ len then .error (.nullBuffer len validity.length)
  else if field.isNullable = false ∧ child.hasNulls = true then .error (.nonNullable field)
  else if child.dataType ≠ field.dataType then .error (.mismatch field.dataType child.dataType)
  else .ok (.list false field offsets child validity)

/-- One field of a struct array of `len` rows. -/
def checkChild (validity : List Bool) (len : Nat) (fc : Field × ArrayData) : Except ArrowError Unit :=
  if fc.2.dataType ≠ fc.1.dataType then .error (.mismatch fc.1.dataType fc.2.dataType)
  else if fc.2.length ≠ len then .error (.childLength len fc.2.length)
  else if fc.1.isNullable = false ∧
      ∃ i ∈ List.range fc.2.length, fc.2.isNull i = true ∧ validity[i]? ≠ some false then
    .error (.nonNullable fc.1)
  else .ok ()

/-- `StructArray::try_new`. The first child tells the length, so there has to be one. -/
def structTryNew (fields : Fields) (children : Children) (validity : List Bool) :
    Except ArrowError ArrayData :=
  match children with
  | .nil => .error .noFields
  | .cons first rest => do
    let children := Children.cons first rest
    if fields.toList.length ≠ children.toList.length then
      throw (.fieldCount fields.toList.length children.toList.length)
    if validity.length ≠ first.length then throw (.nullBuffer first.length validity.length)
    (fields.toList.zip children.toList).forM (checkChild validity first.length)
    return .struct fields children validity

variable {validity : List Bool} {columns : List ArrayData} {len : Nat}

theorem listTryNew_eq_ok {field : Field} {offsets : List Nat} {child a : ArrayData} :
    listTryNew field offsets child validity = .ok a ↔
      offsets.getLast?.getD 0 ≤ child.length ∧ validity.length = offsets.length - 1 ∧
        (field.isNullable = false → ∀ i, child.isNull i = false) ∧
        child.dataType = field.dataType ∧ a = .list false field offsets child validity := by
  simp only [listTryNew]
  split
  · simp only [reduceCtorEq, false_iff]
    omega
  · split
    · simp only [reduceCtorEq, false_iff]
      tauto
    · split
      · rename_i hnull
        simp only [reduceCtorEq, false_iff]
        rintro ⟨-, -, h, -⟩
        exact absurd (ArrayData.hasNulls_eq_false.mpr (h hnull.1)) (by simp [hnull.2])
      · rename_i hnull
        have hok : field.isNullable = false → ∀ i, child.isNull i = false := fun hf =>
          ArrayData.hasNulls_eq_false.mp (by simpa [hf] using hnull)
        split
        · simp only [reduceCtorEq, false_iff]
          tauto
        · simp only [Except.ok.injEq]
          constructor
          · rintro rfl
            exact ⟨by omega, by tauto, hok, by tauto, rfl⟩
          · tauto

theorem checkChild_eq_ok {fc : Field × ArrayData} :
    checkChild validity len fc = .ok () ↔
      fc.2.dataType = fc.1.dataType ∧ fc.2.length = len ∧
        (fc.1.isNullable = false → ∀ i, fc.2.isNull i = true → validity[i]? = some false) := by
  have hlt : ∀ {i}, fc.2.isNull i = true → i ∈ List.range fc.2.length := by
    intro i hi
    rw [List.mem_range]
    by_contra hge
    rw [ArrayData.isNull_of_length_le (Nat.le_of_not_lt hge)] at hi
    cases hi
  simp only [checkChild]
  split
  · simp only [reduceCtorEq, false_iff]
    tauto
  · split
    · simp only [reduceCtorEq, false_iff]
      tauto
    · split
      · rename_i hnull
        obtain ⟨hf, i, -, hi, hv⟩ := hnull
        simp only [reduceCtorEq, false_iff]
        rintro ⟨-, -, h⟩
        exact hv (h hf i hi)
      · rename_i htype hlen hnull
        refine ⟨fun _ => ⟨by tauto, by tauto, fun hf i hi => ?_⟩, fun _ => rfl⟩
        by_contra hv
        exact hnull ⟨hf, i, hlt hi, hi, hv⟩

theorem Children.Valid.length_eq : ∀ {children : Children} {fields : Fields},
    children.Valid fields validity → fields.toList.length = children.toList.length
  | .nil, .nil, _ => rfl
  | .cons _ _, .cons _ _, h => congrArg (· + 1) h.2.2.2.2.length_eq

/-- The children of a struct are checked one by one. -/
theorem Children.valid_iff (validity : List Bool) : ∀ {children : Children} {fields : Fields},
    fields.toList.length = children.toList.length → (∀ child ∈ children.toList, child.Valid) →
      (children.Valid fields validity ↔
        ∀ fc ∈ fields.toList.zip children.toList, checkChild validity validity.length fc = .ok ())
  | .nil, .nil, _, _ => by simp [Children.Valid, Fields.toList]
  | .nil, .cons _ _, hlen, _ => by cases hlen
  | .cons _ _, .nil, hlen, _ => by cases hlen
  | .cons child children, .cons field fields, hlen, hvalid => by
    obtain ⟨hchild, hchildren⟩ := List.forall_mem_cons.mp hvalid
    have ih := Children.valid_iff validity (Nat.succ.inj hlen) hchildren
    simp only [Children.Valid, Fields.toList, Children.toList, List.zip_cons_cons,
      List.forall_mem_cons, checkChild_eq_ok, ih]
    tauto

/-- A struct of at least one field is accepted exactly when its children fit. -/
theorem structTryNew_eq_ok {fields : Fields} {children : Children} {a : ArrayData}
    (hvalid : ∀ child ∈ children.toList, child.Valid) :
    structTryNew fields children validity = .ok a ↔
      fields.toList ≠ [] ∧ children.Valid fields validity ∧ a = .struct fields children validity := by
  cases children with
  | nil => cases fields <;> simp [structTryNew, Children.Valid, Fields.toList]
  | cons first rest =>
    simp only [structTryNew]
    split
    · rename_i hlen
      constructor
      · intro h
        cases h
      · intro h
        exact absurd h.2.1.length_eq hlen
    · rename_i hlen
      rw [Children.valid_iff validity (not_not.mp hlen) hvalid]
      have hne : fields.toList ≠ [] := by
        intro h
        simp [h, Children.toList] at hlen
      split
      · rename_i hfirst
        constructor
        · intro h
          cases h
        · intro h
          -- the first field would have failed the check of its length
          cases fields with
          | nil => exact absurd rfl hne
          | cons field fields =>
            exact absurd (checkChild_eq_ok.mp (h.2.1 _ List.mem_cons_self)).2.1.symm hfirst
      · rename_i hfirst
        rw [← not_not.mp hfirst]
        change ((fields.toList.zip (Children.cons first rest).toList).forM
          (checkChild validity validity.length) >>= fun _ => pure _) = _ ↔ _
        rw [bind_eq_ok]
        constructor
        · rintro ⟨⟨⟩, h, ha⟩
          exact ⟨hne, forM_eq_ok.mp h, (Except.ok.inj ha).symm⟩
        · rintro ⟨-, h, rfl⟩
          exact ⟨(), forM_eq_ok.mpr h, rfl⟩

/-- `RecordBatch::try_new`, for columns that exist. -/
def RecordBatch.tryNew (schema : Schema) (columns : List ArrayData)
    (valid : ∀ column ∈ columns, column.Valid) : Except ArrowError RecordBatch :=
  if schema.length ≠ columns.length then .error (.columnCount columns.length schema.length)
  else match columns.head? with
  | none => .error .noColumns
  | some first =>
    match hnulls : (schema.zip columns).find? fun fc => !fc.1.isNullable && fc.2.hasNulls with
    | some fc => .error (.nonNullable fc.1)
    | none =>
      if lengths : ∀ column ∈ columns, column.length = first.length then
        if types : columns.map ArrayData.dataType = schema.map Field.dataType then
          .ok
            { schema, columns, types, lengths, valid
              numRows := first.length
              nulls := fun fc hmem hf => by
                have := List.find?_eq_none.mp hnulls fc hmem
                exact ArrayData.hasNulls_eq_false.mp (by simpa [hf] using this) }
        else .error (.columnTypes (schema.map Field.dataType) (columns.map ArrayData.dataType))
      else .error .columnLength

/-- Columns of one length that have the types of the schema, and nulls only where its fields allow
them, are a batch. -/
theorem RecordBatch.tryNew_of_nulls {schema : Schema} (valid : ∀ column ∈ columns, column.Valid)
    (hne : columns ≠ [])
    (hnulls : ∀ fc ∈ schema.zip columns, fc.1.isNullable = false → ∀ i, fc.2.isNull i = false)
    (lengths : ∀ column ∈ columns, column.length = len)
    (types : columns.map ArrayData.dataType = schema.map Field.dataType) :
    ∃ batch, RecordBatch.tryNew schema columns valid = .ok batch ∧ batch.schema = schema ∧
      batch.columns = columns ∧ batch.numRows = len := by
  obtain ⟨first, rest, rfl⟩ := List.exists_cons_of_ne_nil hne
  have hcount : schema.length = (first :: rest).length := by
    simpa using (congrArg List.length types).symm
  have hfind : (schema.zip (first :: rest)).find?
      (fun fc => !fc.1.isNullable && fc.2.hasNulls) = none := by
    rw [List.find?_eq_none]
    intro fc hmem
    cases hf : fc.1.isNullable with
    | true => simp
    | false => simp [ArrayData.hasNulls_eq_false.mpr (hnulls fc hmem hf)]
  have hfirst := lengths first List.mem_cons_self
  rw [RecordBatch.tryNew, if_neg (not_not.mpr hcount)]
  simp only [List.head?_cons]
  split
  · rename_i fc h
    rw [hfind] at h
    cases h
  · rw [dif_pos (fun column hc => (lengths column hc).trans hfirst.symm), dif_pos types]
    exact ⟨_, rfl, rfl, rfl, hfirst⟩

/-- Columns of one length that have the types of a schema of nullable fields are a batch. -/
theorem RecordBatch.tryNew_eq_ok {schema : Schema} (valid : ∀ column ∈ columns, column.Valid)
    (hne : columns ≠ []) (hnull : ∀ field ∈ schema, field.isNullable = true)
    (lengths : ∀ column ∈ columns, column.length = len)
    (types : columns.map ArrayData.dataType = schema.map Field.dataType) :
    ∃ batch, RecordBatch.tryNew schema columns valid = .ok batch ∧ batch.schema = schema ∧
      batch.columns = columns ∧ batch.numRows = len := by
  refine RecordBatch.tryNew_of_nulls valid hne (fun fc hmem hf => ?_) lengths types
  rw [hnull fc.1 (List.of_mem_zip hmem).1] at hf
  cases hf

end Arrow
end SpannerAdbc
