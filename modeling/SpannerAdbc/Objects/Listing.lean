import SpannerAdbc.Objects.Assemble

/-!
# SpannerAdbc.Objects.Listing

What `get_objects` lists, said by nested filters over the rows of the catalog: `listing`. The grouped
assembly computes it from every set of batches that hold the rows (`assembleObjects_eq`).
-/

namespace SpannerAdbc
namespace Objects

open Arrow Lib Metadata Sql
open SpannerAdbc.Convert (parseI64)

/-! ## The catalog -/

structure TablesRow where
  tableSchema : List Char
  tableName : List Char
  tableType : List Char

structure ColumnsRow where
  tableSchema : List Char
  tableName : List Char
  columnName : List Char
  ordinalPosition : Int
  isNullable : List Char
  spannerType : List Char

structure ConstraintsRow where
  tableSchema : List Char
  tableName : List Char
  constraintName : List Char
  constraintType : List Char

structure KeyColumnUsageRow where
  constraintSchema : List Char
  constraintName : List Char
  tableSchema : List Char
  tableName : List Char
  columnName : List Char
  ordinalPosition : List Char
  positionInUniqueConstraint : Option (List Char)

structure ReferentialRow where
  constraintSchema : List Char
  constraintName : List Char
  uniqueConstraintSchema : List Char
  uniqueConstraintName : List Char

structure Catalog where
  schemata : List (List Char)
  tables : List TablesRow
  columns : List ColumnsRow
  constraints : List ConstraintsRow
  keyColumns : List KeyColumnUsageRow
  referential : List ReferentialRow

/-! ## The listing -/

instance (pattern value : List Char) : Decidable (Like pattern value) :=
  decidable_of_iff (likeMatch pattern value = true) likeMatch_iff

/-- The name matches the pattern of the filter, if there is one. -/
def Accepts (filter : Option (List Char)) (name : List Char) : Prop :=
  ∀ pattern ∈ filter, Like pattern name

instance (filter : Option (List Char)) (name : List Char) : Decidable (Accepts filter name) :=
  inferInstanceAs (Decidable (∀ pattern ∈ filter, Like pattern name))

/-- The type of the table is one of the filter's, if there is one. -/
def AcceptsType (filter : Option (List (List Char))) (tableType : List Char) : Prop :=
  ∀ types ∈ filter, tableType ∈ types

theorem any_not_contains {filter : Option (List (List Char))} {tableType : List Char} :
    (filter.any fun types => !types.contains tableType) = false ↔ AcceptsType filter tableType := by
  cases filter <;> simp [AcceptsType]

instance (filter : Option (List (List Char))) (tableType : List Char) :
    Decidable (AcceptsType filter tableType) := decidable_of_iff _ any_not_contains

namespace Catalog

variable (rows : Catalog) (filters : ObjectFilters)

def listedColumns (schema table : List Char) : List Column :=
  (rows.columns.filter fun c => c.tableSchema = schema ∧ c.tableName = table ∧
      Accepts filters.columnName c.columnName).map fun c =>
    { name := c.columnName, ordinal := asI32 c.ordinalPosition
      nullable := eqIgnoreAsciiCase c.isNullable "YES".toList, typeName := c.spannerType }

/-- The key columns of a constraint. -/
def keyColumnsOf (schema name : List Char) : List KeyColumnUsageRow :=
  rows.keyColumns.filter fun k => k.constraintSchema = schema ∧ k.constraintName = name

/-- The columns that a foreign key refers to, in the order of its own columns. A column of the key says
by its position which column of the referenced constraint it stands for. -/
def usagesOf (schema name : List Char) : List Usage :=
  match rows.referential.find? fun r => r.constraintSchema = schema ∧ r.constraintName = name with
  | none => []
  | some r =>
    let own : List (Int × Int) := (rows.keyColumnsOf schema name).filterMap fun k => do
      return (← parseI64 k.ordinalPosition, ← parseI64 (← k.positionInUniqueConstraint))
    (own.mergeSort fun a b => a.1 ≤ b.1).filterMap fun column =>
      ((rows.keyColumnsOf r.uniqueConstraintSchema r.uniqueConstraintName).reverse.find? fun k =>
        parseI64 k.ordinalPosition = some column.2).map fun k =>
          { dbSchema := k.tableSchema, table := k.tableName, column := k.columnName }

def listedConstraints (schema table : List Char) : List Constraint :=
  (rows.constraints.filter fun c => c.tableSchema = schema ∧ c.tableName = table).map fun c =>
    { name := some c.constraintName, constraintType := c.constraintType
      columns := (rows.keyColumnsOf schema c.constraintName).map KeyColumnUsageRow.columnName
      usages := if c.constraintType = foreignKey then rows.usagesOf schema c.constraintName else [] }

def listedTables (schema : List Char) : List Table :=
  (rows.tables.filter fun t => t.tableSchema = schema ∧ Accepts filters.tableName t.tableName ∧
      AcceptsType filters.tableType t.tableType).map fun t =>
    { name := t.tableName, tableType := t.tableType
      columns := rows.listedColumns filters schema t.tableName
      constraints := rows.listedConstraints schema t.tableName }

def listing : List DbSchema :=
  (rows.schemata.filter fun schema => Accepts filters.dbSchema schema).map fun schema =>
    { name := schema, tables := rows.listedTables filters schema }

end Catalog

/-! ## Batches that hold the catalog -/

/-- The batch has these rows, in the columns of its query. -/
def Holds {A : Type} (select : List (DataType × (A → Option Scalar))) (batch : RecordBatch)
    (rows : List A) : Prop :=
  batch.numRows = rows.length ∧
    batch.columns = select.map fun s => ArrayData.scalars s.1 (rows.map s.2)

/-- A batch that was not fetched holds nothing. -/
def HoldsOpt {A : Type} (select : List (DataType × (A → Option Scalar))) (batch : Option RecordBatch)
    (rows : List A) : Prop :=
  match batch with
  | none => rows = []
  | some batch => Holds select batch rows

def text {A : Type} (f : A → List Char) : DataType × (A → Option Scalar) :=
  (.utf8, fun a => some (.text (f a)))

def schemataSelect : List (DataType × (List Char → Option Scalar)) := [text id]

def tablesSelect : List (DataType × (TablesRow → Option Scalar)) :=
  [text (·.tableSchema), text (·.tableName), text (·.tableType)]

def columnsSelect : List (DataType × (ColumnsRow → Option Scalar)) :=
  [text (·.tableSchema), text (·.tableName), text (·.columnName),
    (.int64, fun c => some (.int c.ordinalPosition)), text (·.isNullable), text (·.spannerType)]

def constraintsSelect : List (DataType × (ConstraintsRow → Option Scalar)) :=
  [text (·.tableSchema), text (·.tableName), text (·.constraintName), text (·.constraintType)]

def keyColumnsSelect : List (DataType × (KeyColumnUsageRow → Option Scalar)) :=
  [text (·.constraintSchema), text (·.constraintName), text (·.tableSchema), text (·.tableName),
    text (·.columnName), text (·.ordinalPosition),
    (.utf8, fun k => k.positionInUniqueConstraint.map .text)]

def referentialSelect : List (DataType × (ReferentialRow → Option Scalar)) :=
  [text (·.constraintSchema), text (·.constraintName), text (·.uniqueConstraintSchema),
    text (·.uniqueConstraintName)]

structure ObjectBatches.Hold (batches : ObjectBatches) (rows : Catalog) : Prop where
  schemata : Holds schemataSelect batches.schemata rows.schemata
  tables : HoldsOpt tablesSelect batches.tables rows.tables
  columns : HoldsOpt columnsSelect batches.columns rows.columns
  constraints : HoldsOpt constraintsSelect batches.constraints rows.constraints
  keyColumns : HoldsOpt keyColumnsSelect batches.keyColumns rows.keyColumns
  referential : HoldsOpt referentialSelect batches.referential rows.referential

/-- The cells are values of the type of their column. -/
def Storable {A : Type} (rows : List A) (s : DataType × (A → Option Scalar)) : Prop :=
  s.1.isScalar = true ∧ ∀ a ∈ rows, ∀ value ∈ s.2 a, Scalar.fits s.1 value = true

/-- The batch that holds these rows. -/
def batchOf {A : Type} (select : List (DataType × (A → Option Scalar))) (rows : List A)
    (h : ∀ s ∈ select, Storable rows s) : RecordBatch where
  schema := select.map fun s => .new [] s.1 true
  columns := select.map fun s => .scalars s.1 (rows.map s.2)
  numRows := rows.length
  types := by
    rw [List.map_map, List.map_map]
    rfl
  lengths := by
    intro column hc
    obtain ⟨s, -, rfl⟩ := List.mem_map.mp hc
    exact List.length_map s.2
  nulls := by
    intro fc hfc hnullable
    obtain ⟨s, -, hs⟩ := List.mem_map.mp (List.of_mem_zip hfc).1
    rw [← hs] at hnullable
    cases hnullable
  valid := by
    intro column hc
    obtain ⟨s, hs, rfl⟩ := List.mem_map.mp hc
    refine ⟨(h s hs).1, fun slot hslot value hvalue => ?_⟩
    obtain ⟨a, ha, rfl⟩ := List.mem_map.mp hslot
    exact (h s hs).2 a ha value hvalue

theorem storable_nullable {A : Type} (rows : List A) (f : A → Option (List Char)) :
    Storable rows (.utf8, fun a => (f a).map Scalar.text) := by
  refine ⟨rfl, fun a _ value hvalue => ?_⟩
  obtain ⟨t, -, rfl⟩ := Option.map_eq_some_iff.mp hvalue
  rfl

theorem storable_text {A : Type} (rows : List A) (f : A → List Char) : Storable rows (text f) :=
  storable_nullable rows fun a => some (f a)

theorem storable_columns {columns : List ColumnsRow}
    (h : ∀ c ∈ columns, fitsSigned 64 c.ordinalPosition = true) :
    ∀ s ∈ columnsSelect, Storable columns s := by
  have hordinal : Storable columns (.int64, fun c => some (.int c.ordinalPosition)) := by
    refine ⟨rfl, fun c hc value hvalue => ?_⟩
    obtain rfl := Option.mem_some_iff.mp hvalue
    exact h c hc
  simp [columnsSelect, storable_text, hordinal]

/-- The batches of all six queries. -/
def Catalog.batches (rows : Catalog)
    (h : ∀ c ∈ rows.columns, fitsSigned 64 c.ordinalPosition = true) : ObjectBatches where
  schemata := batchOf schemataSelect rows.schemata (by simp [schemataSelect, storable_text])
  tables := some (batchOf tablesSelect rows.tables (by simp [tablesSelect, storable_text]))
  columns := some (batchOf columnsSelect rows.columns (storable_columns h))
  constraints := some (batchOf constraintsSelect rows.constraints
    (by simp [constraintsSelect, storable_text]))
  keyColumns := some (batchOf keyColumnsSelect rows.keyColumns
    (by simp [keyColumnsSelect, storable_text, storable_nullable]))
  referential := some (batchOf referentialSelect rows.referential
    (by simp [referentialSelect, storable_text]))

theorem hold_batches (rows : Catalog)
    (h : ∀ c ∈ rows.columns, fitsSigned 64 c.ordinalPosition = true) : (rows.batches h).Hold rows :=
  ⟨⟨rfl, rfl⟩, ⟨rfl, rfl⟩, ⟨rfl, rfl⟩, ⟨rfl, rfl⟩, ⟨rfl, rfl⟩, ⟨rfl, rfl⟩⟩

/-! ## Reading the rows back -/

section Reading

variable {A : Type} {select : List (DataType × (A → Option Scalar))} {batch : RecordBatch}
  {rows : List A}

theorem strCol_of_holds (h : Holds select batch rows) {i : Nat} {cell : A → Option Scalar}
    (hi : select[i]? = some (.utf8, cell)) : strCol batch i = .ok (rows.map cell) := by
  have hcol : batch.columns[i]? = some (.scalars .utf8 (rows.map cell)) := by
    rw [h.2, List.getElem?_map, hi]
    rfl
  rw [strCol, hcol]

theorem value_map {f : A → List Char} {r : Nat} {a : A} (hr : rows[r]? = some a) :
    value (rows.map (text f).2) r = f a := by
  rw [value, List.getElem?_map, hr]
  rfl

theorem groupRows_eq {K V : Type} [DecidableEq K] {n : Nat} (hn : n = rows.length) {key : Nat → K}
    {row : Nat → V} {key' : A → K} {row' : A → V} (hkey : ∀ r a, rows[r]? = some a → key r = key' a)
    (hrow : ∀ r a, rows[r]? = some a → row r = row' a) :
    groupRows n key row = groupBy key' row' rows := by
  rw [groupRows, hn, groupBy]
  refine foldl_range (fun m r a hr => ?_) []
  rw [hkey r a hr, hrow r a hr]

end Reading

def TablesRow.row (t : TablesRow) : TableRow := { name := t.tableName, tableType := t.tableType }

def ColumnsRow.row (c : ColumnsRow) : ColumnRow :=
  { name := c.columnName, ordinal := asI32 c.ordinalPosition
    nullable := eqIgnoreAsciiCase c.isNullable "YES".toList, typeName := c.spannerType }

def ConstraintsRow.row (c : ConstraintsRow) : ConstraintRow :=
  { name := c.constraintName, constraintType := c.constraintType }

def KeyColumnUsageRow.row (k : KeyColumnUsageRow) : KeyColumnRow :=
  { column := k.columnName, tableSchema := k.tableSchema, table := k.tableName
    ordinal := k.ordinalPosition, position := k.positionInUniqueConstraint }

section Groups

variable {batch : RecordBatch} {rows : List KeyColumnUsageRow}

theorem groupTables_eq {rows : List TablesRow} (h : Holds tablesSelect batch rows) :
    groupTables batch = .ok (groupBy TablesRow.tableSchema TablesRow.row rows) := by
  simp only [groupTables, strCol_of_holds h (i := 0) rfl, strCol_of_holds h (i := 1) rfl,
    strCol_of_holds h (i := 2) rfl, bind, Except.bind]
  refine congrArg Except.ok (groupRows_eq h.1 (fun r a hr => value_map hr) fun r a hr => ?_)
  rw [TablesRow.row]
  congr 1 <;> exact value_map hr

theorem ordinalCol_of_holds {rows : List ColumnsRow} (h : Holds columnsSelect batch rows) :
    ordinalCol batch = .ok (rows.map fun c => some (.int c.ordinalPosition)) := by
  have hcol : batch.columns[(3 : Nat)]? =
      some (.scalars .int64 (rows.map fun c => some (.int c.ordinalPosition))) := by
    rw [h.2]
    rfl
  rw [ordinalCol, hcol]

theorem groupColumns_eq {rows : List ColumnsRow} (h : Holds columnsSelect batch rows) :
    groupColumns batch =
      .ok (groupBy (fun c => (c.tableSchema, c.tableName)) ColumnsRow.row rows) := by
  simp only [groupColumns, strCol_of_holds h (i := 0) rfl, strCol_of_holds h (i := 1) rfl,
    strCol_of_holds h (i := 2) rfl, strCol_of_holds h (i := 4) rfl, strCol_of_holds h (i := 5) rfl,
    ordinalCol_of_holds h, bind, Except.bind]
  refine congrArg Except.ok (groupRows_eq h.1 (fun r a hr => ?_) fun r a hr => ?_)
  · exact Prod.ext (value_map hr) (value_map hr)
  · have hord : intValue (rows.map fun c => some (.int c.ordinalPosition)) r = a.ordinalPosition := by
      rw [intValue, List.getElem?_map, hr]
      rfl
    rw [ColumnsRow.row, hord]
    congr 1
    · exact value_map hr
    · exact congrArg (eqIgnoreAsciiCase · _) (value_map hr)
    · exact value_map hr

theorem groupConstraints_eq {rows : List ConstraintsRow} (h : Holds constraintsSelect batch rows) :
    groupConstraints batch =
      .ok (groupBy (fun c => (c.tableSchema, c.tableName)) ConstraintsRow.row rows) := by
  simp only [groupConstraints, strCol_of_holds h (i := 0) rfl, strCol_of_holds h (i := 1) rfl,
    strCol_of_holds h (i := 2) rfl, strCol_of_holds h (i := 3) rfl, bind, Except.bind]
  refine congrArg Except.ok (groupRows_eq h.1 (fun r a hr => ?_) fun r a hr => ?_)
  · exact Prod.ext (value_map hr) (value_map hr)
  · rw [ConstraintsRow.row]
    congr 1 <;> exact value_map hr

/-- A column of texts that may be null. -/
theorem position_map {r : Nat} {k : KeyColumnUsageRow} (hr : rows[r]? = some k) :
    (if isNull (rows.map fun k => k.positionInUniqueConstraint.map .text) r then none
      else some (value (rows.map fun k => k.positionInUniqueConstraint.map .text) r)) =
      k.positionInUniqueConstraint := by
  rw [isNull, value, List.getElem?_map, hr, Option.map_some]
  cases k.positionInUniqueConstraint <;> rfl

theorem groupKeyColumns_eq (h : Holds keyColumnsSelect batch rows) :
    groupKeyColumns batch =
      .ok (groupBy (fun k => (k.constraintSchema, k.constraintName)) KeyColumnUsageRow.row rows) := by
  simp only [groupKeyColumns, strCol_of_holds h (i := 0) rfl, strCol_of_holds h (i := 1) rfl,
    strCol_of_holds h (i := 2) rfl, strCol_of_holds h (i := 3) rfl, strCol_of_holds h (i := 4) rfl,
    strCol_of_holds h (i := 5) rfl, strCol_of_holds h (i := 6) rfl, bind, Except.bind]
  refine congrArg Except.ok (groupRows_eq h.1 (fun r a hr => ?_) fun r a hr => ?_)
  · exact Prod.ext (value_map hr) (value_map hr)
  · rw [KeyColumnUsageRow.row]
    congr 1
    · exact value_map hr
    · exact value_map hr
    · exact value_map hr
    · exact value_map hr
    · exact position_map hr

theorem groupReferential_eq {rows : List ReferentialRow} (h : Holds referentialSelect batch rows) :
    groupReferential batch = .ok (firstBy (fun r => (r.constraintSchema, r.constraintName))
      (fun r => (r.uniqueConstraintSchema, r.uniqueConstraintName)) rows) := by
  simp only [groupReferential, strCol_of_holds h (i := 0) rfl, strCol_of_holds h (i := 1) rfl,
    strCol_of_holds h (i := 2) rfl, strCol_of_holds h (i := 3) rfl, bind, Except.bind]
  refine congrArg Except.ok ?_
  rw [h.1, firstBy]
  refine foldl_range (fun m r a hr => ?_) []
  congr 1
  · exact Prod.ext (value_map hr) (value_map hr)
  · exact Prod.ext (value_map hr) (value_map hr)

theorem groupOpt_eq {A T : Type} {select : List (DataType × (A → Option Scalar))}
    {batch : Option RecordBatch} {rows : List A} {group : RecordBatch → Except Error (List T)}
    {grouped : List A → List T} (h : HoldsOpt select batch rows) (hnil : grouped [] = [])
    (hgroup : ∀ {batch}, Holds select batch rows → group batch = .ok (grouped rows)) :
    groupOpt batch group = .ok (grouped rows) := by
  cases batch with
  | none =>
    rw [show rows = [] from h, hnil]
    rfl
  | some batch => exact hgroup h

end Groups

/-! ## The assembly -/

section Assembly

variable {rows : Catalog} {filters : ObjectFilters}

theorem rejects_eq (filter : Option (List Char)) (name : List Char) :
    rejects filter name = !decide (Accepts filter name) := by
  cases filter with
  | none => simp [rejects, Accepts]
  | some pattern =>
    rw [Bool.eq_iff_iff]
    simp [rejects, Accepts, ← likeMatch_iff]

theorem rowsAt_groupBy {A K V : Type} [DecidableEq K] (key : A → K) (row : A → V) (as : List A)
    (k : K) : rowsAt k (groupBy key row as) = (as.filter fun a => key a = k).map row :=
  lookup_groupBy key row as k

theorem collectColumns_eq (schema table : List Char) :
    collectColumns (groupBy (fun c => (c.tableSchema, c.tableName)) ColumnsRow.row rows.columns)
      schema table filters.columnName = rows.listedColumns filters schema table := by
  rw [collectColumns, rowsAt_groupBy, filterMap_skip, List.filter_map, List.map_map,
    List.filter_filter, Catalog.listedColumns]
  congr 1
  refine List.filter_congr fun c _ => ?_
  simp only [Function.comp, rejects_eq, ColumnsRow.row, Bool.not_not, Prod.mk.injEq,
    Bool.decide_and]
  rw [Bool.and_comm, Bool.and_assoc]

theorem keyColumns_eq (schema name : List Char) :
    rowsAt (schema, name) (groupBy (fun k => (k.constraintSchema, k.constraintName))
      KeyColumnUsageRow.row rows.keyColumns) =
      (rows.keyColumnsOf schema name).map KeyColumnUsageRow.row := by
  rw [rowsAt_groupBy, Catalog.keyColumnsOf]
  simp only [Prod.mk.injEq]

/-- The last key column with an ordinal, looked up or searched for. -/
theorem lookup_ordinals (keys : List KeyColumnUsageRow) (position : Int) :
    lookup position (collapse ((keys.map KeyColumnUsageRow.row).filterMap fun k =>
      (parseI64 k.ordinal).map fun ordinal => (ordinal, k))) =
      (keys.reverse.find? fun k => parseI64 k.ordinalPosition = some position).map
        KeyColumnUsageRow.row := by
  rw [lookup_collapse, ← List.filterMap_reverse, List.find?_filterMap, ← List.map_reverse,
    List.find?_map]
  have hfound : ((fun a : KeyColumnRow => ((parseI64 a.ordinal).map fun ordinal => (ordinal, a)).any
      fun s => s.1 = position) ∘ KeyColumnUsageRow.row) =
      fun k => decide (parseI64 k.ordinalPosition = some position) := by
    funext k
    simp only [Function.comp, KeyColumnUsageRow.row]
    cases parseI64 k.ordinalPosition <;> simp
  rw [hfound]
  cases hk : keys.reverse.find? fun k => parseI64 k.ordinalPosition = some position with
  | none => rfl
  | some k =>
    have hord : parseI64 k.ordinalPosition = some position := by simpa using List.find?_some hk
    simp [KeyColumnUsageRow.row, hord]

theorem foreignKeyUsages_eq (schema name : List Char) :
    foreignKeyUsages (groupBy (fun k => (k.constraintSchema, k.constraintName))
      KeyColumnUsageRow.row rows.keyColumns)
      (firstBy (fun r => (r.constraintSchema, r.constraintName))
        (fun r => (r.uniqueConstraintSchema, r.uniqueConstraintName)) rows.referential) schema name =
      rows.usagesOf schema name := by
  rw [foreignKeyUsages, lookup_firstBy, Catalog.usagesOf]
  simp only [Prod.mk.injEq]
  cases rows.referential.find? fun r => r.constraintSchema = schema ∧ r.constraintName = name with
  | none => rfl
  | some r =>
    simp only [Option.map_some, keyColumns_eq, lookup_ordinals]
    rw [List.filterMap_map]
    simp only [Option.map_map]
    rfl

theorem collectConstraints_eq (schema table : List Char) :
    collectConstraints (groupBy (fun c => (c.tableSchema, c.tableName)) ConstraintsRow.row
        rows.constraints)
      (groupBy (fun k => (k.constraintSchema, k.constraintName)) KeyColumnUsageRow.row
        rows.keyColumns)
      (firstBy (fun r => (r.constraintSchema, r.constraintName))
        (fun r => (r.uniqueConstraintSchema, r.uniqueConstraintName)) rows.referential) schema table =
      rows.listedConstraints schema table := by
  rw [collectConstraints, rowsAt_groupBy, Catalog.listedConstraints, List.map_map]
  simp only [Prod.mk.injEq, keyColumns_eq, foreignKeyUsages_eq]
  refine List.map_congr_left fun c _ => ?_
  simp only [Function.comp, ConstraintsRow.row, List.map_map]
  rfl

/-- The loop over the tables of a schema. -/
theorem tables_eq (schema : List Char) :
    ((rows.tables.filter fun t => t.tableSchema = schema).map TablesRow.row).filterMap (fun table =>
      if rejects filters.tableName table.name then none
      else if filters.tableType.any fun types => !types.contains table.tableType then none
      else some
        { name := table.name, tableType := table.tableType
          columns := rows.listedColumns filters schema table.name
          constraints := rows.listedConstraints schema table.name : Table }) =
      rows.listedTables filters schema := by
  have hskip : ∀ (a b : Bool) (t : Table),
      (if a then none else if b then none else some t) = if a || b then none else some t := by
    intro a b t
    cases a <;> rfl
  simp only [hskip]
  rw [filterMap_skip (fun table : TableRow => rejects filters.tableName table.name ||
      filters.tableType.any fun types => !types.contains table.tableType),
    List.filter_map, List.map_map, List.filter_filter, Catalog.listedTables]
  congr 1
  refine List.filter_congr fun t _ => ?_
  have htype : (filters.tableType.any fun types => !types.contains t.tableType) =
      !decide (AcceptsType filters.tableType t.tableType) := by
    rw [Bool.eq_not, ne_eq, Bool.eq_iff_iff, decide_eq_true_iff, ← any_not_contains]
    cases filters.tableType.any fun types => !types.contains t.tableType <;> simp
  simp only [Function.comp, TablesRow.row, rejects_eq, htype, Bool.not_or, Bool.not_not,
    Bool.decide_and]
  rw [Bool.and_comm]

/-- The grouped assembly is the listing. -/
theorem assembleObjects_eq {batches : ObjectBatches} (h : batches.Hold rows) :
    assembleObjects batches filters = .ok (rows.listing filters) := by
  have hschemata : strCol batches.schemata 0 = .ok (rows.schemata.map (text id).2) :=
    strCol_of_holds h.schemata rfl
  simp only [assembleObjects, hschemata, groupOpt_eq h.tables rfl groupTables_eq,
    groupOpt_eq h.columns rfl groupColumns_eq, groupOpt_eq h.constraints rfl groupConstraints_eq,
    groupOpt_eq h.keyColumns rfl groupKeyColumns_eq,
    groupOpt_eq h.referential rfl groupReferential_eq, bind, Except.bind, collectColumns_eq,
    collectConstraints_eq, rowsAt_groupBy, tables_eq]
  refine congrArg Except.ok ?_
  have hrow : ∀ r schema, rows.schemata[r]? = some schema →
      value (rows.schemata.map (text id).2) r = schema := fun r schema hr => value_map hr
  rw [h.schemata.1, filterMap_range (g := fun schema => if rejects filters.dbSchema schema then none
      else some { name := schema, tables := rows.listedTables filters schema })
      (fun r schema hr => by rw [hrow r schema hr]),
    filterMap_skip, Catalog.listing]
  congr 1
  refine List.filter_congr fun schema _ => ?_
  rw [rejects_eq, Bool.not_not]

end Assembly
end Objects
end SpannerAdbc
