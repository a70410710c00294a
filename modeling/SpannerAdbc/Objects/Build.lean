import SpannerAdbc.Metadata.Nested
import SpannerAdbc.Objects.Assemble

/-!
# SpannerAdbc.Objects.Build

`build`: the one-row batch of `get_objects`. Every level of the hierarchy is flattened into one struct
array, and list arrays cut it up again.

`cut` is what a batch of some depth is to show of a hierarchy, and `readObjects` reads a batch by its
offsets and field names. `settles_build` says that `build` fails exactly if a total does not fit an
`i32`, and that what it builds reads as the hierarchy, cut at the depth.
-/

namespace SpannerAdbc
namespace Objects

open Arrow Lib Metadata

/-! ## The result schema -/

def textField (name : String) (nullable : Bool) : Field := .new name.toList .utf8 nullable

def listField (name : String) (item : DataType) (nullable : Bool) : Field :=
  .new name.toList (.list (.new "item".toList item true)) nullable

def usageFields : List Field :=
  [textField "fk_catalog" true, textField "fk_db_schema" true, textField "fk_table" false,
   textField "fk_column_name" false]

def constraintFields : List Field :=
  [textField "constraint_name" true, textField "constraint_type" false,
   listField "constraint_column_names" .utf8 false,
   listField "constraint_column_usage" (.struct (.ofList usageFields)) true]

def columnFields : List Field :=
  [textField "column_name" false, .new "ordinal_position".toList .int32 true,
   textField "remarks" true, .new "xdbc_data_type".toList .int16 true,
   textField "xdbc_type_name" true, .new "xdbc_column_size".toList .int32 true,
   .new "xdbc_decimal_digits".toList .int16 true, .new "xdbc_num_prec_radix".toList .int16 true,
   .new "xdbc_nullable".toList .int16 true, textField "xdbc_column_def" true,
   .new "xdbc_sql_data_type".toList .int16 true, .new "xdbc_datetime_sub".toList .int16 true,
   .new "xdbc_char_octet_length".toList .int32 true, textField "xdbc_is_nullable" true,
   textField "xdbc_scope_catalog" true, textField "xdbc_scope_schema" true,
   textField "xdbc_scope_table" true, .new "xdbc_is_autoincrement".toList .boolean true,
   .new "xdbc_is_generatedcolumn".toList .boolean true]

def tableFields : List Field :=
  [textField "table_name" false, textField "table_type" false,
   listField "table_columns" (.struct (.ofList columnFields)) true,
   listField "table_constraints" (.struct (.ofList constraintFields)) true]

def dbSchemaFields : List Field :=
  [textField "db_schema_name" true,
   listField "db_schema_tables" (.struct (.ofList tableFields)) true]

/-- `GET_OBJECTS_SCHEMA` of the ADBC specification. -/
def getObjectsSchema : Schema :=
  [textField "catalog_name" true,
   listField "catalog_db_schemas" (.struct (.ofList dbSchemaFields)) true]

/-! ## The code -/

inductive ObjectDepth where
  | all
  | catalogs
  | schemas
  | tables
  | columns
  deriving DecidableEq, Repr

def ObjectDepth.populateSchemas (depth : ObjectDepth) : Bool := depth ≠ .catalogs

def ObjectDepth.populateTables (depth : ObjectDepth) : Bool :=
  depth = .all ∨ depth = .tables ∨ depth = .columns

def ObjectDepth.populateColumns (depth : ObjectDepth) : Bool := depth = .all ∨ depth = .columns

section Build

variable (message : ArrowError → List Char) (catalog : List Char)

def buildUsageStruct (fields : Fields) (usages : List Usage) : Except Error ArrayRef :=
  structOf message fields (byName fields
    [("fk_catalog".toList, strings (usages.map fun _ => catalog)),
     ("fk_db_schema".toList, strings (usages.map (·.dbSchema))),
     ("fk_table".toList, strings (usages.map (·.table))),
     ("fk_column_name".toList, strings (usages.map (·.column)))] usages.length)

def buildConstraintStruct (fields : Fields) (constraints : List Constraint) :
    Except Error ArrayRef := do
  let namesField ← field fields.toList "constraint_column_names".toList
  let nameItem ← listItem namesField
  let columnChild := stringsOpt ((constraints.flatMap (·.columns)).map some)
  let names ← listOf message nameItem (constraints.map (·.columns.length)) columnChild
  let usageField ← field fields.toList "constraint_column_usage".toList
  let usageItem ← listItem usageField
  let usageStructFields ← structFields usageItem
  let usageStruct ← buildUsageStruct message catalog usageStructFields
    (constraints.flatMap (·.usages))
  let usage ← listOfNullable message usageItem (constraints.map (·.usages.length)) usageStruct
    (some (constraints.map fun c => decide (c.constraintType = foreignKey)))
  structOf message fields (byName fields
    [("constraint_name".toList, stringsOpt (constraints.map (·.name))),
     ("constraint_type".toList, strings (constraints.map (·.constraintType))),
     ("constraint_column_names".toList, names),
     ("constraint_column_usage".toList, usage)] constraints.length)

def yesNo (b : Bool) : List Char := if b then "YES".toList else "NO".toList

def buildColumnStruct (fields : Fields) (columns : List Column) : Except Error ArrayRef :=
  structOf message fields (byName fields
    [("column_name".toList, strings (columns.map (·.name))),
     ("ordinal_position".toList, int32s (columns.map (·.ordinal))),
     ("xdbc_type_name".toList, strings (columns.map (·.typeName))),
     ("xdbc_is_nullable".toList, strings (columns.map fun c => yesNo c.nullable))] columns.length)

def buildTableColumns (depth : ObjectDepth) (fields : Fields) (tables : List Table) :
    Except Error ArrayRef := do
  let colsField ← field fields.toList "table_columns".toList
  if depth.populateColumns then do
    let colItem ← listItem colsField
    let columnStructFields ← structFields colItem
    let columnStruct ← buildColumnStruct message columnStructFields (tables.flatMap (·.columns))
    listOf message colItem (tables.map (·.columns.length)) columnStruct
  else .ok (newNullRef colsField.dataType tables.length)

def buildTableConstraints (depth : ObjectDepth) (fields : Fields) (tables : List Table) :
    Except Error ArrayRef := do
  let consField ← field fields.toList "table_constraints".toList
  if depth.populateColumns then do
    let consItem ← listItem consField
    let constraintStructFields ← structFields consItem
    let constraintStruct ← buildConstraintStruct message catalog constraintStructFields
      (tables.flatMap (·.constraints))
    listOf message consItem (tables.map (·.constraints.length)) constraintStruct
  else .ok (newNullRef consField.dataType tables.length)

def buildTables (depth : ObjectDepth) (fields : Fields) (schemas : List DbSchema) :
    Except Error ArrayRef := do
  let tablesField ← field fields.toList "db_schema_tables".toList
  if depth.populateTables then do
    let tables := schemas.flatMap (·.tables)
    let tableItem ← listItem tablesField
    let tableStructFields ← structFields tableItem
    let tableName := strings (tables.map (·.name))
    let tableType := strings (tables.map (·.tableType))
    let tableColumns ← buildTableColumns message depth tableStructFields tables
    let tableConstraints ← buildTableConstraints message catalog depth tableStructFields tables
    let tableStruct ← structOf message tableStructFields
      [tableName, tableType, tableColumns, tableConstraints]
    listOf message tableItem (schemas.map (·.tables.length)) tableStruct
  else .ok (newNullRef tablesField.dataType schemas.length)

def buildDbSchemas (depth : ObjectDepth) (schemas : List DbSchema) : Except Error ArrayRef := do
  let dbSchemasField ← field getObjectsSchema "catalog_db_schemas".toList
  let dbSchemaItem ← listItem dbSchemasField
  let dbSchemaStructFields ← structFields dbSchemaItem
  if depth.populateSchemas then do
    let schemaNames := strings (schemas.map (·.name))
    let dbSchemaTables ← buildTables message catalog depth dbSchemaStructFields schemas
    let dbSchemaStruct ← structOf message dbSchemaStructFields [schemaNames, dbSchemaTables]
    listOf message dbSchemaItem [schemas.length] dbSchemaStruct
  else .ok (newNullRef dbSchemasField.dataType 1)

def build (depth : ObjectDepth) (schemas : List DbSchema) : Except Error RecordBatch := do
  let catalogDbSchemas ← buildDbSchemas message catalog depth schemas
  recordBatch message getObjectsSchema [strings [catalog], catalogDbSchemas]

end Build

/-! ## What a batch shows -/

/-- How many levels of lists are shown. -/
def ObjectDepth.levels : ObjectDepth → Nat
  | .catalogs => 0
  | .schemas => 1
  | .tables => 2
  | .columns | .all => 3

variable {depth : ObjectDepth}

theorem populateSchemas_iff :
    depth.populateSchemas = true ↔ 1 ≤ depth.levels := by
  cases depth <;> decide

theorem populateTables_iff :
    depth.populateTables = true ↔ 2 ≤ depth.levels := by
  cases depth <;> decide

theorem populateColumns_iff :
    depth.populateColumns = true ↔ 3 ≤ depth.levels := by
  cases depth <;> decide

structure CutConstraint where
  name : Option (List Char)
  constraintType : List Char
  columns : List (List Char)
  usages : Option (List (List Char × Usage))
  deriving DecidableEq, Repr

structure CutTable where
  name : List Char
  tableType : List Char
  columns : Option (List Column)
  constraints : Option (List CutConstraint)
  deriving DecidableEq, Repr

structure CutSchema where
  name : List Char
  tables : Option (List CutTable)
  deriving DecidableEq, Repr

section Cut

variable (depth : ObjectDepth) (catalog : List Char)

/-- Only foreign keys show the columns that they refer to. -/
def Constraint.cut (c : Constraint) : CutConstraint where
  name := c.name
  constraintType := c.constraintType
  columns := c.columns
  usages := if c.constraintType = foreignKey then some (c.usages.map fun u => (catalog, u)) else none

def Table.cut (t : Table) : CutTable where
  name := t.name
  tableType := t.tableType
  columns := if 3 ≤ depth.levels then some t.columns else none
  constraints := if 3 ≤ depth.levels then some (t.constraints.map (·.cut catalog)) else none

def DbSchema.cut (s : DbSchema) : CutSchema where
  name := s.name
  tables := if 2 ≤ depth.levels then some (s.tables.map (·.cut depth catalog)) else none

def cut (schemas : List DbSchema) : Option (List CutSchema) :=
  if 1 ≤ depth.levels then some (schemas.map (·.cut depth catalog)) else none

end Cut

/-- The totals that the lists of a batch of some depth count. -/
structure Fits (depth : ObjectDepth) (schemas : List DbSchema) : Prop where
  dbSchemas : 1 ≤ depth.levels → schemas.length < 2 ^ 31
  tables : 2 ≤ depth.levels → (schemas.flatMap (·.tables)).length < 2 ^ 31
  columns : 3 ≤ depth.levels → ((schemas.flatMap (·.tables)).flatMap (·.columns)).length < 2 ^ 31
  constraints : 3 ≤ depth.levels →
    ((schemas.flatMap (·.tables)).flatMap (·.constraints)).length < 2 ^ 31
  keyColumns : 3 ≤ depth.levels →
    (((schemas.flatMap (·.tables)).flatMap (·.constraints)).flatMap (·.columns)).length < 2 ^ 31
  usages : 3 ≤ depth.levels →
    (((schemas.flatMap (·.tables)).flatMap (·.constraints)).flatMap (·.usages)).length < 2 ^ 31

/-- Ordinals are of type `i32`. -/
def InRange (schemas : List DbSchema) : Prop :=
  ∀ s ∈ schemas, ∀ t ∈ s.tables, ∀ c ∈ t.columns, fitsSigned 32 c.ordinal = true

/-! ## Reading a batch -/

def readUsage (d : Datum) : Option (List Char × Usage) := do
  let catalog ← readText (fieldOf usageFields "fk_catalog".toList d)
  let dbSchema ← readText (fieldOf usageFields "fk_db_schema".toList d)
  let table ← readText (fieldOf usageFields "fk_table".toList d)
  let column ← readText (fieldOf usageFields "fk_column_name".toList d)
  return (catalog, { dbSchema, table, column })

def readConstraint (d : Datum) : Option CutConstraint := do
  let name ← readTextOpt (fieldOf constraintFields "constraint_name".toList d)
  let constraintType ← readText (fieldOf constraintFields "constraint_type".toList d)
  let columns ← readList readText (fieldOf constraintFields "constraint_column_names".toList d)
  let usages ← readListOpt readUsage (fieldOf constraintFields "constraint_column_usage".toList d)
  return { name, constraintType, columns, usages }

def readYesNo (d : Datum) : Option Bool := do
  let t ← readText d
  if t = "YES".toList then some true else if t = "NO".toList then some false else none

def readColumn (d : Datum) : Option Column := do
  let name ← readText (fieldOf columnFields "column_name".toList d)
  let ordinal ← readInt (fieldOf columnFields "ordinal_position".toList d)
  let nullable ← readYesNo (fieldOf columnFields "xdbc_is_nullable".toList d)
  let typeName ← readText (fieldOf columnFields "xdbc_type_name".toList d)
  return { name, ordinal, nullable, typeName }

def readTable (d : Datum) : Option CutTable := do
  let name ← readText (fieldOf tableFields "table_name".toList d)
  let tableType ← readText (fieldOf tableFields "table_type".toList d)
  let columns ← readListOpt readColumn (fieldOf tableFields "table_columns".toList d)
  let constraints ← readListOpt readConstraint (fieldOf tableFields "table_constraints".toList d)
  return { name, tableType, columns, constraints }

def readDbSchema (d : Datum) : Option CutSchema := do
  let name ← readText (fieldOf dbSchemaFields "db_schema_name".toList d)
  let tables ← readListOpt readTable (fieldOf dbSchemaFields "db_schema_tables".toList d)
  return { name, tables }

def readCatalog (d : Datum) : Option (List Char × Option (List CutSchema)) := do
  let name ← readText (fieldOf getObjectsSchema "catalog_name".toList d)
  let schemas ← readListOpt readDbSchema (fieldOf getObjectsSchema "catalog_db_schemas".toList d)
  return (name, schemas)

def readObjects (batch : RecordBatch) : Option (List (List Char × Option (List CutSchema))) :=
  batch.rows.mapM readCatalog

/-! ## The records of each level -/

section Cells

variable (depth : ObjectDepth) (catalog : List Char)

def usageCells : List (Field × (Usage → Datum)) :=
  [(textField "fk_catalog" true, fun _ => .scalar (.text catalog)),
   (textField "fk_db_schema" true, fun u => .scalar (.text u.dbSchema)),
   (textField "fk_table" false, fun u => .scalar (.text u.table)),
   (textField "fk_column_name" false, fun u => .scalar (.text u.column))]

def constraintCells : List (Field × (Constraint → Datum)) :=
  [(textField "constraint_name" true, fun c => Datum.ofSlot (c.name.map .text)),
   (textField "constraint_type" false, fun c => .scalar (.text c.constraintType)),
   (listField "constraint_column_names" .utf8 false, fun c =>
      .list (c.columns.map fun n => .scalar (.text n))),
   (listField "constraint_column_usage" (.struct (.ofList usageFields)) true, fun c =>
      if decide (c.constraintType = foreignKey) then
        .list (c.usages.map (record usageFields (usageCells catalog))) else .null)]

def columnCells : List (Field × (Column → Datum)) :=
  [(textField "column_name" false, fun c => .scalar (.text c.name)),
   (.new "ordinal_position".toList .int32 true, fun c => .scalar (.int (wrap 32 c.ordinal))),
   (textField "xdbc_type_name" true, fun c => .scalar (.text c.typeName)),
   (textField "xdbc_is_nullable" true, fun c => .scalar (.text (yesNo c.nullable)))]

def tableCells : List (Field × (Table → Datum)) :=
  [(textField "table_name" false, fun t => .scalar (.text t.name)),
   (textField "table_type" false, fun t => .scalar (.text t.tableType)),
   (listField "table_columns" (.struct (.ofList columnFields)) true, fun t =>
      if depth.populateColumns then .list (t.columns.map (record columnFields columnCells))
      else .null),
   (listField "table_constraints" (.struct (.ofList constraintFields)) true, fun t =>
      if depth.populateColumns then
        .list (t.constraints.map (record constraintFields (constraintCells catalog))) else .null)]

def dbSchemaCells : List (Field × (DbSchema → Datum)) :=
  [(textField "db_schema_name" true, fun s => .scalar (.text s.name)),
   (listField "db_schema_tables" (.struct (.ofList tableFields)) true, fun s =>
      if depth.populateTables then .list (s.tables.map (record tableFields (tableCells depth catalog)))
      else .null)]

def catalogCells (schemas : List DbSchema) : List (Field × (Unit → Datum)) :=
  [(textField "catalog_name" true, fun _ => .scalar (.text catalog)),
   (listField "catalog_db_schemas" (.struct (.ofList dbSchemaFields)) true, fun _ =>
      if depth.populateSchemas then
        .list (schemas.map (record dbSchemaFields (dbSchemaCells depth catalog))) else .null)]

theorem layout_usageCells : Layout usageFields (usageCells catalog) where
  names := by decide
  mem := by simp [usageFields, usageCells]
  required := by simp [usageFields, usageCells, textField]
  nulls := by simp [usageCells]

theorem layout_constraintCells : Layout constraintFields (constraintCells catalog) where
  names := by decide
  mem := by simp [constraintFields, constraintCells]
  required := by simp [constraintFields, constraintCells]
  nulls := by simp [constraintCells, textField, listField, Field.isNullable, Field.new]

theorem layout_columnCells : Layout columnFields columnCells where
  names := by decide +kernel
  mem := by simp [columnFields, columnCells]
  required := by decide +kernel
  nulls := by simp [columnCells, textField, Field.isNullable, Field.new]

theorem layout_tableCells : Layout tableFields (tableCells depth catalog) where
  names := by decide
  mem := by simp [tableFields, tableCells]
  required := by simp [tableFields, tableCells]
  nulls := by simp [tableCells, textField, listField, Field.isNullable, Field.new]

theorem layout_dbSchemaCells : Layout dbSchemaFields (dbSchemaCells depth catalog) where
  names := by decide
  mem := by simp [dbSchemaFields, dbSchemaCells]
  required := by simp [dbSchemaFields, dbSchemaCells]
  nulls := by simp [dbSchemaCells, textField, listField, Field.isNullable, Field.new]

theorem layout_catalogCells (schemas : List DbSchema) :
    Layout getObjectsSchema (catalogCells depth catalog schemas) where
  names := by decide
  mem := by simp [getObjectsSchema, catalogCells]
  required := by simp [getObjectsSchema, catalogCells]
  nulls := by simp [catalogCells, textField, listField, Field.isNullable, Field.new]

end Cells

/-! ## The builders -/

section Settles

variable (message : ArrowError → List Char) (catalog : List Char)

theorem settles_buildUsageStruct (usages : List Usage) :
    Settles (buildUsageStruct message catalog (.ofList usageFields) usages) True fun a =>
      Encodes a.1 (.struct (.ofList usageFields))
        (usages.map (record usageFields (usageCells catalog))) :=
  settles_byName message (layout_usageCells catalog) (List.cons_ne_nil _ _)
    (.cons ⟨rfl, encodes_strings _ _⟩ (.cons ⟨rfl, encodes_strings _ _⟩ (.cons ⟨rfl, encodes_strings _ _⟩
      (.cons ⟨rfl, encodes_strings _ _⟩ .nil))))

theorem settles_buildColumnStruct (columns : List Column) :
    Settles (buildColumnStruct message (.ofList columnFields) columns) True fun a =>
      Encodes a.1 (.struct (.ofList columnFields)) (columns.map (record columnFields columnCells)) := by
  have hordinals : Encodes (int32s (columns.map (·.ordinal))).1 .int32
      (columns.map fun c => .scalar (.int (wrap 32 c.ordinal))) :=
    encodes_ints _ _ (by decide) rfl fun _ h => by exact h
  exact settles_byName message layout_columnCells (List.cons_ne_nil _ _)
    (.cons ⟨rfl, encodes_strings _ _⟩ (.cons ⟨rfl, hordinals⟩ (.cons ⟨rfl, encodes_strings _ _⟩
      (.cons ⟨rfl, encodes_strings _ _⟩ .nil))))

theorem settles_buildConstraintStruct (constraints : List Constraint) :
    Settles (buildConstraintStruct message catalog (.ofList constraintFields) constraints)
      ((constraints.flatMap (·.columns)).length < 2 ^ 31 ∧
        (constraints.flatMap (·.usages)).length < 2 ^ 31) fun a =>
      Encodes a.1 (.struct (.ofList constraintFields))
        (constraints.map (record constraintFields (constraintCells catalog))) := by
  have hcolumns : Encodes (stringsOpt ((constraints.flatMap (·.columns)).map some)).1 .utf8
      ((constraints.flatMap (·.columns)).map fun n => .scalar (.text n)) := encodes_stringsOpt _ some
  refine .ok_bind rfl (.ok_bind rfl ?_)
  refine (settles_grouped message _ _ rfl hcolumns).bind fun names hnames => ?_
  refine .ok_bind rfl (.ok_bind rfl (.ok_bind rfl ?_))
  refine (((settles_buildUsageStruct message catalog _).bind fun usageStruct husages =>
    (settles_groupedNullable message _ _ _ rfl husages).bind fun usage husage => ?_)).congr (p := True ∧ _ ∧ True)
      (by simp)
  exact settles_byName message (layout_constraintCells catalog) (List.cons_ne_nil _ _)
    (.cons ⟨rfl, encodes_stringsOpt _ _⟩ (.cons ⟨rfl, encodes_strings _ _⟩ (.cons ⟨rfl, hnames⟩
      (.cons ⟨rfl, husage⟩ .nil))))

variable (depth : ObjectDepth)

theorem settles_buildTableColumns (tables : List Table) :
    Settles (buildTableColumns message depth (.ofList tableFields) tables)
      (depth.populateColumns = true → (tables.flatMap (·.columns)).length < 2 ^ 31) fun a =>
      Encodes a.1 (.list (.new "item".toList (.struct (.ofList columnFields)) true))
        (tables.map fun t => if depth.populateColumns then
          .list (t.columns.map (record columnFields columnCells)) else .null) := by
  refine .ok_bind rfl (.ite (fun hdepth => ?_) fun hdepth => ?_)
  · refine .ok_bind rfl (.ok_bind rfl ?_)
    refine ((settles_buildColumnStruct message _).bind fun columnStruct hcolumns => ?_).congr (p := True ∧ _)
      (true_and _).to_iff
    simp only [hdepth, if_true]
    exact settles_grouped message _ _ rfl hcolumns
  · refine .of_ok rfl ?_
    simp only [hdepth, Bool.false_eq_true, if_false]
    exact encodes_newNullRef _ _

theorem settles_buildTableConstraints (tables : List Table) :
    Settles (buildTableConstraints message catalog depth (.ofList tableFields) tables)
      (depth.populateColumns = true →
        (((tables.flatMap (·.constraints)).flatMap (·.columns)).length < 2 ^ 31 ∧
          ((tables.flatMap (·.constraints)).flatMap (·.usages)).length < 2 ^ 31) ∧
        (tables.flatMap (·.constraints)).length < 2 ^ 31) fun a =>
      Encodes a.1 (.list (.new "item".toList (.struct (.ofList constraintFields)) true))
        (tables.map fun t => if depth.populateColumns then
          .list (t.constraints.map (record constraintFields (constraintCells catalog))) else .null) := by
  refine .ok_bind rfl (.ite (fun hdepth => ?_) fun hdepth => ?_)
  · refine .ok_bind rfl (.ok_bind rfl ?_)
    refine (settles_buildConstraintStruct message catalog _).bind fun constraintStruct hconstraints => ?_
    simp only [hdepth, if_true]
    exact settles_grouped message _ _ rfl hconstraints
  · refine .of_ok rfl ?_
    simp only [hdepth, Bool.false_eq_true, if_false]
    exact encodes_newNullRef _ _

/-- The totals at and below the tables, in the order in which they are counted. -/
def TablesFit (tables : List Table) : Prop :=
  (depth.populateColumns = true → (tables.flatMap (·.columns)).length < 2 ^ 31) ∧
  (depth.populateColumns = true →
    (((tables.flatMap (·.constraints)).flatMap (·.columns)).length < 2 ^ 31 ∧
      ((tables.flatMap (·.constraints)).flatMap (·.usages)).length < 2 ^ 31) ∧
    (tables.flatMap (·.constraints)).length < 2 ^ 31) ∧
  tables.length < 2 ^ 31

theorem settles_buildTables (schemas : List DbSchema) :
    Settles (buildTables message catalog depth (.ofList dbSchemaFields) schemas)
      (depth.populateTables = true → TablesFit depth (schemas.flatMap (·.tables))) fun a =>
      Encodes a.1 (.list (.new "item".toList (.struct (.ofList tableFields)) true))
        (schemas.map fun s => if depth.populateTables then
          .list (s.tables.map (record tableFields (tableCells depth catalog))) else .null) := by
  refine .ok_bind rfl (.ite (fun hdepth => ?_) fun hdepth => ?_)
  · refine .ok_bind rfl (.ok_bind rfl ?_)
    refine (settles_buildTableColumns message depth _).bind fun columns hcolumns => ?_
    refine (settles_buildTableConstraints message catalog depth _).bind fun constraints hconstraints => ?_
    refine ((settles_inOrder message (layout_tableCells depth catalog) rfl (List.cons_ne_nil _ _)
      (.cons (encodes_strings _ _) (.cons (encodes_strings _ _) (.cons hcolumns
        (.cons hconstraints .nil))))).bind fun tableStruct htables => ?_).congr (p := True ∧ _)
      (true_and _).to_iff
    simp only [hdepth, if_true]
    exact settles_grouped message _ _ rfl htables
  · refine .of_ok rfl ?_
    simp only [hdepth, Bool.false_eq_true, if_false]
    exact encodes_newNullRef _ _

theorem settles_buildDbSchemas (schemas : List DbSchema) :
    Settles (buildDbSchemas message catalog depth schemas)
      (depth.populateSchemas = true →
        (depth.populateTables = true → TablesFit depth (schemas.flatMap (·.tables))) ∧
        schemas.length < 2 ^ 31) fun a =>
      Encodes a.1 (.list (.new "item".toList (.struct (.ofList dbSchemaFields)) true))
        ([()].map fun _ => if depth.populateSchemas then
          .list (schemas.map (record dbSchemaFields (dbSchemaCells depth catalog))) else .null) := by
  refine .ok_bind rfl (.ok_bind rfl (.ok_bind rfl (.ite (fun hdepth => ?_) fun hdepth => ?_)))
  · refine (settles_buildTables message catalog depth _).bind fun tables htables => ?_
    refine ((settles_inOrder message (layout_dbSchemaCells depth catalog) rfl (List.cons_ne_nil _ _)
      (.cons (encodes_strings _ _) (.cons htables .nil))).bind fun schemaStruct hschemas => ?_).congr
      (p := True ∧ _) (true_and _).to_iff
    simp only [hdepth, if_true]
    have hflat : [()].flatMap (fun _ => schemas) = schemas := by simp
    rw [← hflat] at hschemas
    have h := settles_grouped message [()] (fun _ => schemas)
      (show (Field.new "item".toList (.struct (.ofList dbSchemaFields)) true).isNullable = true from rfl)
      hschemas
    rw [hflat] at h
    exact h
  · refine .of_ok rfl ?_
    simp only [hdepth, Bool.false_eq_true, if_false]
    exact encodes_newNullRef [()] _

theorem fits_iff {schemas : List DbSchema} : (depth.populateSchemas = true →
      (depth.populateTables = true → TablesFit depth (schemas.flatMap (·.tables))) ∧
      schemas.length < 2 ^ 31) ↔ Fits depth schemas := by
  rw [populateSchemas_iff, populateTables_iff]
  unfold TablesFit
  rw [populateColumns_iff]
  constructor
  · intro h
    exact ⟨fun hd => (h hd).2, fun hd => ((h (by omega)).1 hd).2.2,
      fun hd => ((h (by omega)).1 (by omega)).1 hd,
      fun hd => (((h (by omega)).1 (by omega)).2.1 hd).2,
      fun hd => (((h (by omega)).1 (by omega)).2.1 hd).1.1,
      fun hd => (((h (by omega)).1 (by omega)).2.1 hd).1.2⟩
  · intro h hd
    exact ⟨fun hd => ⟨h.columns, fun hd => ⟨⟨h.keyColumns hd, h.usages hd⟩, h.constraints hd⟩,
      h.tables hd⟩, h.dbSchemas hd⟩

theorem settles_build (schemas : List DbSchema) :
    Settles (build message catalog depth schemas) (Fits depth schemas) fun batch =>
      batch.schema = getObjectsSchema ∧
        batch.rows = [()].map (record getObjectsSchema (catalogCells depth catalog schemas)) := by
  refine ((settles_buildDbSchemas message catalog depth schemas).bind
    fun catalogDbSchemas hschemas => ?_).congr ((and_true _).to_iff.trans (fits_iff depth))
  exact settles_recordBatch message (layout_catalogCells depth catalog schemas) rfl (List.cons_ne_nil _ _)
    (.cons (encodes_strings [()] fun _ => catalog) (.cons hschemas .nil))

end Settles

/-! ## Reading the records -/

theorem readUsage_record (catalog : List Char) (u : Usage) :
    readUsage (record usageFields (usageCells catalog) u) = some (catalog, u) := rfl

theorem readConstraint_record (catalog : List Char) (c : Constraint) :
    readConstraint (record constraintFields (constraintCells catalog) c) = some (c.cut catalog) := by
  have hname := readTextOpt_ofSlot c.name
  have hcolumns : readList readText (.list (c.columns.map fun n => .scalar (.text n))) =
      some c.columns := by
    have h := mapM_map_eq_some (f := readText) (g := fun n => Datum.scalar (.text n)) (h := id)
      fun n (_ : n ∈ c.columns) => rfl
    rw [List.map_id] at h
    exact h
  have husages := readListOpt_ite (decide (c.constraintType = foreignKey))
    fun u (_ : u ∈ c.usages) => readUsage_record catalog u
  calc readConstraint (record constraintFields (constraintCells catalog) c)
    _ = (do
        let name ← readTextOpt (Datum.ofSlot (c.name.map .text))
        let columns ← readList readText (.list (c.columns.map fun n => .scalar (.text n)))
        let usages ← readListOpt readUsage (if decide (c.constraintType = foreignKey) then
          .list (c.usages.map (record usageFields (usageCells catalog))) else .null)
        return { name, constraintType := c.constraintType, columns, usages }) := rfl
    _ = some (c.cut catalog) := by
      rw [hname, hcolumns, husages]
      simp only [decide_eq_true_eq]
      rfl

theorem readColumn_record {c : Column} (h : fitsSigned 32 c.ordinal = true) :
    readColumn (record columnFields columnCells c) = some c := by
  have hordinal := wrap_eq (by decide) h
  calc readColumn (record columnFields columnCells c)
    _ = (do
        let nullable ← readYesNo (.scalar (.text (yesNo c.nullable)))
        return { name := c.name, ordinal := wrap 32 c.ordinal, nullable, typeName := c.typeName }) :=
      rfl
    _ = some c := by
      rw [hordinal]
      obtain ⟨name, ordinal, nullable, typeName⟩ := c
      cases nullable <;> rfl

section Read

variable (depth : ObjectDepth) (catalog : List Char) {schemas : List DbSchema}

theorem readTable_record {t : Table} (h : ∀ c ∈ t.columns, fitsSigned 32 c.ordinal = true) :
    readTable (record tableFields (tableCells depth catalog) t) = some (t.cut depth catalog) := by
  have hcolumns := readListOpt_ite depth.populateColumns fun c hc => readColumn_record (h c hc)
  have hconstraints := readListOpt_ite depth.populateColumns fun c (_ : c ∈ t.constraints) =>
    readConstraint_record catalog c
  rw [List.map_id'] at hcolumns
  calc readTable (record tableFields (tableCells depth catalog) t)
    _ = (do
        let columns ← readListOpt readColumn (if depth.populateColumns then
          .list (t.columns.map (record columnFields columnCells)) else .null)
        let constraints ← readListOpt readConstraint (if depth.populateColumns then
          .list (t.constraints.map (record constraintFields (constraintCells catalog))) else .null)
        return { name := t.name, tableType := t.tableType, columns, constraints }) := rfl
    _ = some (t.cut depth catalog) := by
      rw [hcolumns, hconstraints]
      simp only [populateColumns_iff]
      rfl

theorem readDbSchema_record {s : DbSchema}
    (h : ∀ t ∈ s.tables, ∀ c ∈ t.columns, fitsSigned 32 c.ordinal = true) :
    readDbSchema (record dbSchemaFields (dbSchemaCells depth catalog) s) =
      some (s.cut depth catalog) := by
  have htables := readListOpt_ite depth.populateTables fun t ht =>
    readTable_record depth catalog (h t ht)
  calc readDbSchema (record dbSchemaFields (dbSchemaCells depth catalog) s)
    _ = (do
        let tables ← readListOpt readTable (if depth.populateTables then
          .list (s.tables.map (record tableFields (tableCells depth catalog))) else .null)
        return { name := s.name, tables }) := rfl
    _ = some (s.cut depth catalog) := by
      rw [htables]
      simp only [populateTables_iff]
      rfl

theorem readCatalog_record (h : InRange schemas) :
    readCatalog (record getObjectsSchema (catalogCells depth catalog schemas) ()) =
      some (catalog, cut depth catalog schemas) := by
  have hschemas := readListOpt_ite depth.populateSchemas fun s hs =>
    readDbSchema_record depth catalog (h s hs)
  calc readCatalog (record getObjectsSchema (catalogCells depth catalog schemas) ())
    _ = (do
        let schemas ← readListOpt readDbSchema (if depth.populateSchemas then
          .list (schemas.map (record dbSchemaFields (dbSchemaCells depth catalog))) else .null)
        return (catalog, schemas)) := rfl
    _ = some (catalog, cut depth catalog schemas) := by
      rw [hschemas]
      simp only [populateSchemas_iff]
      rfl

theorem readObjects_of_rows {batch : RecordBatch} (h : InRange schemas)
    (hrows : batch.rows = [()].map (record getObjectsSchema (catalogCells depth catalog schemas))) :
    readObjects batch = some [(catalog, cut depth catalog schemas)] := by
  rw [readObjects, hrows, List.map_singleton, List.mapM_cons, readCatalog_record depth catalog h]
  rfl

end Read

/-! ## Nothing is lost -/

/-- Only foreign keys have referenced columns. -/
def OnlyForeignKeysRefer (schemas : List DbSchema) : Prop :=
  ∀ s ∈ schemas, ∀ t ∈ s.tables, ∀ c ∈ t.constraints, c.constraintType ≠ foreignKey → c.usages = []

/-- A null list is read as an empty one. -/
def CutConstraint.restore (c : CutConstraint) : Constraint where
  name := c.name
  constraintType := c.constraintType
  columns := c.columns
  usages := (c.usages.getD []).map Prod.snd

def CutTable.restore (t : CutTable) : Table where
  name := t.name
  tableType := t.tableType
  columns := t.columns.getD []
  constraints := (t.constraints.getD []).map CutConstraint.restore

def CutSchema.restore (s : CutSchema) : DbSchema where
  name := s.name
  tables := (s.tables.getD []).map CutTable.restore

section Restore

variable {depth : ObjectDepth} {catalog : List Char}

theorem map_restore_cut {A B : Type} {f : A → B} {g : B → A} {as : List A}
    (h : ∀ a ∈ as, g (f a) = a) : (as.map f).map g = as := by
  rw [List.map_map]
  exact (List.map_congr_left h).trans (List.map_id _)

theorem Constraint.restore_cut {c : Constraint}
    (h : c.constraintType ≠ foreignKey → c.usages = []) : (c.cut catalog).restore = c := by
  have husages : ((c.cut catalog).usages.getD []).map Prod.snd = c.usages := by
    by_cases hfk : c.constraintType = foreignKey
    · rw [Constraint.cut, if_pos hfk]
      exact map_restore_cut fun _ _ => rfl
    · rw [Constraint.cut, if_neg hfk, h hfk]
      rfl
  exact congrArg (Constraint.mk c.name c.constraintType c.columns) husages

theorem Table.restore_cut {t : Table} (hdepth : 3 ≤ depth.levels)
    (h : ∀ c ∈ t.constraints, c.constraintType ≠ foreignKey → c.usages = []) :
    (t.cut depth catalog).restore = t := by
  have hcolumns : (t.cut depth catalog).columns.getD [] = t.columns := by
    rw [Table.cut, if_pos hdepth]
    rfl
  have hconstraints : ((t.cut depth catalog).constraints.getD []).map CutConstraint.restore =
      t.constraints := by
    simp only [Table.cut, if_pos hdepth]
    exact map_restore_cut fun c hc => Constraint.restore_cut (h c hc)
  exact congrArg₂ (Table.mk t.name t.tableType) hcolumns hconstraints

/-- A batch of full depth determines the hierarchy. -/
theorem restore_cut {schemas : List DbSchema} (hdepth : 3 ≤ depth.levels)
    (h : OnlyForeignKeysRefer schemas) :
    ((cut depth catalog schemas).getD []).map CutSchema.restore = schemas := by
  rw [cut, if_pos (by omega)]
  refine map_restore_cut fun s hs => ?_
  have htables : ((s.cut depth catalog).tables.getD []).map CutTable.restore = s.tables := by
    rw [DbSchema.cut, if_pos (by omega)]
    exact map_restore_cut fun t ht => Table.restore_cut hdepth (h s hs t ht)
  exact congrArg (DbSchema.mk s.name) htables

end Restore

end Objects
end SpannerAdbc
