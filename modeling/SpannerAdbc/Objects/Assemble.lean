import SpannerAdbc.Arrow.Array
import SpannerAdbc.Convert.Scalar
import SpannerAdbc.Lib.Lookup
import SpannerAdbc.Metadata.Like
import SpannerAdbc.Sql.Keyword

/-!
# SpannerAdbc.Objects.Assemble

`assemble_objects`: the hierarchy of schemas, tables, columns and constraints of `get_objects`, from
the batches that the `INFORMATION_SCHEMA` queries return. Each batch is grouped once into a map, by
schema, by table or by constraint; the loops over schemas, tables and constraints look the groups up.
-/

namespace SpannerAdbc
namespace Objects

open Arrow Lib Metadata Sql
open SpannerAdbc.Convert (parseI64)

/-! ## The hierarchy -/

structure Column where
  name : List Char
  ordinal : Int
  nullable : Bool
  typeName : List Char
  deriving DecidableEq, Repr

/-- A column that a foreign key refers to. -/
structure Usage where
  dbSchema : List Char
  table : List Char
  column : List Char
  deriving DecidableEq, Repr

structure Constraint where
  name : Option (List Char)
  constraintType : List Char
  columns : List (List Char)
  usages : List Usage
  deriving DecidableEq, Repr

structure Table where
  name : List Char
  tableType : List Char
  columns : List Column
  constraints : List Constraint
  deriving DecidableEq, Repr

structure DbSchema where
  name : List Char
  tables : List Table
  deriving DecidableEq, Repr

structure ObjectFilters where
  dbSchema : Option (List Char)
  tableName : Option (List Char)
  tableType : Option (List (List Char))
  columnName : Option (List Char)
  deriving DecidableEq, Repr

/-! ## Reading a batch -/

/-- `str_col`: the slots of a column of texts. -/
def strCol (batch : RecordBatch) (index : Nat) : Except Error (List (Option Scalar)) :=
  match batch.columns[index]? with
  | none => .error (err ("INFORMATION_SCHEMA batch has ".toList ++
      Nat.toDigits 10 batch.columns.length ++ " column(s); column ".toList ++ Nat.toDigits 10 index ++
      " is out of range".toList) .internal)
  | some (.scalars .utf8 slots) => .ok slots
  | some _ => .error (err ("INFORMATION_SCHEMA column ".toList ++ Nat.toDigits 10 index ++
      " is not a string".toList) .internal)

/-- `StringArray::value`; a null slot has no characters. -/
def value (slots : List (Option Scalar)) (r : Nat) : List Char :=
  match slots[r]? with
  | some (some (.text t)) => t
  | _ => []

def isNull (slots : List (Option Scalar)) (r : Nat) : Bool := slots[r]? == some none

/-- `as i32`. -/
def asI32 (n : Int) : Int := n.bmod (2 ^ 32)

def intValue (slots : List (Option Scalar)) (r : Nat) : Int :=
  match slots[r]? with
  | some (some (.int n)) => n
  | _ => 0

structure TableRow where
  name : List Char
  tableType : List Char

structure ColumnRow where
  name : List Char
  ordinal : Int
  nullable : Bool
  typeName : List Char

structure ConstraintRow where
  name : List Char
  constraintType : List Char

structure KeyColumnRow where
  column : List Char
  tableSchema : List Char
  table : List Char
  ordinal : List Char
  position : Option (List Char)

/-- A (schema, name) pair. -/
abbrev Key := List Char × List Char

/-- The loop of the `group_*` functions over the rows of a batch. -/
def groupRows {K V : Type} [DecidableEq K] (numRows : Nat) (key : Nat → K) (row : Nat → V) :
    List (K × List V) :=
  (List.range numRows).foldl (fun map r => push (key r) (row r) map) []

/-- `SELECT TABLE_SCHEMA, TABLE_NAME, TABLE_TYPE`. -/
def groupTables (batch : RecordBatch) : Except Error (List (List Char × List TableRow)) := do
  let ts ← strCol batch 0
  let tn ← strCol batch 1
  let tt ← strCol batch 2
  return groupRows batch.numRows (value ts) fun r => { name := value tn r, tableType := value tt r }

def ordinalCol (batch : RecordBatch) : Except Error (List (Option Scalar)) :=
  match batch.columns[(3 : Nat)]? with
  | some (.scalars .int64 slots) => .ok slots
  | _ => .error (err "ORDINAL_POSITION is not an integer".toList .internal)

/-- `SELECT TABLE_SCHEMA, TABLE_NAME, COLUMN_NAME, ORDINAL_POSITION, IS_NULLABLE, SPANNER_TYPE`. -/
def groupColumns (batch : RecordBatch) : Except Error (List (Key × List ColumnRow)) := do
  let ts ← strCol batch 0
  let tn ← strCol batch 1
  let cn ← strCol batch 2
  let nul ← strCol batch 4
  let typ ← strCol batch 5
  let ordinal ← ordinalCol batch
  return groupRows batch.numRows (fun r => (value ts r, value tn r)) fun r =>
    { name := value cn r, ordinal := asI32 (intValue ordinal r)
      nullable := eqIgnoreAsciiCase (value nul r) "YES".toList, typeName := value typ r }

/-- `SELECT TABLE_SCHEMA, TABLE_NAME, CONSTRAINT_NAME, CONSTRAINT_TYPE`. -/
def groupConstraints (batch : RecordBatch) : Except Error (List (Key × List ConstraintRow)) := do
  let ts ← strCol batch 0
  let tn ← strCol batch 1
  let cn ← strCol batch 2
  let ct ← strCol batch 3
  return groupRows batch.numRows (fun r => (value ts r, value tn r)) fun r =>
    { name := value cn r, constraintType := value ct r }

/-- `SELECT CONSTRAINT_SCHEMA, CONSTRAINT_NAME, TABLE_SCHEMA, TABLE_NAME, COLUMN_NAME,
CAST(ORDINAL_POSITION AS STRING), CAST(POSITION_IN_UNIQUE_CONSTRAINT AS STRING)`. -/
def groupKeyColumns (batch : RecordBatch) : Except Error (List (Key × List KeyColumnRow)) := do
  let kcs ← strCol batch 0
  let kcn ← strCol batch 1
  let kts ← strCol batch 2
  let ktn ← strCol batch 3
  let kcol ← strCol batch 4
  let kord ← strCol batch 5
  let kpos ← strCol batch 6
  return groupRows batch.numRows (fun r => (value kcs r, value kcn r)) fun r =>
    { column := value kcol r, tableSchema := value kts r, table := value ktn r
      ordinal := value kord r, position := if isNull kpos r then none else some (value kpos r) }

/-- `SELECT CONSTRAINT_SCHEMA, CONSTRAINT_NAME, UNIQUE_CONSTRAINT_SCHEMA, UNIQUE_CONSTRAINT_NAME`. -/
def groupReferential (batch : RecordBatch) : Except Error (List (Key × Key)) := do
  let rcs ← strCol batch 0
  let rcn ← strCol batch 1
  let rus ← strCol batch 2
  let run ← strCol batch 3
  return (List.range batch.numRows).foldl
    (fun map r => orInsert (value rcs r, value rcn r) (value rus r, value run r) map) []

/-- A batch that was not fetched groups to an empty map. -/
def groupOpt {T : Type} (batch : Option RecordBatch) (group : RecordBatch → Except Error (List T)) :
    Except Error (List T) :=
  match batch with
  | none => .ok []
  | some batch => group batch

/-! ## The assembly -/

/-- A row that a filter drops. -/
def rejects (filter : Option (List Char)) (name : List Char) : Bool :=
  filter.any fun pattern => !likeMatch pattern name

/-- `map.get(key).into_iter().flatten()`. -/
def rowsAt {K V : Type} [DecidableEq K] (key : K) (map : List (K × List V)) : List V :=
  (lookup key map).getD []

def collectColumns (columnsByTable : List (Key × List ColumnRow)) (schema table : List Char)
    (filter : Option (List Char)) : List Column :=
  (rowsAt (schema, table) columnsByTable).filterMap fun column =>
    if rejects filter column.name then none
    else some { name := column.name, ordinal := column.ordinal, nullable := column.nullable
                typeName := column.typeName }

/-- The own columns of a foreign key: ordinal and position in the referenced constraint. -/
def KeyColumnRow.positions (k : KeyColumnRow) : Option (Int × Int) := do
  let ordinal ← parseI64 k.ordinal
  let position ← k.position
  return (ordinal, ← parseI64 position)

def foreignKeyUsages (keyColumnsByConstraint : List (Key × List KeyColumnRow))
    (referentialByConstraint : List (Key × Key)) (schema fkName : List Char) : List Usage :=
  match lookup (schema, fkName) referentialByConstraint with
  | none => []
  | some unique =>
    let referenced : List (Int × KeyColumnRow) := collapse
      ((rowsAt unique keyColumnsByConstraint).filterMap fun k =>
        (parseI64 k.ordinal).map fun ordinal => (ordinal, k))
    let fkColumns := ((rowsAt (schema, fkName) keyColumnsByConstraint).filterMap
      KeyColumnRow.positions).mergeSort fun a b => a.1 ≤ b.1
    fkColumns.filterMap fun column => (lookup column.2 referenced).map fun k =>
      { dbSchema := k.tableSchema, table := k.table, column := k.column }

def foreignKey : List Char := "FOREIGN KEY".toList

def collectConstraints (constraintsByTable : List (Key × List ConstraintRow))
    (keyColumnsByConstraint : List (Key × List KeyColumnRow))
    (referentialByConstraint : List (Key × Key)) (schema table : List Char) : List Constraint :=
  (rowsAt (schema, table) constraintsByTable).map fun constraint =>
    { name := some constraint.name, constraintType := constraint.constraintType
      columns := (rowsAt (schema, constraint.name) keyColumnsByConstraint).map KeyColumnRow.column
      usages :=
        if constraint.constraintType = foreignKey then
          foreignKeyUsages keyColumnsByConstraint referentialByConstraint schema constraint.name
        else [] }

/-- The batches of the queries; a depth that does not need a query leaves its batch out. -/
structure ObjectBatches where
  schemata : RecordBatch
  tables : Option RecordBatch
  columns : Option RecordBatch
  constraints : Option RecordBatch
  keyColumns : Option RecordBatch
  referential : Option RecordBatch

def assembleObjects (batches : ObjectBatches) (filters : ObjectFilters) :
    Except Error (List DbSchema) := do
  let schemaNames ← strCol batches.schemata 0
  let tablesBySchema ← groupOpt batches.tables groupTables
  let columnsByTable ← groupOpt batches.columns groupColumns
  let constraintsByTable ← groupOpt batches.constraints groupConstraints
  let keyColumnsByConstraint ← groupOpt batches.keyColumns groupKeyColumns
  let referentialByConstraint ← groupOpt batches.referential groupReferential
  return (List.range batches.schemata.numRows).filterMap fun i =>
    let schemaName := value schemaNames i
    if rejects filters.dbSchema schemaName then none
    else some
      { name := schemaName
        tables := (rowsAt schemaName tablesBySchema).filterMap fun table =>
          if rejects filters.tableName table.name then none
          else if filters.tableType.any fun types => !types.contains table.tableType then none
          else some
            { name := table.name, tableType := table.tableType
              columns := collectColumns columnsByTable schemaName table.name filters.columnName
              constraints := collectConstraints constraintsByTable keyColumnsByConstraint
                referentialByConstraint schemaName table.name } }

end Objects
end SpannerAdbc
