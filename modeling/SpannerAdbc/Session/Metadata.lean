import SpannerAdbc.Objects.PushDown
import SpannerAdbc.Session.Execute
import SpannerAdbc.Statistics.Build

/-!
# SpannerAdbc.Session.Metadata

The metadata reads of a connection: `get_table_schema`, `get_objects` and `get_statistics`.

They run in read-only transactions of their own, also while a manual transaction is open, with
statements from `metadata_sql_builder`. All queries of one `get_objects` or `get_statistics` are on
one snapshot.
-/

namespace SpannerAdbc
namespace Session
namespace Connection

open Lib Ingest Arrow Objects

variable {K : Client} (R : Replies K) (config : SharedConfig K)

def metadataSqlBuilder (sql : List Char) : SpannerSql K :=
  { sql, settings := config.settings, builder := .metadata }

def checkLookupCatalog (K : Client) (catalog : Option (List Char)) (reported : List Char) :
    Except Error Unit :=
  match catalog with
  | none => .ok ()
  | some name =>
    if name = reported then .ok ()
    else .error (err ("catalog ".toList ++ K.debug name ++
      " not found: this connection has only the catalog ".toList ++ K.debug reported) .notFound)

def getTableSchema (reported : List Char) (catalog dbSchema : Option (List Char))
    (table : List Char) : Prog Error (Shared K) K.Schema := do
  MonadExcept.ofExcept (checkLookupCatalog K catalog reported)
  let name ← MonadExcept.ofExcept (K.qualifiedTable dbSchema table)
  let bound ← MonadExcept.ofExcept (K.timestampBound config.settings)
  let statement := metadataSqlBuilder config ("SELECT * FROM ".toList ++ name ++ " LIMIT 0".toList)
  match ← (perform (.singleUse bound statement) R.schema).attempt with
  | .ok schema => return schema
  | .error error =>
    match ← (Statement.tableExists R (dbSchema.getD []) table).attempt with
    | .ok false => throw (err ("table ".toList ++ K.debug table ++ " not found".toList) .notFound)
    | .ok true | .error _ => throw error

/-- The snapshot of a metadata read. -/
def metadataSnapshot : Prog Error (Shared K) K.Handle := do
  let bound ← MonadExcept.ofExcept (K.multiUseTimestampBound config.settings)
  perform (.multiUse bound) R.handle

/-! ## `get_objects` -/

def filteredQuery (stmt : List Char × List (List Char × List Char)) : SpannerSql K :=
  { metadataSqlBuilder config stmt.1 with params := some (K.textParams stmt.2) }

/-- The statements that a depth asks for, in the order of the batches. -/
def objectStatements (depth : ObjectDepth) (filters : ObjectFilters) : List (SpannerSql K) :=
  filteredQuery config filters.schemataStmt ::
    ((if depth.populateTables then [filteredQuery config filters.tablesStmt] else []) ++
      if depth.populateColumns then
        [filteredQuery config filters.columnsStmt, filteredQuery config filters.constraintsStmt,
          metadataSqlBuilder config keyColumnsSql, metadataSqlBuilder config referentialSql]
      else [])

def collectObjects (depth : ObjectDepth) (filters : ObjectFilters) :
    Prog Error (Shared K) (List DbSchema) :=
  if depth = .catalogs then return []
  else do
    let txn ← metadataSnapshot R config
    let batches ← perform (.readTogether txn (objectStatements config depth filters)) R.objects
    MonadExcept.ofExcept (assembleObjects batches filters)

/-- `none` is the reader without a batch, for a catalog filter that does not match. -/
def getObjects (reported : List Char) (depth : ObjectDepth) (catalog : Option (List Char))
    (filters : ObjectFilters) : Prog Error (Shared K) (Option RecordBatch) :=
  if rejects catalog reported then return none
  else do
    let schemas ← collectObjects R config depth filters
    return some (← MonadExcept.ofExcept (Objects.build K.message reported depth schemas))

/-! ## `get_statistics` -/

def collectStatistics (dbSchema tableName : Option (List Char)) :
    Prog Error (Shared K) (List Statistics.SchemaStatistics) := do
  let txn ← metadataSnapshot R config
  let tables ← perform (.readQuery txn (metadataSqlBuilder config Statistics.tablesSql)) R.batch
  let columns ← perform (.readQuery txn (metadataSqlBuilder config Statistics.columnsSql)) R.batch
  let prepared ← MonadExcept.ofExcept
    (Statistics.prepareScans K.toDebug dbSchema tableName tables columns)
  let scans := prepared.map fun table => metadataSqlBuilder config table.sql
  let batches ← perform (.readTogether txn scans) R.batches
  let groups ← MonadExcept.ofExcept (Statistics.regroup Groups.empty (prepared.zip batches))
  return groups.entries.map fun e => { dbSchema := e.1, statistics := e.2 }

def getStatistics (reported : List Char) (catalog dbSchema tableName : Option (List Char)) :
    Prog Error (Shared K) (Option RecordBatch) :=
  if rejects catalog reported then return none
  else do
    let schemas ← collectStatistics R config dbSchema tableName
    return some (← MonadExcept.ofExcept
      (Statistics.build K.message reported schemas Statistics.getStatisticsSchema))

end Connection
end Session
end SpannerAdbc
