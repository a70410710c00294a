import SpannerAdbc.Session.Client

/-!
# SpannerAdbc.Session.Statement

`SpannerStatement`. A method on `&self` is a program over what the connection and its statements
share; a method on `&mut self` is a program over the statement and the shared state together.

`execute` and `executeUpdate` route a statement by its text, its bound data and its options: bulk
ingest, schema change, DML (batched, returning or partitioned; in autocommit or buffered in a manual
transaction), or a query in a read-only transaction.
-/

namespace SpannerAdbc
namespace Session

open Lib Ingest Txn

structure Statement (K : Client) where
  config : SharedConfig K
  sql : Option (List Char) := none
  bound : List (Batch K.Data) := []
  /-- The schema of a bound stream without batches. -/
  ingestSchema : Option K.Schema := none
  targetTable : Option (List Char) := none
  targetDbSchema : Option (List Char) := none
  ingestMode : Option IngestMode := none
  ingestBatchWrite : Bool := false
  dmlPartitioned : Bool := false
  bindByName : Bool := false
  dataBoost : Bool := false

inductive Reader (K : Client) where
  | batches (batches : List (Batch K.Data)) (schema : K.Schema)
  | stream (stream : K.Stream)

inductive DmlOutcome (K : Client) where
  | plain (count : Option Int)
  | returning (batches : List (Batch K.Data)) (schema : K.Schema) (affected : Int)

structure PartitionedResult (K : Client) where
  partitions : List (List UInt8)
  schema : K.Schema
  rowsAffected : Int

variable {K : Client} (R : Replies K)

def emptyReader : Reader K := .batches [] K.emptySchema

/-- What `execute` makes of DML. -/
def DmlOutcome.reader : DmlOutcome K → Reader K
  | .returning batches schema _ => .batches batches schema
  | .plain _ => emptyReader

/-- What `execute_update` makes of DML. -/
def DmlOutcome.count : DmlOutcome K → Option Int
  | .returning _ _ affected => some affected
  | .plain count => count

/-! ## Rejections -/

def dmlReadOnly : Error := invalidState "cannot execute DML: the connection is read-only".toList

def ddlReadOnly : Error := invalidState "cannot execute DDL: the connection is read-only".toList

def ingestReadOnly : Error := invalidState "cannot ingest: the connection is read-only".toList

def returningInManual : Error :=
  invalidState ("DML with THEN RETURN cannot run in a manual transaction: buffered DML is ".toList ++
    "applied via ExecuteBatchDml on commit, which does not support THEN RETURN. Re-enable ".toList ++
    "autocommit to run it".toList)

def checkQueryOnly (sql entryPoint dmlRationale : List Char) : Except Error Unit :=
  if Sql.isDdl sql then
    .error (invalidArgument (entryPoint ++ " is only valid for queries".toList))
  else if Sql.isDml sql then
    .error (invalidArgument (entryPoint ++
      " only supports queries: DML (INSERT/UPDATE/DELETE) cannot be ".toList ++ dmlRationale ++
      "; run it via execute or execute_update instead".toList))
  else .ok ()

/-- A batch of several statements has to be all DML; one statement always passes. -/
def checkAllDmlBatch (K : Client) (statements : List (List Char)) : Except Error Unit :=
  if statements.length > 1 then
    match statements.find? fun s => !Sql.isDml s with
    | some other => .error (invalidArgument
        ("a `;`-separated statement batch must be all-DML (INSERT/UPDATE/DELETE), but it ".toList ++
          "contains ".toList ++ K.debug other ++
          ": run queries and DDL as individual statements".toList))
    | none => .ok ()
  else .ok ()

def partitionedOption : List Char := "option spanner.dml.partitioned is set, but ".toList

def checkPartitionedDml (sql : List Char) (autocommit : Bool) (boundRows : Nat) :
    Except Error Unit :=
  if !autocommit then
    .error (invalidState (partitionedOption ++
      "the connection is in a manual transaction: partitioned DML is its own transaction ".toList ++
      "type and cannot join one. Commit (or re-enable adbc.connection.autocommit) first, ".toList ++
      "or unset the option".toList))
  else if Sql.isDmlReturning sql then
    .error (invalidArgument (partitionedOption ++
      "the statement has a THEN RETURN clause: partitioned DML returns no rows. Unset the ".toList ++
      "option to run it in a read/write transaction".toList))
  else
    let statements := (Sql.splitStatements sql).length
    if statements > 1 then
      .error (invalidArgument (partitionedOption ++
        "the SQL is a `;`-separated batch of ".toList ++ (toString statements).toList ++
        " statements: partitioned DML runs exactly one statement. Execute each statement ".toList ++
        "separately, or unset the option".toList))
    else if boundRows > 1 then
      .error (invalidArgument (partitionedOption ++ (toString boundRows).toList ++
        " parameter rows are bound: partitioned DML runs exactly one statement. Bind a ".toList ++
        "single row, or unset the option".toList))
    else .ok ()

namespace Statement

def new (config : SharedConfig K) : Statement K := { config }

variable (self : Statement K)

def checkSingleBoundRow : Except Error Unit :=
  let rows := rowCount self.bound
  if rows > 1 then
    .error (invalidArgument
      ("execute_partitions supports at most one bound parameter row, but ".toList ++
        (toString rows).toList ++ " rows are bound: partitioned execution has no per-row ".toList ++
        "fan-out; bind a single row per execute_partitions call".toList))
  else .ok ()

def checkBoundHasDestination : Except Error Unit :=
  if self.sql.isNone && self.targetTable.isNone &&
      (!self.bound.isEmpty || self.ingestSchema.isSome) then
    .error (invalidState
      ("data has been bound but no SQL query or bulk-ingest target is set; call ".toList ++
        "set_sql_query or set the adbc.ingest.target_table option before executing".toList))
  else .ok ()

def sqlText : Except Error (List Char) :=
  match self.sql with
  | some sql => .ok sql
  | none =>
    .error (invalidState "no SQL query set on statement; call set_sql_query first".toList)

/-! ## Building statements -/

def sqlBuilder (sql : List Char) : SpannerSql K := { sql, settings := self.config.settings }

def readSqlBuilder (sql : List Char) : SpannerSql K :=
  { self.sqlBuilder sql with builder := .read }

/-- The statements of the rows `row`, …, `row + n - 1` of a batch. -/
def bindRows (base : SpannerSql K) (names : List (List Char)) (batch : Batch K.Data) :
    Nat → Nat → Except Error (List (SpannerSql K))
  | _, 0 => .ok []
  | row, n + 1 => do
    let params ← K.bindParams names batch row
    let rest ← bindRows base names batch (row + 1) n
    return { base with params := some params } :: rest

def buildBoundLoop (sql : List Char) : List (Batch K.Data) → Except Error (List (SpannerSql K))
  | [] => .ok []
  | batch :: bound =>
    if batch.numRows = 0 then buildBoundLoop sql bound
    else do
      let names ← K.resolveParameterNames sql batch self.bindByName
      let statements ← bindRows (self.sqlBuilder sql) names batch 0 batch.numRows
      let rest ← buildBoundLoop sql bound
      return statements ++ rest

def buildBoundStatements (sql : List Char) : Except Error (List (SpannerSql K)) :=
  self.buildBoundLoop sql self.bound

def buildDmlStatements (sql : List Char) : Except Error (List (SpannerSql K)) :=
  if !self.bound.isEmpty then self.buildBoundStatements sql
  else do
    let statements := Sql.splitStatements sql
    checkAllDmlBatch K statements
    return statements.map self.sqlBuilder

/-- The bound row of `execute_partitions`, wherever it is. -/
def buildQueryStatement (sql : List Char) (plan : Bool) : Except Error (SpannerSql K) :=
  let builder := { self.readSqlBuilder sql with plan }
  match self.bound.find? fun batch => batch.numRows > 0 with
  | some batch => do
    let names ← K.resolveParameterNames sql batch self.bindByName
    let params ← K.bindParams names batch 0
    return { builder with params := some params }
  | none => return builder

/-- The first bound batch, when it has rows. -/
def buildPlanStatement (sql : List Char) : Except Error (SpannerSql K) :=
  let builder := { self.readSqlBuilder sql with plan := true }
  match self.bound.head?.filter fun batch => batch.numRows > 0 with
  | some batch => do
    let names ← K.resolveParameterNames sql batch self.bindByName
    let params ← K.bindParams names batch 0
    return { builder with params := some params }
  | none => return builder

/-- The bound batches with rows, each with the names its columns bind to. -/
def boundGroups (sql : List Char) :
    List (Batch K.Data) → Except Error (List (List (List Char) × Batch K.Data))
  | [] => .ok []
  | batch :: bound =>
    if batch.numRows = 0 then boundGroups sql bound
    else do
      let names ← K.resolveParameterNames sql batch self.bindByName
      let rest ← boundGroups sql bound
      return (names, batch) :: rest

/-! ## Schema changes and DML -/

def runDdl (statements : List (List Char)) : Prog Error (Shared K) Unit := do
  self.config.ensureWritable ddlReadOnly
  perform (.updateDatabaseDdl statements) R.done

def runBatchTxn (settings : K.Settings) (statements : List (SpannerSql K))
    (mutations : List K.Mutation) (lastStatements : Bool) : Prog Error (Shared K) Int :=
  if statements.isEmpty && mutations.isEmpty then pure 0
  else perform (.readWrite settings (.batchUpdate statements mutations lastStatements)) R.count

def runOrBuffer (statements : List (SpannerSql K)) : Prog Error (Shared K) (Option Int) := do
  let buffered ← withTxn fun st =>
    if st.autocommit then (.ok false, st)
    else
      match st.bufferDml statements with
      | .error e => (.error e, st)
      | .ok st' => (.ok true, st')
  if buffered then return none
  else return some (← runBatchTxn R self.config.settings statements [] true)

/-- The loop over the results of `execute_returning_dml`. -/
def collectReturned : List (K.Rows × Int) → Option K.Schema → List (Batch K.Data) → Int →
    Except Error (List (Batch K.Data) × K.Schema × Int)
  | [], schema, batches, affected => .ok (batches, schema.getD K.emptySchema, affected)
  | (rows, count) :: results, schema, batches, affected => do
    let (sch, batch) ← K.rowsToBatch self.config.settings rows
    collectReturned results (some (schema.getD sch)) (batches ++ [batch]) (affected + count)

def executeReturningDml (statements : List (SpannerSql K)) :
    Prog Error (Shared K) (List (Batch K.Data) × K.Schema × Int) := do
  let results ← perform (.readWrite self.config.settings (.returning statements)) R.rows
  MonadExcept.ofExcept (self.collectReturned results none [] 0)

def runPartitionedDml (sql : List Char) : Prog Error (Shared K) Int := do
  let autocommit ← isAutocommit
  MonadExcept.ofExcept (checkPartitionedDml sql autocommit (rowCount self.bound))
  let statements ← MonadExcept.ofExcept (self.buildDmlStatements sql)
  match statements.getLast? with
  | none => return 0
  | some statement => perform (.partitionedDml self.config.settings statement) R.count

/-- The statements of returning DML: one per bound row, or the only one of the text. -/
def buildReturningStatements (sql : List Char) : Except Error (List (SpannerSql K)) :=
  if self.bound.isEmpty then
    let parts := Sql.splitStatements sql
    if parts.length > 1 then
      .error (notImplemented "THEN RETURN in a multi-statement (`;`-separated) DML batch".toList)
    else .ok (parts.map self.sqlBuilder)
  else self.buildBoundStatements sql

def runDml (sql : List Char) : Prog Error (Shared K) (DmlOutcome K) := do
  self.config.ensureWritable dmlReadOnly
  if self.dmlPartitioned then
    return .plain (some (← self.runPartitionedDml R sql))
  else if !Sql.isDmlReturning sql then
    let statements ← MonadExcept.ofExcept (self.buildDmlStatements sql)
    return .plain (← self.runOrBuffer R statements)
  else if !(← isAutocommit) then throw returningInManual
  else
    let statements ← MonadExcept.ofExcept (self.buildReturningStatements sql)
    let (batches, schema, affected) ← self.executeReturningDml R statements
    return .returning batches schema affected

/-! ## Queries -/

def ensureQueryAllowed : Prog Error (Shared K) Unit :=
  withTxn fun st => (st.checkKindAllowed .read, st)

def planQuerySchema (sql : List Char) : Prog Error (Shared K) K.Schema := do
  let readBound ← MonadExcept.ofExcept (K.timestampBound self.config.settings)
  let statement ← MonadExcept.ofExcept (self.buildPlanStatement sql)
  perform (.singleUse readBound statement) R.schema

/-- `none` in autocommit mode. Between the two looks at the state other threads may have run. -/
def manualReadTransaction : Prog Error (Shared K) (Option K.Handle) := do
  let found ← withTxn fun st => (.ok (st.autocommit, st.readTxn), st)
  match found with
  | (true, _) => return none
  | (false, some txn) => return some txn
  | (false, none) =>
    let bound ← MonadExcept.ofExcept (K.multiUseTimestampBound self.config.settings)
    let built ← perform (.multiUse bound) R.handle
    withTxn fun st =>
      if st.autocommit then (.ok none, st)
      else
        match st.startReadTxn built with
        | .error e => (.error e, st)
        | .ok (txn, st') => (.ok (some txn), st')

/-- A query on the snapshot of the manual transaction, or in a single-use transaction. -/
def queryStream (manualTxn : Option K.Handle) (bound : Option K.TimestampBound)
    (statement : SpannerSql K) : Prog Error (Shared K) K.Stream :=
  match manualTxn with
  | some txn => perform (.readQuery txn statement) R.stream
  | none => perform (.singleUse bound statement) R.stream

/-- The snapshot of the manual transaction, or a new one. -/
def querySnapshot (manualTxn : Option K.Handle) (bound : Option K.TimestampBound) :
    Prog Error (Shared K) K.Handle :=
  match manualTxn with
  | some txn => pure txn
  | none => perform (.multiUse bound) R.handle

def executeBoundQuery (sql : List Char) : Prog Error (Shared K) (Reader K) := do
  let groups ← MonadExcept.ofExcept (self.boundGroups sql self.bound)
  let base := self.readSqlBuilder sql
  let manualTxn ← self.manualReadTransaction R
  if rowCount self.bound ≤ 1 then
    match groups with
    | [] => return .batches [] (← self.planQuerySchema R sql)
    | (names, batch) :: _ =>
      let params ← MonadExcept.ofExcept (K.bindParams names batch 0)
      let bound ← MonadExcept.ofExcept (K.timestampBound self.config.settings)
      return .stream (← queryStream R manualTxn bound { base with params := some params })
  else
    let bound ← MonadExcept.ofExcept (K.multiUseTimestampBound self.config.settings)
    let txn ← querySnapshot R manualTxn bound
    return .stream (← perform (.boundQuery txn base groups) R.stream)

def executeQuery (sql : List Char) : Prog Error (Shared K) (Reader K) := do
  let manualTxn ← self.manualReadTransaction R
  let bound ← MonadExcept.ofExcept (K.timestampBound self.config.settings)
  return .stream (← queryStream R manualTxn bound (self.readSqlBuilder sql))

/-- The partitions with the Data Boost choice baked in. -/
def encodePartitions : List K.Partition → Except Error (List (List UInt8))
  | [] => .ok []
  | partition :: partitions => do
    let token ← K.encodePartition
      (if self.dataBoost then K.setDataBoost partition else partition)
    let tokens ← encodePartitions partitions
    return token :: tokens

def runPartitionQuery (sql : List Char) : Prog Error (Shared K) (PartitionedResult K) := do
  MonadExcept.ofExcept self.checkSingleBoundRow
  let planStmt ← MonadExcept.ofExcept (self.buildQueryStatement sql true)
  let queryStmt ← MonadExcept.ofExcept (self.buildQueryStatement sql false)
  let bound ← MonadExcept.ofExcept (K.timestampBound self.config.settings)
  let schema ← perform (.singleUse bound planStmt) R.schema
  let partitions ← perform (.partitionQuery bound queryStmt) R.partitions
  let tokens ← MonadExcept.ofExcept (self.encodePartitions partitions)
  return { partitions := tokens, schema, rowsAffected := -1 }

/-- DML is planned in a read/write transaction that commits empty. -/
def planDmlParameterTypes (sql : List Char) : Prog Error (Shared K) K.ParamTypes :=
  perform (.readWrite self.config.settings (.plan { self.sqlBuilder sql with plan := true }))
    R.parameterTypes

def planParameterTypes (sql : List Char) : Prog Error (Shared K) K.ParamTypes := do
  let sql := Sql.stripTrailingTerminators sql
  if Sql.isDdl sql then return K.noTypes
  else if Sql.isDml sql then
    if ← self.config.isReadOnly then return K.noTypes
    else self.planDmlParameterTypes R sql
  else perform (.singleUse none { self.readSqlBuilder sql with plan := true }) R.parameterTypes

def getParameterSchema : Prog Error (Shared K) K.Schema := do
  match self.bound.head? with
  | some batch => return K.batchSchema batch
  | none =>
    let sql ← MonadExcept.ofExcept self.sqlText
    let names := K.namedParameters sql
    if names.isEmpty then return K.emptySchema
    else
      -- a failed probe types nothing
      let types := match ← (self.planParameterTypes R sql).attempt with
        | .ok types => types
        | .error _ => K.noTypes
      MonadExcept.ofExcept (K.parameterSchema self.config.settings names types)

end Statement
end Session
end SpannerAdbc
