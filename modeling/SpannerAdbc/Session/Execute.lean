import SpannerAdbc.Session.Statement

/-!
# SpannerAdbc.Session.Execute

Bulk ingest on a statement, and the entry points of a statement. An entry point on `&mut self` runs
on the statement and the shared state together, so that what it leaves on the statement when it
fails is part of the model: most of them consume the bound data however they end.
-/

namespace SpannerAdbc
namespace Session

open Lib Ingest Txn

variable {K : Client} (R : Replies K)

namespace Statement

/-! ## Bulk ingest -/

section Ingest

variable (self : Statement K)

def boundIngestSchema : Option K.Schema :=
  match self.bound.head? with
  | some batch => some (K.batchSchema batch)
  | none => self.ingestSchema

def buildIngestTableDdl (table : List Char) : Except Error (Option (List (List Char))) :=
  match self.ingestMode with
  | some .append => return none
  | none | some .create => build false false
  | some .createAppend => build true false
  | some .replace => build false true
where
  build (ifNotExists dropFirst : Bool) : Except Error (Option (List (List Char))) :=
    match self.boundIngestSchema with
    | none => .error (invalidState "cannot create the ingest table: no data is bound".toList)
    | some schema => do
      let drop ← if dropFirst then do
          let name ← K.qualifiedTable self.targetDbSchema table
          pure ["DROP TABLE IF EXISTS ".toList ++ name]
        else pure []
      let create ← K.createTableSql table self.targetDbSchema schema ifNotExists
      return some (drop ++ [create])

def tableExists (dbSchema table : List Char) : Prog Error (Shared K) Bool :=
  perform (.tableExists dbSchema table) R.found

def ingestTableExists (table : List Char) : Prog Error (Shared K) Bool :=
  tableExists R (self.targetDbSchema.getD []) table

def writeOnly (settings : K.Settings) (mutations : List K.Mutation) : Prog Error (Shared K) Unit :=
  perform (.writeOnly settings mutations) R.done

/-- The requests of an ingest into `table`, as calls of the client library. -/
def ingestEnv (table : List Char) : Env (Shared K) K.Data K.Mutation where
  insertMutation := K.insertMutation
  write := writeOnly R self.config.settings
  executeStreaming groups :=
    perform (.batchWrite self.config.settings groups) fun log => .ok (R.batchWrite log)
  codeOf := K.codeOf
  tableExists := self.ingestTableExists R table
  debug := K.debug

def job (table : List Char) : Job K.Data where
  table := table
  targetDbSchema := self.targetDbSchema
  ingestMode := self.ingestMode
  ingestBatchWrite := self.ingestBatchWrite
  bound := self.bound

def appendInto (table : List Char) : List Char :=
  "bulk ingest append into table ".toList ++ table ++ " failed: ".toList

/-- The error that an append reports for `error`. -/
def remapIngestAppendError (table : List Char) (error : Error) : Prog Error (Shared K) Error := do
  if self.ingestMode ≠ some .append ∧ self.ingestMode ≠ some .createAppend then return error
  else if error.status = .invalidState then return error
  else if error.status = .alreadyExists then
    return annotate error fun message => appendInto (K.debug table) ++ message
  else
    match ← (self.ingestTableExists R table).attempt with
    | .ok true => return err (appendInto (K.debug table) ++
        "the bound data is incompatible with the existing table's schema (".toList ++
        error.message ++ ")".toList) .alreadyExists
    | .ok false => return err ("bulk ingest append target table ".toList ++ K.debug table ++
        " not found (".toList ++ error.message ++ ")".toList) .notFound
    | .error _ => return error

def remapIngestCreateError (table : List Char) (error : Error) : Prog Error (Shared K) Error := do
  if self.ingestMode ≠ none ∧ self.ingestMode ≠ some .create then return error
  else
    match ← (self.ingestTableExists R table).attempt with
    | .ok true => return err ("bulk ingest create target table ".toList ++ K.debug table ++
        " already exists (".toList ++ error.message ++ ")".toList) .alreadyExists
    | .ok false | .error _ => return error

def runIngestMutations (table : List Char) : Prog Error (Shared K) (Option Int) := do
  let env := self.ingestEnv R table
  let job := self.job table
  let target := mutationTable self.targetDbSchema table
  let manual ← withTxn fun st =>
    if st.autocommit then (.ok false, st)
    else ((st.checkKindAllowed .dml).map fun _ => true, st)
  let buffered ← if manual then do
      let rows := rowCount self.bound
      let mutations ← MonadExcept.ofExcept
        (buildRangeMutations K.insertMutation target self.bound 0 rows)
      checkEmptyAppendTarget env job rows
      -- not buffered when the mode has flipped to autocommit since
      withTxn fun st =>
        if st.autocommit then (.ok false, st)
        else ((st.bufferMutations mutations).1.map fun _ => true, (st.bufferMutations mutations).2)
    else pure false
  if buffered then return none
  else return some (Int.ofNat (← ingestAutocommit env job))

def runBoundIngest (table : List Char) : Prog Error (Shared K) (Option Int) := do
  withTxn fun st => (if st.autocommit then .ok () else st.checkKindAllowed .dml, st)
  match ← MonadExcept.ofExcept (self.buildIngestTableDdl table) with
  | none => pure ()
  | some ddl =>
    match ← (self.runDdl R ddl).attempt with
    | .ok () => pure ()
    | .error error => throw (← self.remapIngestCreateError R table error)
  match ← (self.runIngestMutations R table).attempt with
  | .ok count => return count
  | .error error => throw (← self.remapIngestAppendError R table error)

end Ingest

/-! ## Entry points -/

abbrev Method (K : Client) := Prog Error (Statement K × Shared K)

def getSelf : Method K (Statement K) := do return (← get).1

def clearBound : Method K Unit := do
  let s ← get
  set ({ s.1 with bound := [], ingestSchema := none }, s.2)

/-- The statement with nothing bound to it. -/
def unbound (self : Statement K) : Statement K := { self with bound := [], ingestSchema := none }

def runIngest (table : List Char) : Method K (Option Int) := do
  let self ← getSelf
  (self.config.ensureWritable ingestReadOnly).inSnd
  if self.bound.isEmpty && self.ingestSchema.isNone then
    throw (invalidState "cannot ingest: no data has been bound".toList)
  else
    let result ← (self.runBoundIngest R table).inSnd.attempt
    clearBound
    MonadExcept.ofExcept result

def executeQueryReader (sql : List Char) : Method K (Reader K) := do
  let self ← getSelf
  let sql := Sql.stripTrailingTerminators sql
  ensureQueryAllowed.inSnd
  if !self.bound.isEmpty then
    let result ← (self.executeBoundQuery R sql).inSnd.attempt
    clearBound
    MonadExcept.ofExcept result
  else (self.executeQuery R sql).inSnd

def drainDiscardingRows : Reader K → Prog Error (Shared K) Unit
  | .batches _ _ => pure ()
  | .stream stream => perform (.fetch stream) R.done

/-- DML through an entry point: the attempt consumes the bound data. -/
def runDmlConsuming (sql : List Char) : Method K (DmlOutcome K) := do
  let self ← getSelf
  let result ← (self.runDml R sql).inSnd.attempt
  clearBound
  MonadExcept.ofExcept result

/-- A schema change through an entry point: only a successful one consumes the bound data. -/
def runDdlConsuming (sql : List Char) : Method K Unit := do
  let self ← getSelf
  (self.runDdl R (Sql.splitStatements sql)).inSnd
  clearBound

def execute : Method K (Reader K) := do
  let self ← getSelf
  match self.sql, self.targetTable with
  | none, some table =>
    let _ ← runIngest R table
    return emptyReader
  | _, _ =>
    MonadExcept.ofExcept self.checkBoundHasDestination
    let sql ← MonadExcept.ofExcept self.sqlText
    if Sql.isDdl sql then
      runDdlConsuming R sql
      return emptyReader
    else if Sql.isDml sql then
      match ← runDmlConsuming R sql with
      | .returning batches schema _ => return .batches batches schema
      | .plain _ => return emptyReader
    else executeQueryReader R sql

def executeUpdate : Method K (Option Int) := do
  let self ← getSelf
  match self.sql, self.targetTable with
  | none, some table => runIngest R table
  | _, _ =>
    MonadExcept.ofExcept self.checkBoundHasDestination
    let sql ← MonadExcept.ofExcept self.sqlText
    if Sql.isDdl sql then
      runDdlConsuming R sql
      return none
    else if !Sql.isDml sql then
      MonadExcept.ofExcept (checkAllDmlBatch K (Sql.splitStatements sql))
      let reader ← executeQueryReader R sql
      (drainDiscardingRows R reader).inSnd
      return none
    else
      match ← runDmlConsuming R sql with
      | .returning _ _ affected => return some affected
      | .plain count => return count

def executeSchema : Method K K.Schema := do
  let self ← getSelf
  let sql ← MonadExcept.ofExcept self.sqlText
  MonadExcept.ofExcept (checkQueryOnly sql "execute_schema".toList
    "planned in a read-only schema probe".toList)
  (self.planQuerySchema R (Sql.stripTrailingTerminators sql)).inSnd

def executePartitions : Method K (PartitionedResult K) := do
  let self ← getSelf
  let sql ← MonadExcept.ofExcept self.sqlText
  MonadExcept.ofExcept (checkQueryOnly sql "execute_partitions".toList
    "partitioned in a batch read-only transaction".toList)
  ensureQueryAllowed.inSnd
  let result ← (self.runPartitionQuery R (Sql.stripTrailingTerminators sql)).inSnd.attempt
  clearBound
  MonadExcept.ofExcept result

def prepare (self : Statement K) : Except Error Unit :=
  if self.sql.isNone && self.targetTable.isNone then
    .error (invalidState
      "cannot prepare: no SQL query set on statement; call set_sql_query first".toList)
  else .ok ()

/-! ## Where an execution goes -/

section Routes

variable {R : Replies K} {self : Statement K} {s : Shared K} {sql : List Char}

@[simp] theorem exec_getSelf : (getSelf : Method K (Statement K)).exec (self, s) =
    (.ok self, (self, s)) := rfl

/-- An attempt that ends with `clear_bound`. -/
theorem exec_consuming {α : Type} (x : Prog Error (Shared K) α) :
    (do let r ← x.inSnd.attempt; clearBound; MonadExcept.ofExcept r : Method K α).exec (self, s) =
      ((x.exec s).1, (self.unbound, (x.exec s).2)) := by
  have hclear : (clearBound : Method K Unit).exec (self, (x.exec s).2) =
      (.ok (), (self.unbound, (x.exec s).2)) := rfl
  rw [Prog.exec_bind_ok (Prog.exec_attempt _ _), Prog.exec_inSnd, Prog.exec_bind_ok hclear,
    Prog.exec_ofExcept]

theorem exec_runDmlConsuming (sql : List Char) : (runDmlConsuming R sql).exec (self, s) =
    (((self.runDml R sql).exec s).1, (self.unbound, ((self.runDml R sql).exec s).2)) := by
  unfold runDmlConsuming
  rw [Prog.exec_bind_ok exec_getSelf]
  exact exec_consuming _

theorem checkBoundHasDestination_of_sql (hsql : self.sql = some sql) :
    self.checkBoundHasDestination = .ok () := by
  simp [checkBoundHasDestination, hsql]

theorem exec_execute_ingest {table : List Char} (hsql : self.sql = none)
    (htable : self.targetTable = some table) : (execute R).exec (self, s) =
      (do let _ ← runIngest R table; return emptyReader : Method K (Reader K)).exec (self, s) := by
  unfold execute
  rw [Prog.exec_bind_ok exec_getSelf, hsql, htable]

theorem exec_execute_sql (hsql : self.sql = some sql) :
    (execute R).exec (self, s) =
      (if Sql.isDdl sql then do runDdlConsuming R sql; return emptyReader
        else if Sql.isDml sql then do return (← runDmlConsuming R sql).reader
        else executeQueryReader R sql : Method K (Reader K)).exec (self, s) := by
  unfold execute
  rw [Prog.exec_bind_ok exec_getSelf, hsql]
  simp only [checkBoundHasDestination_of_sql hsql, sqlText, hsql]
  rw [Prog.exec_bind_ok (Prog.exec_ofExcept _ _), Prog.exec_bind_ok (Prog.exec_ofExcept _ _)]
  congr 3
  refine bind_congr fun outcome => ?_
  cases outcome <;> rfl

theorem exec_executeUpdate_ingest {table : List Char} (hsql : self.sql = none)
    (htable : self.targetTable = some table) :
    (executeUpdate R).exec (self, s) = (runIngest R table).exec (self, s) := by
  unfold executeUpdate
  rw [Prog.exec_bind_ok exec_getSelf, hsql, htable]

theorem exec_executeUpdate_sql (hsql : self.sql = some sql) :
    (executeUpdate R).exec (self, s) =
      (if Sql.isDdl sql then do runDdlConsuming R sql; return none
        else if Sql.isDml sql then do return (← runDmlConsuming R sql).count
        else do
          MonadExcept.ofExcept (checkAllDmlBatch K (Sql.splitStatements sql))
          let reader ← executeQueryReader R sql
          (drainDiscardingRows R reader).inSnd
          return none : Method K (Option Int)).exec (self, s) := by
  unfold executeUpdate
  rw [Prog.exec_bind_ok exec_getSelf, hsql]
  simp only [checkBoundHasDestination_of_sql hsql, sqlText, hsql]
  rw [Prog.exec_bind_ok (Prog.exec_ofExcept _ _), Prog.exec_bind_ok (Prog.exec_ofExcept _ _)]
  cases Sql.isDml sql with
  | false => rfl
  | true =>
    congr 2
    refine bind_congr fun outcome => ?_
    cases outcome <;> rfl

end Routes

/-! ## Setters -/

inductive StatementOption where
  | targetTable
  | targetDbSchema
  | temporary
  | incremental
  | ingestMode
  | ingestBatchWrite
  | dmlPartitioned
  | bindByName
  | dataBoost
  /-- The target catalog, `spanner.rows_per_batch`, the shared options and unknown keys. -/
  | other (key : List Char)

def ingestModeOption (K : Client) (value : OptionValue) : Except Error IngestMode := do
  let s ← stringOption value "option adbc.ingest.mode".toList
  if s = "adbc.ingest.mode.append".toList ∨ s = "append".toList then return .append
  else if s = "adbc.ingest.mode.create".toList ∨ s = "create".toList then return .create
  else if s = "adbc.ingest.mode.create_append".toList ∨ s = "create_append".toList then
    return .createAppend
  else if s = "adbc.ingest.mode.replace".toList ∨ s = "replace".toList then return .replace
  else throw (notImplemented ("ingest mode ".toList ++ K.debug s))

def checkUnsupportedTrue (K : Client) (value : OptionValue) (what rejection : List Char) :
    Except Error Unit := do
  if ← boolOption K value what then throw (unsupported rejection) else return ()

section Setters

variable (self : Statement K)

def setOption (key : StatementOption) (value : OptionValue) : Except Error (Statement K) := do
  match key with
  | .targetTable =>
    let table ← stringOption value "option adbc.ingest.target_table".toList
    return { self with targetTable := some table, sql := none }
  | .targetDbSchema =>
    let schema ← stringOption value "option adbc.ingest.target_db_schema".toList
    return { self with targetDbSchema := some schema }
  | .temporary =>
    checkUnsupportedTrue K value "option adbc.ingest.temporary".toList
      ("setting adbc.ingest.temporary to true: Spanner has no temporary tables; ".toList ++
        "leave it unset or false".toList)
    return self
  | .incremental =>
    checkUnsupportedTrue K value "option adbc.statement.exec.incremental".toList
      ("setting adbc.statement.exec.incremental to true: incremental ".toList ++
        "execute_partitions is not implemented; leave it unset or false".toList)
    return self
  | .ingestMode => return { self with ingestMode := some (← ingestModeOption K value) }
  | .ingestBatchWrite =>
    let batchWrite ← boolOptionUnsettable K value "option spanner.ingest.batch_write".toList
    return { self with ingestBatchWrite := batchWrite }
  | .dmlPartitioned =>
    let partitioned ← boolOptionUnsettable K value "option spanner.dml.partitioned".toList
    return { self with dmlPartitioned := partitioned }
  | .bindByName =>
    let byName ← boolOption K value "option adbc.statement.bind_by_name".toList
    return { self with bindByName := byName }
  | .dataBoost =>
    let dataBoost ← boolOption K value "option spanner.data_boost".toList
    return { self with dataBoost }
  | .other key =>
    let settings ← K.setStatementOption key value self.config.settings
    return { self with config := { self.config with settings } }

def setSqlQuery (query : List Char) : Statement K :=
  { self with sql := some query, targetTable := none }

def bind (batch : Batch K.Data) : Statement K :=
  { self with bound := [batch], ingestSchema := none }

/-- A bound stream: its schema, its batches, and the error that ends it, if one does. -/
structure BoundStream (K : Client) where
  schema : K.Schema
  batches : List (Batch K.Data)
  failure : Option (List Char)

def bindStream (reader : BoundStream K) : Except Error (Statement K) :=
  match reader.failure with
  | some e => .error (err ("failed to read bound stream: ".toList ++ e) .invalidData)
  | none => .ok { self with
      ingestSchema := if reader.batches.isEmpty then some reader.schema else none
      bound := reader.batches }

end Setters

end Statement
end Session
end SpannerAdbc
