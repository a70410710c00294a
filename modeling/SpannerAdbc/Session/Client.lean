import SpannerAdbc.Ingest.Commit
import SpannerAdbc.Objects.Build
import SpannerAdbc.Txn.State

/-!
# SpannerAdbc.Session.Client

What a connection and its statements share: the transaction state, the read-only flag and the calls
they make to the Spanner client library.

`Client` holds what is decided elsewhere: Arrow data and its conversions, the options that only
reach the client library, and the partition descriptors. A program reaches the server through
`perform`, which logs the call and takes its outcome from `Replies`. A reply may depend on all calls
so far, so it covers every server, and every deadline and cancel.

`Call.canWrite` says which calls can change the database.
-/

namespace SpannerAdbc
namespace Session

open Lib Ingest Txn

inductive OptionValue where
  | string (s : List Char)
  | bytes (b : List UInt8)
  | int (i : Int)
  | double (bits : UInt64)

structure Client where
  /-- Columns of a record batch. -/
  Data : Type
  Schema : Type
  Mutation : Type
  /-- Values bound to the parameters of a statement. -/
  Params : Type
  ParamTypes : Type
  /-- Metadata and rows of a drained result set. -/
  Rows : Type
  /-- The options of `SharedConfig` other than the read-only flag, and `spanner.rows_per_batch`. -/
  Settings : Type
  TimestampBound : Type
  /-- Multi-use read-only transactions. -/
  Handle : Type
  /-- Streamed results of a query. -/
  Stream : Type
  Partition : Type
  batchSchema : Batch Data → Schema
  emptySchema : Schema
  insertMutation : List Char → Batch Data → Nat → Except Error Mutation
  namedParameters : List Char → List (List Char)
  resolveParameterNames : List Char → Batch Data → Bool → Except Error (List (List Char))
  bindParams : List (List Char) → Batch Data → Nat → Except Error Params
  /-- Parameters with text values. -/
  textParams : List (List Char × List Char) → Params
  createTableSql : List Char → Option (List Char) → Schema → Bool → Except Error (List Char)
  qualifiedTable : Option (List Char) → List Char → Except Error (List Char)
  rowsToBatch : Settings → Rows → Except Error (Schema × Batch Data)
  /-- The fields of `get_parameter_schema`, from the names and the types found for them. -/
  parameterSchema : Settings → List (List Char) → ParamTypes → Except Error Schema
  noTypes : ParamTypes
  timestampBound : Settings → Except Error (Option TimestampBound)
  multiUseTimestampBound : Settings → Except Error (Option TimestampBound)
  setConnectionOption : List Char → OptionValue → Settings → Except Error Settings
  setStatementOption : List Char → OptionValue → Settings → Except Error Settings
  setDataBoost : Partition → Partition
  encodePartition : Partition → Except Error (List UInt8)
  decodePartition : List UInt8 → Except Error Partition
  /-- The transaction that a partition carries is a read-only one. -/
  onlyReads : Partition → Bool
  codeOf : Int → Code
  /-- The `{:?}` form of a string. -/
  debug : List Char → List Char
  debugChar : Char → List Char
  /-- Arrow's own error messages. -/
  message : Arrow.ArrowError → List Char

variable {K : Client}

def Client.toDebug (K : Client) : Debug := { string := K.debug, char := K.debugChar }

/-- Which of the options of its object a statement is built with. -/
inductive Builder where
  /-- `sql_builder`: the priority, the request tag, the query options and the retry bounds. -/
  | sql
  /-- `read_sql_builder`: these and the directed read. -/
  | read
  /-- `metadata_sql_builder`: the priority, the directed read and the retry bounds. -/
  | metadata
  deriving DecidableEq, Repr

/-- A built statement: the text with the options and parameters it is sent with. -/
structure SpannerSql (K : Client) where
  sql : List Char
  settings : K.Settings
  builder : Builder := .sql
  plan : Bool := false
  params : Option K.Params := none

/-- What runs inside a read/write transaction. -/
inductive TxnBody (K : Client) where
  | batchUpdate (statements : List (SpannerSql K)) (mutations : List K.Mutation)
      (lastStatements : Bool)
  | returning (statements : List (SpannerSql K))
  | plan (statement : SpannerSql K)

/-- The calls of the client library. A call that is built with options has the settings they come
from, besides those of its statements; the others have none. -/
inductive Call (K : Client) where
  | singleUse (bound : Option K.TimestampBound) (statement : SpannerSql K)
  /-- Building the transaction: the first query begins it. -/
  | multiUse (bound : Option K.TimestampBound)
  | readQuery (txn : K.Handle) (statement : SpannerSql K)
  /-- The lazily bound queries of one reader, all on one snapshot. -/
  | boundQuery (txn : K.Handle) (base : SpannerSql K)
      (groups : List (List (List Char) × Batch K.Data))
  /-- Queries that run side by side on one snapshot and fail together. -/
  | readTogether (txn : K.Handle) (statements : List (SpannerSql K))
  | fetch (stream : K.Stream)
  | partitionQuery (bound : Option K.TimestampBound) (statement : SpannerSql K)
  | executePartition (partition : K.Partition)
  | tableExists (dbSchema table : List Char)
  /-- `build_runner` takes the isolation level, the commit options and the retry bounds, and a batch
  of DML the priority, the request tag and the retry bounds. -/
  | readWrite (settings : K.Settings) (body : TxnBody K)
  /-- The commit options and the retry bounds. -/
  | writeOnly (settings : K.Settings) (mutations : List K.Mutation)
  /-- The priority, the transaction tag and the exclusion from change streams. -/
  | batchWrite (settings : K.Settings) (groups : List (List K.Mutation))
  /-- The exclusion from change streams. -/
  | partitionedDml (settings : K.Settings) (statement : SpannerSql K)
  | updateDatabaseDdl (statements : List (List Char))

/-- Queries run in read-only transactions, whatever their text: the server refuses a write there.
A partition runs in the transaction it carries. -/
def Call.canWrite : Call K → Bool
  | .readWrite _ _ | .writeOnly _ _ | .batchWrite _ _ | .partitionedDml _ _
  | .updateDatabaseDdl _ => true
  | .executePartition partition => !K.onlyReads partition
  | .singleUse _ _ | .multiUse _ | .readQuery _ _ | .boundQuery _ _ _ | .readTogether _ _
  | .fetch _ | .partitionQuery _ _ | .tableExists _ _ => false

/-- The texts that a call sends as DML to be executed. -/
def Call.dml : Call K → List (List Char)
  | .readWrite _ (.batchUpdate statements _ _) | .readWrite _ (.returning statements) =>
    statements.map (·.sql)
  | .partitionedDml _ statement => [statement.sql]
  | _ => []

/-- The texts of a schema change. -/
def Call.ddl : Call K → List (List Char)
  | .updateDatabaseDdl statements => statements
  | _ => []

/-- The outcome of the last call, by the calls so far. -/
structure Replies (K : Client) where
  stream : List (Call K) → Except Error K.Stream
  schema : List (Call K) → Except Error K.Schema
  parameterTypes : List (Call K) → Except Error K.ParamTypes
  handle : List (Call K) → Except Error K.Handle
  partitions : List (Call K) → Except Error (List K.Partition)
  found : List (Call K) → Except Error Bool
  count : List (Call K) → Except Error Int
  rows : List (Call K) → Except Error (List (K.Rows × Int))
  done : List (Call K) → Except Error Unit
  batchWrite : List (Call K) → BatchStream
  batch : List (Call K) → Except Error Arrow.RecordBatch
  batches : List (Call K) → Except Error (List Arrow.RecordBatch)
  objects : List (Call K) → Except Error Objects.ObjectBatches

/-- The address of an `Arc<AtomicBool>`. -/
abbrev FlagRef := Nat

structure SharedConfig (K : Client) where
  readOnly : FlagRef
  settings : K.Settings

/-- The flag is aliased, the other options are copied. -/
def SharedConfig.inherit (config : SharedConfig K) : SharedConfig K := config

/-- What a connection and its statements share. -/
structure Shared (K : Client) where
  flags : FlagRef → Bool
  txn : TxnState (SpannerSql K) K.Mutation K.Handle
  log : List (Call K)

section Programs

def perform {α : Type} (call : Call K) (reply : List (Call K) → Except Error α) :
    Prog Error (Shared K) α := do
  let s ← get
  let log := s.log ++ [call]
  set { s with log }
  MonadExcept.ofExcept (reply log)

/-- A method of the transaction state, under its lock. -/
def withTxn {α : Type} (f : TxnState (SpannerSql K) K.Mutation K.Handle →
    Except Error α × TxnState (SpannerSql K) K.Mutation K.Handle) : Prog Error (Shared K) α := do
  let s ← get
  set { s with txn := (f s.txn).2 }
  MonadExcept.ofExcept (f s.txn).1

def isAutocommit : Prog Error (Shared K) Bool := withTxn fun st => (.ok st.autocommit, st)

def SharedConfig.isReadOnly (config : SharedConfig K) : Prog Error (Shared K) Bool := do
  return (← get).flags config.readOnly

/-- The live value of the flag refuses an operation. -/
def SharedConfig.ensureWritable (config : SharedConfig K) (error : Error) :
    Prog Error (Shared K) Unit := do
  if ← config.isReadOnly then throw error else return ()

theorem exec_perform {α : Type} (call : Call K) (reply : List (Call K) → Except Error α)
    (s : Shared K) : (perform call reply).exec s =
      (reply (s.log ++ [call]), { s with log := s.log ++ [call] }) := by
  unfold perform
  rw [Prog.exec_bind_ok (Prog.exec_get s), Prog.exec_bind_ok (Prog.exec_set s _),
    Prog.exec_ofExcept]

theorem exec_withTxn {α : Type} (f : TxnState (SpannerSql K) K.Mutation K.Handle →
    Except Error α × TxnState (SpannerSql K) K.Mutation K.Handle) (s : Shared K) :
    (withTxn f).exec s = ((f s.txn).1, { s with txn := (f s.txn).2 }) := by
  unfold withTxn
  rw [Prog.exec_bind_ok (Prog.exec_get s), Prog.exec_bind_ok (Prog.exec_set s _),
    Prog.exec_ofExcept]

@[simp] theorem SharedConfig.exec_isReadOnly (config : SharedConfig K) (s : Shared K) :
    config.isReadOnly.exec s = (.ok (s.flags config.readOnly), s) := rfl

theorem SharedConfig.exec_ensureWritable (config : SharedConfig K) (error : Error) (s : Shared K) :
    (config.ensureWritable error).exec s =
      (if s.flags config.readOnly then .error error else .ok (), s) := by
  unfold SharedConfig.ensureWritable
  rw [Prog.exec_bind_ok (config.exec_isReadOnly s)]
  cases s.flags config.readOnly <;> rfl

end Programs

/-! ## Option values -/

def stringOption (value : OptionValue) (what : List Char) : Except Error (List Char) :=
  match value with
  | .string s => .ok s
  | _ => .error (invalidArgument (what ++ " requires a string value".toList))

def boolOption (K : Client) (value : OptionValue) (what : List Char) : Except Error Bool :=
  match value with
  | .string s =>
    if s = "true".toList then .ok true
    else if s = "false".toList then .ok false
    else .error (invalidArgument
      (what ++ " expects \"true\" or \"false\", got ".toList ++ K.debug s))
  | _ => .error (invalidArgument (what ++
      " is a boolean option and takes the strings \"true\"/\"false\" ".toList ++
      "(int- and other non-string-typed values are not accepted)".toList))

/-- A blank string unsets the option. -/
def boolOptionUnsettable (K : Client) (value : OptionValue) (what : List Char) :
    Except Error Bool :=
  match value with
  | .string s => if Sql.trim s = [] then .ok false else boolOption K value what
  | _ => boolOption K value what

/-! ## A client for closed examples -/

/-- A client whose rows and schemas have no content. -/
def plainClient : Client where
  Data := Unit
  Schema := Unit
  Mutation := Nat
  Params := Unit
  ParamTypes := Unit
  Rows := Unit
  Settings := Unit
  TimestampBound := Unit
  Handle := Unit
  Stream := Unit
  Partition := Unit
  batchSchema _ := ()
  emptySchema := ()
  insertMutation _ _ row := .ok row
  namedParameters _ := []
  resolveParameterNames _ _ _ := .ok []
  bindParams _ _ _ := .ok ()
  textParams _ := ()
  createTableSql table _ _ _ := .ok table
  qualifiedTable _ table := .ok table
  rowsToBatch _ _ := .error cancelledErr
  parameterSchema _ _ _ := .ok ()
  noTypes := ()
  timestampBound _ := .ok none
  multiUseTimestampBound _ := .ok none
  setConnectionOption _ _ settings := .ok settings
  setStatementOption _ _ settings := .ok settings
  setDataBoost := id
  encodePartition _ := .ok []
  decodePartition _ := .ok ()
  onlyReads _ := true
  codeOf _ := .ok
  debug := id
  debugChar c := [c]
  message _ := []

def plainReplies : Replies plainClient where
  stream _ := .ok ()
  schema _ := .ok ()
  parameterTypes _ := .ok ()
  handle _ := .ok ()
  partitions _ := .ok []
  found _ := .ok true
  count _ := .ok 0
  rows _ := .ok []
  done _ := .ok ()
  batchWrite _ := .refused cancelledErr
  batch _ := .error cancelledErr
  batches _ := .error cancelledErr
  objects _ := .error cancelledErr

end Session
end SpannerAdbc
