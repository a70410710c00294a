import SpannerAdbc.Lib.Machine
import SpannerAdbc.Session.Metadata

/-!
# SpannerAdbc.Session.Connection

`SpannerConnection`, and a connection with its statements as a machine: one operation after the
other, on the connection or on any of the statements it has created, each recorded with its outcome
and the calls it has made. The outcome of an operation that fails is part of the record, so no
operation is refused but one on a statement that does not exist.

What the driver answers without the server (`get_info`, `get_table_types`, `get_statistic_names` and
the getters of options) is left out.
-/

namespace SpannerAdbc
namespace Session

open Lib Ingest Txn

variable {K : Client} (R : Replies K)

/-! ## The connection -/

namespace Connection

def commitAutocommit : Error :=
  invalidState "commit invoked with autocommit enabled; no active transaction".toList

def rollbackAutocommit : Error :=
  invalidState "rollback invoked with autocommit enabled; no active transaction".toList

section Methods

variable (config : SharedConfig K)

def applyTransaction (statements : List (SpannerSql K)) (mutations : List K.Mutation) :
    Prog Error (Shared K) Unit :=
  if statements.isEmpty then writeMutationsTxn (Statement.writeOnly R config.settings) mutations
  else do
    let _ ← Statement.runBatchTxn R config.settings statements mutations false

def applyManualTxn (work : ManualTxn (SpannerSql K) K.Mutation K.Handle) :
    Prog Error (Shared K) Unit := do
  let readOnly ← config.isReadOnly
  MonadExcept.ofExcept (checkCommitWritable readOnly work)
  match work with
  | .unset | .read _ => pure ()
  | .dml statements mutations => applyTransaction R config statements mutations

def commit : Prog Error (Shared K) Unit := do
  let work ← withTxn fun st =>
    if st.autocommit then (.error commitAutocommit, st) else (.ok st.txn, st)
  applyManualTxn R config work
  -- Nothing is buffered in between, so the drain does not run past the end (`finishCommit_self`).
  withTxn fun st => (.ok (), (st.finishCommit work).getD st)

def rollback : Prog Error (Shared K) Unit :=
  withTxn fun st =>
    if st.autocommit then (.error rollbackAutocommit, st) else (.ok (), { st with txn := .unset })

def setAutocommit (enable : Bool) : Prog Error (Shared K) Unit := do
  let pending ← withTxn fun st =>
    if enable && !st.autocommit then (.ok (some st.enterAutocommit.1), st.enterAutocommit.2)
    else (.ok none, { st with autocommit := enable })
  match pending with
  | none => pure ()
  | some work =>
    match ← (applyManualTxn R config work).attempt with
    | .ok () => pure ()
    | .error e =>
      withTxn fun st => (.ok (), st.restoreManual work)
      throw e

def setReadOnly (value : Bool) : Prog Error (Shared K) Unit := do
  let s ← get
  set { s with flags := Function.update s.flags config.readOnly value }

def readPartition (descriptor : List UInt8) : Prog Error (Shared K) (Reader K) := do
  let partition ← MonadExcept.ofExcept (K.decodePartition descriptor)
  return .stream (← perform (.executePartition partition) R.stream)

end Methods

end Connection

/-! ## A connection with its statements -/

structure World (K : Client) where
  /-- The database id. -/
  catalog : List Char
  config : SharedConfig K
  statements : List (Statement K)
  shared : Shared K

/-- A new connection: its flag is allocated at `0` and clear. -/
def World.new (catalog : List Char) (settings : K.Settings) : World K where
  catalog := catalog
  config := { readOnly := 0, settings }
  statements := []
  shared := { flags := fun _ => false, txn := .new, log := [] }

inductive ConnectionOption where
  | autocommit
  | readOnly
  /-- The isolation level, the transaction tag, the shared options, the fixed catalog and schema,
  and unknown keys. -/
  | other (key : List Char)

inductive StatementOp (K : Client) where
  | setOption (key : Statement.StatementOption) (value : OptionValue)
  | setSqlQuery (query : List Char)
  | bind (batch : Batch K.Data)
  | bindStream (reader : Statement.BoundStream K)
  | prepare
  | execute
  | executeUpdate
  | executeSchema
  | executePartitions
  | getParameterSchema

inductive Op (K : Client) where
  | setOption (key : ConnectionOption) (value : OptionValue)
  | newStatement
  | commit
  | rollback
  | getTableSchema (catalog dbSchema : Option (List Char)) (table : List Char)
  | getObjects (depth : Objects.ObjectDepth) (catalog : Option (List Char))
      (filters : Objects.ObjectFilters)
  | getStatistics (catalog dbSchema tableName : Option (List Char))
  | readPartition (descriptor : List UInt8)
  | onStatement (i : Nat) (op : StatementOp K)

/-- What an operation returns. -/
inductive Value (K : Client) where
  | unit
  | reader (reader : Reader K)
  | count (count : Option Int)
  | schema (schema : K.Schema)
  | partitions (result : PartitionedResult K)
  /-- The batch of a metadata reader, if it has one. -/
  | batch (batch : Option Arrow.RecordBatch)

namespace StatementOp

/-- A setter: a failed one leaves the statement as it was. -/
def update (f : Statement K → Except Error (Statement K)) : Statement.Method K Unit := do
  let s ← get
  let self ← MonadExcept.ofExcept (f s.1)
  set (self, s.2)

def run : StatementOp K → Statement.Method K (Value K)
  | .setOption key value => do update (·.setOption key value); return .unit
  | .setSqlQuery query => do update (.ok <| ·.setSqlQuery query); return .unit
  | .bind batch => do update (.ok <| ·.bind batch); return .unit
  | .bindStream reader => do update (·.bindStream reader); return .unit
  | .prepare => do update (fun self => self.prepare.map fun _ => self); return .unit
  | .execute => return .reader (← Statement.execute R)
  | .executeUpdate => return .count (← Statement.executeUpdate R)
  | .executeSchema => return .schema (← Statement.executeSchema R)
  | .executePartitions => return .partitions (← Statement.executePartitions R)
  | .getParameterSchema => do
    let self ← Statement.getSelf
    return .schema (← (self.getParameterSchema R).inSnd)

end StatementOp

namespace World

variable (w : World K)

/-- A program over the shared state, run on the connection. -/
def onShared {α : Type} (x : Prog Error (Shared K) α) (value : α → Value K) :
    Except Error (Value K) × World K :=
  ((x.exec w.shared).1.map value, { w with shared := (x.exec w.shared).2 })

def setOption (key : ConnectionOption) (value : OptionValue) : Except Error (Value K) × World K :=
  match key with
  | .autocommit =>
    w.onShared (do
      let enable ← MonadExcept.ofExcept
        (boolOption K value "option adbc.connection.autocommit".toList)
      Connection.setAutocommit R w.config enable) fun _ => .unit
  | .readOnly =>
    w.onShared (do
      let flag ← MonadExcept.ofExcept (boolOption K value "option adbc.connection.readonly".toList)
      Connection.setReadOnly w.config flag) fun _ => .unit
  | .other key =>
    match K.setConnectionOption key value w.config.settings with
    | .error e => (.error e, w)
    | .ok settings => (.ok .unit, { w with config := { w.config with settings } })

def onStatement (i : Nat) (op : StatementOp K) : Option (Except Error (Value K) × World K) :=
  match w.statements[i]? with
  | none => none
  | some self =>
    let r := (op.run R).exec (self, w.shared)
    some (r.1, { w with statements := w.statements.set i r.2.1, shared := r.2.2 })

/-- One operation: its outcome and the world behind it. -/
def apply : Op K → Option (Except Error (Value K) × World K)
  | .setOption key value => some (w.setOption R key value)
  | .newStatement =>
    some (.ok .unit, { w with statements := w.statements ++ [.new w.config.inherit] })
  | .commit => some (w.onShared (Connection.commit R w.config) fun _ => .unit)
  | .rollback => some (w.onShared Connection.rollback fun _ => .unit)
  | .getTableSchema catalog dbSchema table =>
    some (w.onShared (Connection.getTableSchema R w.config w.catalog catalog dbSchema table) .schema)
  | .getObjects depth catalog filters =>
    some (w.onShared (Connection.getObjects R w.config w.catalog depth catalog filters) .batch)
  | .getStatistics catalog dbSchema tableName =>
    some (w.onShared
      (Connection.getStatistics R w.config w.catalog catalog dbSchema tableName) .batch)
  | .readPartition descriptor => some (w.onShared (Connection.readPartition R descriptor) .reader)
  | .onStatement i op => w.onStatement R i op

end World

/-- One operation of a run. -/
structure Record (K : Client) where
  before : World K
  op : Op K
  outcome : Except Error (Value K)
  after : World K

def Record.calls (r : Record K) : List (Call K) :=
  r.after.shared.log.drop r.before.shared.log.length

def World.record (w : World K) (op : Op K) (r : Except Error (Value K) × World K) : Record K :=
  { before := w, op, outcome := r.1, after := r.2 }

/-- A connection and its statements, one operation after the other. -/
def machine : Machine (World K) (Op K) (Record K) where
  step w op := (w.apply R op).map fun r => (r.2, [w.record op r])

end Session
end SpannerAdbc
