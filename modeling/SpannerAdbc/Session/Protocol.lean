import SpannerAdbc.Lib.Trace
import SpannerAdbc.Session.Texts

/-!
# SpannerAdbc.Session.Protocol

Which calls each program of a statement makes, in which order, and what they carry.

`Footprint` says what a program of an object can do to the shared state: its calls and the statements
it buffers carry the options of the object (`Call.IssuedBy`, `SpannerSql.Writes`), the flags and the
mode stay. `Observer.Emits` adds the order of the calls, as a language of their kinds
that depends on the mode. Each program has one lemma, and `Statement.calls` is the language of a
whole entry point.
-/

namespace SpannerAdbc
namespace Session

open Lib Ingest Txn Lib.Prog Lib.Trace
open scoped Computability

variable {K : Client} {R : Replies K}

/-! ## What calls carry -/

/-- An object that makes calls: its options, how it builds its queries, and the texts of its DML and
of its schema changes. -/
structure Issuer (K : Client) where
  settings : K.Settings
  reads : Builder
  dml : List Char → Prop
  ddl : List Char → Prop

/-- The schema changes that a bulk ingest into `table` generates. -/
def Statement.IngestDdl (self : Statement K) (table text : List Char) : Prop :=
  (∃ name, K.qualifiedTable self.targetDbSchema table = .ok name ∧
    text = "DROP TABLE IF EXISTS ".toList ++ name) ∨
  ∃ schema ifNotExists, K.createTableSql table self.targetDbSchema schema ifNotExists = .ok text

/-- DML is the text of the statement or a piece of it. A schema change is a piece of it, or is
generated if there is no text. -/
def Statement.issuer (self : Statement K) : Issuer K where
  settings := self.config.settings
  reads := .read
  dml text := ∃ sql, self.sql = some sql ∧ (text = sql ∨ text ∈ Sql.splitStatements sql)
  ddl text := match self.sql with
    | some sql => text ∈ Sql.splitStatements sql
    | none => ∃ table, self.targetTable = some table ∧ self.IngestDdl table text

/-- The connection itself only queries metadata. -/
def SharedConfig.issuer (config : SharedConfig K) : Issuer K where
  settings := config.settings
  reads := .metadata
  dml _ := False
  ddl _ := False

/-- A statement for a read-only transaction. -/
def SpannerSql.ReadsWith (issuer : Issuer K) (statement : SpannerSql K) : Prop :=
  statement.settings = issuer.settings ∧ statement.builder = issuer.reads

/-- DML to be executed: no directed read, and not only planned. -/
def SpannerSql.Writes (issuer : Issuer K) (statement : SpannerSql K) : Prop :=
  statement.settings = issuer.settings ∧ statement.builder = .sql ∧ statement.plan = false ∧
    issuer.dml statement.sql

/-- What the object runs in a read/write transaction. -/
def TxnBody.IssuedBy (issuer : Issuer K) : TxnBody K → Prop
  | .batchUpdate statements mutations lastStatements =>
    (∀ statement ∈ statements, statement.Writes issuer) ∧ mutations = [] ∧ lastStatements = true
  | .returning statements => ∀ statement ∈ statements, statement.Writes issuer
  | .plan statement =>
    statement.settings = issuer.settings ∧ statement.builder = .sql ∧ statement.plan = true

/-- The calls that the object makes: each of them and each statement in them is built with its
options, a timestamp bound comes from them, and what it writes has its texts. A partition brings its
own options, and the calls of the last two cases are built with none. -/
def Call.IssuedBy (issuer : Issuer K) : Call K → Prop
  | .singleUse bound statement => statement.ReadsWith issuer ∧
      (K.timestampBound issuer.settings = .ok bound ∨ bound = none ∧ statement.plan = true)
  | .multiUse bound => K.multiUseTimestampBound issuer.settings = .ok bound
  | .readQuery _ statement | .boundQuery _ statement _ =>
    statement.ReadsWith issuer ∧ statement.plan = false
  | .readTogether _ statements =>
    ∀ statement ∈ statements, statement.ReadsWith issuer ∧ statement.plan = false
  | .partitionQuery bound statement => statement.ReadsWith issuer ∧ statement.plan = false ∧
      K.timestampBound issuer.settings = .ok bound
  | .readWrite settings body => settings = issuer.settings ∧ body.IssuedBy issuer
  | .partitionedDml settings statement => settings = issuer.settings ∧ statement.Writes issuer
  | .writeOnly settings _ | .batchWrite settings _ => settings = issuer.settings
  | .executePartition _ => False
  | .updateDatabaseDdl statements => ∀ text ∈ statements, issuer.ddl text
  | .fetch _ | .tableExists _ _ => True

inductive CallKind where
  | plan
  | query
  | multiUse
  | readQuery
  | boundQuery
  | readTogether
  | fetch
  | partitionQuery
  | executePartition
  | tableExists
  | batchUpdate
  | returning
  | planDml
  | writeOnly
  | batchWrite
  | partitionedDml
  | updateDatabaseDdl
  deriving DecidableEq, Repr

def Call.kind : Call K → CallKind
  | .singleUse _ statement => if statement.plan then .plan else .query
  | .multiUse _ => .multiUse
  | .readQuery _ _ => .readQuery
  | .boundQuery _ _ _ => .boundQuery
  | .readTogether _ _ => .readTogether
  | .fetch _ => .fetch
  | .partitionQuery _ _ => .partitionQuery
  | .executePartition _ => .executePartition
  | .tableExists _ _ => .tableExists
  | .readWrite _ (.batchUpdate _ _ _) => .batchUpdate
  | .readWrite _ (.returning _) => .returning
  | .readWrite _ (.plan _) => .planDml
  | .writeOnly _ _ => .writeOnly
  | .batchWrite _ _ => .batchWrite
  | .partitionedDml _ _ => .partitionedDml
  | .updateDatabaseDdl _ => .updateDatabaseDdl

/-- What a program of an object does to the shared state. -/
structure Footprint (issuer : Issuer K) (s s' : Shared K) : Prop where
  log : Grows (Call.IssuedBy issuer) s.log s'.log
  buffer : Grows (SpannerSql.Writes issuer) s.txn.txn.work.statements s'.txn.txn.work.statements
  flags : s'.flags = s.flags
  autocommit : s'.txn.autocommit = s.txn.autocommit

namespace Footprint

variable {issuer : Issuer K} {s s' s'' : Shared K}

theorem refl (s : Shared K) : Footprint issuer s s := ⟨.refl _, .refl _, rfl, rfl⟩

theorem trans (h : Footprint issuer s s') (h' : Footprint issuer s' s'') :
    Footprint issuer s s'' :=
  ⟨h.log.trans h'.log, h.buffer.trans h'.buffer, h'.flags.trans h.flags,
    h'.autocommit.trans h.autocommit⟩

end Footprint

/-- The kinds of the calls, in the mode of the connection. -/
def observer (issuer : Issuer K) : Observer (Shared K) CallKind Bool where
  log s := s.log.map Call.kind
  rel := Footprint issuer
  key s := s.txn.autocommit
  refl := .refl
  trans := .trans
  key_eq h := h.autocommit

/-- In the mode `autocommit`, the program makes calls of the kinds of a word of `L`. -/
abbrev Emits {α : Type} (issuer : Issuer K) (autocommit : Bool) (L : Language CallKind)
    (x : Prog Error (Shared K) α) : Prop :=
  (observer issuer).Emits autocommit L x

/-! ## The parts of a program -/

section Parts

variable {α : Type} {issuer : Issuer K} {autocommit : Bool}
  {f : TxnState (SpannerSql K) K.Mutation K.Handle → Except Error α × TxnState (SpannerSql K) K.Mutation K.Handle}
  {reply : List (Call K) → Except Error α}

theorem emits_perform {call : Call K} {kind : CallKind} (h : call.IssuedBy issuer)
    (hk : call.kind = kind) :
    Emits issuer autocommit (one kind) (perform call reply) := by
  intro s _
  rw [exec_perform]
  refine ⟨⟨.append ?_, .refl _, rfl, rfl⟩, [kind], rfl, ?_⟩
  · intro c hc
    rwa [List.mem_singleton.mp hc]
  · change List.map Call.kind (s.log ++ [call]) = _
    rw [List.map_append, List.map_singleton, hk]
    rfl

/-- A call that a failure in front of it can prevent. -/
theorem emits_may_perform {call : Call K} {kind : CallKind} (h : call.IssuedBy issuer)
    (hk : call.kind = kind) :
    Emits issuer autocommit (may kind) (perform call reply) :=
  (emits_perform h hk).mono fun _ hw => .inr hw

/-- A step of the transaction state that keeps the mode and at most buffers statements. -/
theorem emits_withTxn
    (hm : ∀ st, st.autocommit = autocommit → (f st).2.autocommit = st.autocommit)
    (hb : ∀ st, st.autocommit = autocommit → Grows (SpannerSql.Writes issuer)
      st.txn.work.statements (f st).2.txn.work.statements) :
    Emits issuer autocommit 1 (withTxn f) := by
  intro s hs
  rw [exec_withTxn]
  exact ⟨⟨.refl _, hb s.txn hs, rfl, hm s.txn hs⟩, [], rfl, by simp [observer]⟩

theorem emits_look (h : ∀ st, (f st).2 = st) :
    Emits issuer autocommit 1 (withTxn f) :=
  emits_withTxn (fun st _ => by rw [h st]) fun st _ => .of_eq (by rw [h st])

theorem exec_isAutocommit {s : Shared K} (hs : s.txn.autocommit = autocommit) :
    (isAutocommit : Prog Error (Shared K) Bool).exec s = (.ok autocommit, s) := by
  unfold isAutocommit
  rw [exec_withTxn, hs]

theorem emits_ensureWritable (config : SharedConfig K) (error : Error) :
    Emits issuer autocommit 1 (config.ensureWritable error) :=
  .silent fun s _ => by rw [config.exec_ensureWritable]

theorem emits_isReadOnly (config : SharedConfig K) :
    Emits issuer autocommit 1 config.isReadOnly := .silent fun _ _ => rfl

end Parts

namespace Statement

/-! ## Statements that are built -/

section Built

variable {self : Statement K} {sql : List Char} {statements : List (SpannerSql K)}
  {statement : SpannerSql K}

theorem readsWith_readSqlBuilder (self : Statement K) (sql : List Char) :
    (self.readSqlBuilder sql).ReadsWith self.issuer := ⟨rfl, rfl⟩

theorem writes_of_buildBoundLoop {bound : List (Batch K.Data)} (hsql : self.sql = some sql)
    (h : self.buildBoundLoop sql bound = .ok statements) :
    ∀ statement ∈ statements, statement.Writes self.issuer := by
  intro statement hm
  obtain ⟨params, rfl⟩ := (rows_of_buildBoundLoop h).2 statement hm
  exact ⟨rfl, rfl, rfl, sql, hsql, .inl rfl⟩

theorem writes_of_pieces (hsql : self.sql = some sql) : ∀ statement ∈
    (Sql.splitStatements sql).map self.sqlBuilder, statement.Writes self.issuer :=
  List.forall_mem_map.mpr fun _ hpart => ⟨rfl, rfl, rfl, sql, hsql, .inr hpart⟩

theorem writes_of_buildDml (hsql : self.sql = some sql)
    (h : self.buildDmlStatements sql = .ok statements) :
    ∀ statement ∈ statements, statement.Writes self.issuer := by
  unfold buildDmlStatements at h
  split at h
  · exact writes_of_buildBoundLoop hsql h
  · obtain ⟨u, -, h⟩ := bind_eq_ok.mp h
    cases h
    exact writes_of_pieces hsql

theorem writes_of_buildReturning (hsql : self.sql = some sql)
    (h : self.buildReturningStatements sql = .ok statements) :
    ∀ statement ∈ statements, statement.Writes self.issuer := by
  unfold buildReturningStatements at h
  split at h
  · dsimp only at h
    split at h
    · cases h
    · cases h
      exact writes_of_pieces hsql
  · exact writes_of_buildBoundLoop hsql h

theorem readsWith_of_buildQuery {plan : Bool}
    (h : self.buildQueryStatement sql plan = .ok statement) :
    statement.ReadsWith self.issuer ∧ statement.plan = plan := by
  unfold buildQueryStatement at h
  dsimp only at h
  split at h
  · obtain ⟨names, -, h⟩ := bind_eq_ok.mp h
    obtain ⟨params, -, h⟩ := bind_eq_ok.mp h
    cases h
    exact ⟨⟨rfl, rfl⟩, rfl⟩
  · cases h
    exact ⟨⟨rfl, rfl⟩, rfl⟩

theorem readsWith_of_buildPlan (h : self.buildPlanStatement sql = .ok statement) :
    statement.ReadsWith self.issuer ∧ statement.plan = true := by
  unfold buildPlanStatement at h
  dsimp only at h
  split at h
  · obtain ⟨names, -, h⟩ := bind_eq_ok.mp h
    obtain ⟨params, -, h⟩ := bind_eq_ok.mp h
    cases h
    exact ⟨⟨rfl, rfl⟩, rfl⟩
  · cases h
    exact ⟨⟨rfl, rfl⟩, rfl⟩

end Built

/-! ## Schema changes and DML -/

section Dml

variable (self : Statement K) {autocommit : Bool} {sql : List Char}
  {statements : List (SpannerSql K)}

theorem emits_runDdl {statements : List (List Char)}
    (h : ∀ text ∈ statements, self.issuer.ddl text) :
    Emits self.issuer autocommit (may .updateDatabaseDdl) (self.runDdl R statements) :=
  (emits_ensureWritable _ _).silent_bind (nil_mem_may _) fun _ => emits_may_perform h rfl

theorem emits_runBatchTxn (h : ∀ statement ∈ statements, statement.Writes self.issuer) :
    Emits self.issuer autocommit (may .batchUpdate)
      (runBatchTxn R self.config.settings statements [] true) := by
  unfold runBatchTxn
  split
  · exact .pure_of (nil_mem_may _)
  · exact emits_may_perform ⟨rfl, h, rfl, rfl⟩ rfl

/-- DML is sent in autocommit mode only. -/
def autocommitOnly (autocommit : Bool) (kind : CallKind) : Language CallKind :=
  if autocommit then may kind else 1

theorem nil_mem_autocommitOnly (autocommit : Bool) (kind : CallKind) :
    [] ∈ autocommitOnly autocommit kind := by
  cases autocommit with
  | true => exact nil_mem_may kind
  | false => exact Language.nil_mem_one

theorem emits_runOrBuffer (h : ∀ statement ∈ statements, statement.Writes self.issuer) :
    Emits self.issuer autocommit (autocommitOnly autocommit .batchUpdate)
      (self.runOrBuffer R statements) := by
  unfold runOrBuffer
  cases autocommit with
  | true =>
    refine .known_bind (a := false) (fun s hs => ?_) ?_
    · rw [exec_withTxn, show s.txn.autocommit = true from hs]
      rfl
    · exact (self.emits_runBatchTxn h).bind_silent fun _ => .pure _
  | false =>
    -- buffered, or refused for the kind of the transaction
    refine (Observer.Emits.bind_of (Q := fun buffered => buffered = true) (emits_withTxn ?_ ?_) ?_
      Language.nil_mem_one ?_).mono (one_mul (1 : Language CallKind)).le
    · intro st hm
      rw [hm]
      cases hb : st.bufferDml statements with
      | error e => exact hm
      | ok st' => exact (TxnState.bufferDml_ok hm hb).1
    · intro st hm
      rw [hm]
      cases hb : st.bufferDml statements with
      | error e => exact .refl _
      | ok st' =>
        exact ⟨statements, congrArg Work.statements (TxnState.bufferDml_ok hm hb).2.work, h⟩
    · intro s buffered hs hv
      have hm : s.txn.autocommit = false := hs
      rw [exec_withTxn, hm] at hv
      dsimp only at hv
      split at hv
      · exact absurd ‹_› Bool.false_ne_true
      · split at hv
        · cases hv
        · cases hv
          rfl
    · rintro buffered rfl
      exact .pure _

theorem emits_runPartitionedDml (hsql : self.sql = some sql) : Emits self.issuer autocommit
    (autocommitOnly autocommit .partitionedDml) (self.runPartitionedDml R sql) := by
  unfold runPartitionedDml
  refine .known_bind (fun _ => exec_isAutocommit) ?_
  cases autocommit with
  | false => exact .throw _
  | true =>
    refine .ofExcept_bind (nil_mem_may _) fun _ _ => .ofExcept_bind (nil_mem_may _) fun l hl => ?_
    cases hlast : l.getLast? with
    | none => exact .pure_of (nil_mem_may _)
    | some statement =>
      have hbuilt := writes_of_buildDml hsql hl statement (List.mem_of_getLast? hlast)
      exact emits_may_perform ⟨rfl, hbuilt⟩ rfl

theorem emits_executeReturningDml (h : ∀ statement ∈ statements, statement.Writes self.issuer) :
    Emits self.issuer autocommit (may .returning)
      (self.executeReturningDml R statements) := by
  unfold executeReturningDml
  exact .bind_silent (emits_may_perform ⟨rfl, h⟩ rfl) fun _ => .ofExcept _

/-- How DML is sent. -/
def dmlCall (sql : List Char) : CallKind :=
  if self.dmlPartitioned then .partitionedDml
  else if Sql.isDmlReturning sql then .returning
  else .batchUpdate

theorem emits_runDml (hsql : self.sql = some sql) : Emits self.issuer autocommit
    (autocommitOnly autocommit (self.dmlCall sql)) (self.runDml R sql) := by
  have hnil := nil_mem_autocommitOnly autocommit (self.dmlCall sql)
  refine (emits_ensureWritable _ _).silent_bind hnil fun _ => ?_
  unfold dmlCall at hnil ⊢
  cases hp : self.dmlPartitioned with
  | true => exact (self.emits_runPartitionedDml hsql).bind_silent fun _ => .pure _
  | false =>
    rw [hp] at hnil
    cases hr : Sql.isDmlReturning sql with
    | false =>
      rw [hr] at hnil
      refine .ofExcept_bind hnil fun statements hs => ?_
      exact (self.emits_runOrBuffer (writes_of_buildDml hsql hs)).bind_silent fun _ => .pure _
    | true =>
      rw [hr] at hnil
      refine .known_bind (fun _ => exec_isAutocommit) ?_
      cases autocommit with
      | false => exact .throw _
      | true =>
        refine .ofExcept_bind hnil fun statements hs => ?_
        have hbuilt := writes_of_buildReturning hsql hs
        exact (self.emits_executeReturningDml hbuilt).bind_silent fun _ => .pure _

end Dml

/-! ## Queries -/

section Queries

variable (self : Statement K) {autocommit : Bool} {issuer : Issuer K} {manualTxn : Option K.Handle}

theorem emits_ensureQueryAllowed :
    Emits issuer autocommit 1 (ensureQueryAllowed (K := K)) := emits_look fun _ => rfl

theorem emits_planQuerySchema (sql : List Char) :
    Emits self.issuer autocommit (may .plan) (self.planQuerySchema R sql) := by
  unfold planQuerySchema
  refine .ofExcept_bind (nil_mem_may _) fun bound hb => .ofExcept_bind (nil_mem_may _) fun st hs => ?_
  obtain ⟨hreads, hplan⟩ := readsWith_of_buildPlan hs
  exact emits_may_perform ⟨hreads, .inl hb⟩ (by simp [Call.kind, hplan])

/-- A manual transaction gets its snapshot with the first query. -/
def snapshotCalls (autocommit : Bool) : Language CallKind :=
  if autocommit then 1 else may .multiUse

theorem emits_manualReadTransaction : Emits self.issuer autocommit
    (snapshotCalls autocommit) (self.manualReadTransaction R) := by
  unfold manualReadTransaction
  cases autocommit with
  | true =>
    refine .silent fun s hs => ?_
    have hm : s.txn.autocommit = true := hs
    rw [exec_bind, exec_withTxn, hm]
    rfl
  | false =>
    refine (emits_look fun _ => rfl).silent_bind (nil_mem_may _) fun found => ?_
    match found with
    | (true, _) => exact .pure_of (nil_mem_may _)
    | (false, some txn) => exact .pure_of (nil_mem_may _)
    | (false, none) =>
      refine .ofExcept_bind (nil_mem_may _) fun bound hb => ?_
      refine .bind_silent (emits_may_perform hb rfl) fun built => emits_withTxn ?_ ?_
      · intro st hm
        rw [hm]
        cases hs : st.startReadTxn built with
        | error e => exact hm
        | ok r => exact (TxnState.startReadTxn_ok hm hs).1
      · intro st hm
        rw [hm]
        cases hs : st.startReadTxn built with
        | error e => exact .refl _
        | ok r =>
          obtain ⟨-, htxn, h⟩ := TxnState.startReadTxn_ok hm hs
          refine .of_eq ?_
          rcases h with h | h <;> simp [htxn, h, ManualTxn.work]

/-- The snapshot is there in a manual transaction, and only there. -/
theorem manualReadTransaction_isSome {s : Shared K} {found : Option K.Handle}
    (hm : s.txn.autocommit = autocommit)
    (h : ((self.manualReadTransaction R).exec s).1 = .ok found) : found.isSome = !autocommit := by
  unfold manualReadTransaction at h
  rw [exec_bind, exec_withTxn, hm] at h
  cases autocommit with
  | true =>
    cases h
    rfl
  | false =>
    cases ht : s.txn.readTxn with
    | some txn =>
      rw [ht] at h
      cases h
      rfl
    | none =>
      rw [ht] at h
      simp only [exec_bind, exec_ofExcept] at h
      cases hb : K.multiUseTimestampBound self.config.settings with
      | error e =>
        rw [hb] at h
        cases h
      | ok bound =>
        rw [hb] at h
        simp only [exec_perform] at h
        cases hh : R.handle (s.log ++ [.multiUse bound]) with
        | error e =>
          rw [hh] at h
          cases h
        | ok built =>
          rw [hh] at h
          simp only [exec_withTxn, hm] at h
          cases hs : s.txn.startReadTxn built with
          | error e =>
            rw [hs] at h
            cases h
          | ok r =>
            rw [hs] at h
            cases h
            rfl

/-- A query runs on the snapshot of the manual transaction or in a single-use transaction. -/
def queryCall (autocommit : Bool) : CallKind := if autocommit then .query else .readQuery

theorem emits_queryStream {bound : Option K.TimestampBound} {statement : SpannerSql K}
    (hm : manualTxn.isSome = !autocommit) (hs : statement.ReadsWith issuer)
    (hp : statement.plan = false) (hb : K.timestampBound issuer.settings = .ok bound) :
    Emits issuer autocommit (may (queryCall autocommit))
      (queryStream R manualTxn bound statement) := by
  cases manualTxn with
  | some txn =>
    obtain rfl : autocommit = false := by simpa using hm
    exact emits_may_perform ⟨hs, hp⟩ rfl
  | none =>
    obtain rfl : autocommit = true := by simpa using hm
    exact emits_may_perform ⟨hs, .inl hb⟩ (by simp [Call.kind, hp, queryCall])

/-- The calls of a query without bound rows. -/
def queryCalls (autocommit : Bool) : Language CallKind :=
  snapshotCalls autocommit * may (queryCall autocommit)

theorem emits_executeQuery (sql : List Char) : Emits self.issuer autocommit
    (queryCalls autocommit) (self.executeQuery R sql) := by
  unfold executeQuery
  refine .bind_of self.emits_manualReadTransaction
    (fun s a hs => self.manualReadTransaction_isSome hs) (nil_mem_may _) fun manualTxn hm => ?_
  refine .ofExcept_bind (nil_mem_may _) fun bound hb => ?_
  exact .bind_silent (emits_queryStream hm (self.readsWith_readSqlBuilder sql) rfl hb) fun _ => .pure _

/-- Several bound rows share one snapshot, that of the manual transaction if there is one. -/
def boundRowsCalls (autocommit : Bool) : Language CallKind :=
  if autocommit then 1 + one .multiUse * may .boundQuery else may .boundQuery

/-- The calls of a query with bound data. Without a row there is only its schema to ask for. -/
def boundQueryCalls (autocommit : Bool) : Language CallKind :=
  snapshotCalls autocommit *
    (may (queryCall autocommit) + may .plan + boundRowsCalls autocommit)

theorem nil_mem_snapshotCalls (autocommit : Bool) : [] ∈ snapshotCalls autocommit := by
  cases autocommit with
  | true => exact Language.nil_mem_one
  | false => exact nil_mem_may _

theorem nil_mem_boundRowsCalls (autocommit : Bool) : [] ∈ boundRowsCalls autocommit := by
  cases autocommit with
  | true => exact .inl rfl
  | false => exact nil_mem_may _

theorem emits_boundRows (sql : List Char) (groups : List (List (List Char) × Batch K.Data))
    (hm : manualTxn.isSome = !autocommit) :
    Emits self.issuer autocommit (boundRowsCalls autocommit) (do
      let bound ← MonadExcept.ofExcept (K.multiUseTimestampBound self.config.settings)
      let txn ← querySnapshot R manualTxn bound
      return .stream (← perform (.boundQuery txn (self.readSqlBuilder sql) groups) R.stream) :
        Prog Error (Shared K) (Reader K)) := by
  refine .ofExcept_bind (nil_mem_boundRowsCalls _) fun bound hb => ?_
  have hquery : ∀ txn, Emits self.issuer autocommit (may .boundQuery) (do
      return .stream (← perform (.boundQuery txn (self.readSqlBuilder sql) groups) R.stream) :
        Prog Error (Shared K) (Reader K)) := fun txn =>
    .bind_silent (emits_may_perform ⟨self.readsWith_readSqlBuilder sql, rfl⟩ rfl) fun _ => .pure _
  cases manualTxn with
  | some txn =>
    obtain rfl : autocommit = false := by simpa using hm
    exact hquery txn
  | none =>
    obtain rfl : autocommit = true := by simpa using hm
    refine .mono (L := one .multiUse * may .boundQuery) ?_ fun w hw => .inr hw
    exact .bind (emits_perform hb rfl) (nil_mem_may _) hquery

theorem emits_executeBoundQuery (sql : List Char) : Emits self.issuer autocommit
    (boundQueryCalls autocommit) (self.executeBoundQuery R sql) := by
  unfold executeBoundQuery
  have hnil : [] ∈ may (queryCall autocommit) + may .plan + boundRowsCalls autocommit :=
    .inr (nil_mem_boundRowsCalls _)
  refine .ofExcept_bind (nil_mem_mul (nil_mem_snapshotCalls _) hnil) fun groups _ => ?_
  refine .bind_of self.emits_manualReadTransaction
    (fun s a hs => self.manualReadTransaction_isSome hs) hnil fun manualTxn hm => ?_
  split
  · cases groups with
    | nil =>
      refine .mono (L := may .plan) ?_ fun w hw => .inl (.inr hw)
      exact .bind_silent (self.emits_planQuerySchema sql) fun _ => .pure _
    | cons group groups =>
      refine .ofExcept_bind hnil fun params _ => .ofExcept_bind hnil fun bound hb => ?_
      refine .mono (L := may (queryCall autocommit)) ?_ fun w hw => .inl (.inl hw)
      exact .bind_silent (emits_queryStream hm ⟨rfl, rfl⟩ rfl hb) fun _ => .pure _
  · exact (self.emits_boundRows sql groups hm).mono fun w hw => .inr hw

def partitionCalls : Language CallKind := upTo [.plan, .partitionQuery]

theorem emits_runPartitionQuery (sql : List Char) : Emits self.issuer autocommit
    partitionCalls (self.runPartitionQuery R sql) := by
  unfold runPartitionQuery
  have hnil : [] ∈ partitionCalls := nil_mem_upTo _
  refine .ofExcept_bind hnil fun _ _ => .ofExcept_bind hnil fun planStmt hplan => ?_
  refine .ofExcept_bind hnil fun queryStmt hquery => .ofExcept_bind hnil fun bound hb => ?_
  obtain ⟨hplan, hp⟩ := readsWith_of_buildQuery hplan
  obtain ⟨hquery, hq⟩ := readsWith_of_buildQuery hquery
  refine .upTo_bind (emits_perform ⟨hplan, .inl hb⟩ (by simp [Call.kind, hp])) fun schema => ?_
  refine .upTo_bind (emits_perform ⟨hquery, hq, hb⟩ rfl) fun partitions => ?_
  exact (Observer.Emits.bind_silent (.ofExcept _) fun _ => .pure _).of_nil (nil_mem_upTo _)

def parameterCall (sql : List Char) : CallKind :=
  if Sql.isDml (Sql.stripTrailingTerminators sql) then .planDml else .plan

theorem emits_planParameterTypes (sql : List Char) : Emits self.issuer autocommit
    (may (parameterCall sql)) (self.planParameterTypes R sql) := by
  unfold planParameterTypes parameterCall
  dsimp only
  cases Sql.isDdl (Sql.stripTrailingTerminators sql) with
  | true => exact .pure_of (nil_mem_may _)
  | false =>
    cases Sql.isDml (Sql.stripTrailingTerminators sql) with
    | true =>
      refine (emits_isReadOnly _).silent_bind (nil_mem_may _) fun readOnly => ?_
      cases readOnly with
      | true => exact .pure_of (nil_mem_may _)
      | false => exact emits_may_perform ⟨rfl, rfl, rfl, rfl⟩ rfl
    | false => exact emits_may_perform ⟨⟨rfl, rfl⟩, .inr ⟨rfl, rfl⟩⟩ rfl

/-- Only a statement without bound data whose text has parameters asks for their types. -/
def parameterCalls : Language CallKind :=
  match self.bound, self.sql with
  | [], some sql => may (parameterCall sql)
  | _, _ => 1

theorem emits_getParameterSchema : Emits self.issuer autocommit self.parameterCalls
    (self.getParameterSchema R) := by
  unfold getParameterSchema parameterCalls sqlText
  cases self.bound with
  | cons batch bound => exact .pure _
  | nil =>
    cases self.sql with
    | none => exact .throw _
    | some sql =>
      refine .ofExcept_bind (nil_mem_may _) fun text htext => ?_
      cases htext
      dsimp only
      split
      · exact .pure_of (nil_mem_may _)
      · exact .bind_silent (self.emits_planParameterTypes sql).attempt fun _ => .ofExcept _

theorem emits_drainDiscardingRows (reader : Reader K) :
    Emits issuer autocommit (may .fetch) (drainDiscardingRows R reader) := by
  cases reader with
  | batches batches schema => exact .pure_of (nil_mem_may _)
  | stream stream => exact emits_may_perform trivial rfl

end Queries

end Statement
end Session
end SpannerAdbc
