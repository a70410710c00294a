import SpannerAdbc.Session.IngestProtocol
import SpannerAdbc.Session.ReadOnly

/-!
# SpannerAdbc.Session.Calls

The calls of one operation.

`Op.calls` gives each operation of a connection the language of the calls it can make: the order of
the requests of an entry point, as it depends on the text, the options, the bound data and the mode.
`Record.Carries` says which options and texts these requests carry, and `Record.Accounts` where the statements
in the buffer of a manual transaction come from. `World.follows_apply` is the result for one
operation in any state.
-/

namespace SpannerAdbc
namespace Session

open Lib Ingest Txn Lib.Prog Lib.Trace
open scoped Computability

variable {K : Client} {R : Replies K}

/-! ## Entry points of a statement -/

namespace Statement

/-- What a method does from a statement: the calls of a word of `L`, and nothing to the statement
but to consume its bound data. -/
def EmitsAt {α : Type} (self : Statement K) (autocommit : Bool) (L : Language CallKind)
    (m : Method K α) : Prop :=
  ∀ s : Shared K, s.txn.autocommit = autocommit →
    (m.exec (self, s)).2.1.unbound = self.unbound ∧
    Footprint self.issuer s (m.exec (self, s)).2.2 ∧
    ∃ w ∈ L, (m.exec (self, s)).2.2.log.map Call.kind = s.log.map Call.kind ++ w

namespace EmitsAt

variable {α β : Type} {self : Statement K} {autocommit : Bool} {L M : Language CallKind}
  {x : Prog Error (Shared K) α} {m : Method K α} {f : α → Method K β}

theorem mono (hm : EmitsAt self autocommit L m) (h : L ≤ M) : EmitsAt self autocommit M m := by
  intro s hs
  obtain ⟨hself, hfoot, w, hw, hlog⟩ := hm s hs
  exact ⟨hself, hfoot, w, h hw, hlog⟩

theorem congr {m' : Method K α} (h : ∀ s, m.exec (self, s) = m'.exec (self, s))
    (hm : EmitsAt self autocommit L m') : EmitsAt self autocommit L m := by
  intro s hs
  rw [h s]
  exact hm s hs

theorem silent (h : ∀ s, (m.exec (self, s)).2 = (self, s)) (hL : [] ∈ L) :
    EmitsAt self autocommit L m := by
  intro s _
  rw [h s]
  exact ⟨rfl, .refl s, [], hL, by simp⟩

theorem inSnd (h : Emits self.issuer autocommit L x) :
    EmitsAt self autocommit L (x.inSnd : Method K α) :=
  fun s hs => ⟨rfl, h s hs⟩

/-- The attempt consumes the bound data however it ends. -/
theorem consuming (h : Emits self.issuer autocommit L x) :
    EmitsAt self autocommit L (do
      let r ← (x.inSnd : Method K α).attempt
      clearBound
      MonadExcept.ofExcept r) := by
  intro s hs
  rw [exec_consuming]
  exact ⟨rfl, h s hs⟩

theorem getSelf_bind {f : Statement K → Method K β} (h : EmitsAt self autocommit L (f self)) :
    EmitsAt self autocommit L (getSelf >>= f) := h

theorem ofExcept_bind {r : Except Error α} (hL : [] ∈ L)
    (h : ∀ a, r = .ok a → EmitsAt self autocommit L (f a)) :
    EmitsAt self autocommit L (MonadExcept.ofExcept r >>= f) := by
  cases r with
  | error e => exact silent (fun _ => rfl) hL
  | ok a => exact h a rfl

theorem bind (hm : EmitsAt self autocommit L m) (hM : [] ∈ M)
    (hf : ∀ a self', self'.unbound = self.unbound → EmitsAt self' autocommit M (f a)) :
    EmitsAt self autocommit (L * M) (m >>= f) := by
  intro s hs
  obtain ⟨hself, hfoot, w, hw, hlog⟩ := hm s hs
  rw [exec_bind]
  generalize m.exec (self, s) = r at hself hfoot hlog ⊢
  obtain ⟨e | a, self', s'⟩ := r
  · exact ⟨hself, hfoot, w, le_mul_right hM hw, hlog⟩
  · have hissuer : self'.unbound.issuer = self.unbound.issuer := congrArg Statement.issuer hself
    obtain ⟨hself', hfoot', w', hw', hlog'⟩ := hf a self' hself s' (hfoot.autocommit.trans hs)
    rw [show self'.issuer = self.issuer from hissuer] at hfoot'
    refine ⟨hself'.trans hself, hfoot.trans hfoot', w ++ w', Language.append_mem_mul hw hw', ?_⟩
    rw [hlog', hlog, List.append_assoc]

theorem bind_pure (hm : EmitsAt self autocommit L m) (g : α → β) :
    EmitsAt self autocommit L (m >>= fun a => pure (g a)) := by
  have h := hm.bind (M := 1) Language.nil_mem_one fun a self' _ =>
    silent (m := (pure (g a) : Method K β)) (fun _ => rfl) Language.nil_mem_one
  rwa [mul_one] at h

theorem inSnd_bind (hx : Emits self.issuer autocommit 1 x) (hL : [] ∈ L)
    (hf : ∀ a, EmitsAt self autocommit L (f a)) :
    EmitsAt self autocommit L ((x.inSnd : Method K α) >>= f) := by
  intro s hs
  obtain ⟨hfoot, w, hw, hlog⟩ := hx s hs
  obtain rfl : w = [] := hw
  rw [List.append_nil] at hlog
  rw [exec_bind, exec_inSnd]
  generalize x.exec s = r at hfoot hlog ⊢
  obtain ⟨e | a, s'⟩ := r
  · exact ⟨rfl, hfoot, [], hL, by rw [List.append_nil]; exact hlog⟩
  · obtain ⟨hself, hfoot', w', hw', hlog'⟩ := hf a s' (hfoot.autocommit.trans hs)
    refine ⟨hself, hfoot.trans hfoot', w', hw', ?_⟩
    rw [hlog']
    exact congrArg (· ++ w') hlog

end EmitsAt

section Entry

variable {self : Statement K} {autocommit : Bool}

theorem emits_runIngest {table : List Char} (hsql : self.sql = none)
    (htable : self.targetTable = some table) :
    EmitsAt self autocommit (self.ingestCalls autocommit) (runIngest R table) := by
  have hnil := self.nil_mem_ingestCalls autocommit
  refine .getSelf_bind (.inSnd_bind (emits_ensureWritable _ _) hnil fun _ => ?_)
  split
  · exact .silent (fun _ => rfl) hnil
  · exact .consuming (self.emits_runBoundIngest hsql htable)

/-- The calls of a query. -/
def readerCalls (self : Statement K) (autocommit : Bool) : Language CallKind :=
  if self.bound.isEmpty then queryCalls autocommit else boundQueryCalls autocommit

theorem nil_mem_readerCalls (self : Statement K) (autocommit : Bool) :
    [] ∈ self.readerCalls autocommit := by
  unfold readerCalls
  split
  · exact nil_mem_mul (nil_mem_snapshotCalls _) (nil_mem_may _)
  · exact nil_mem_mul (nil_mem_snapshotCalls _) (.inr (nil_mem_boundRowsCalls _))

theorem emits_executeQueryReader (sql : List Char) :
    EmitsAt self autocommit (self.readerCalls autocommit) (executeQueryReader R sql) := by
  refine .getSelf_bind (.inSnd_bind emits_ensureQueryAllowed (self.nil_mem_readerCalls _) fun _ => ?_)
  unfold readerCalls
  cases self.bound.isEmpty with
  | false => exact .consuming (self.emits_executeBoundQuery _)
  | true => exact .inSnd (self.emits_executeQuery _)

variable {sql : List Char}

theorem emits_runDmlConsuming (hsql : self.sql = some sql) : EmitsAt self autocommit
    (autocommitOnly autocommit (self.dmlCall sql)) (runDmlConsuming R sql) :=
  .getSelf_bind (.consuming (self.emits_runDml hsql))

theorem emits_clearBound : EmitsAt self autocommit 1 (clearBound (K := K)) :=
  fun s _ => ⟨rfl, .refl s, [], rfl, (List.append_nil _).symm⟩

theorem emits_runDdlConsuming (hsql : self.sql = some sql) :
    EmitsAt self autocommit (may .updateDatabaseDdl) (runDdlConsuming R sql) := by
  refine .getSelf_bind (.mono (L := may .updateDatabaseDdl * 1) ?_ (mul_one _).le)
  have hddl : ∀ text ∈ Sql.splitStatements sql, self.issuer.ddl text := by
    intro text ht
    simpa only [issuer, hsql] using ht
  exact .bind (.inSnd (self.emits_runDdl hddl)) Language.nil_mem_one fun _ _ _ => emits_clearBound

/-- The calls of a text: `query` is what a query makes of it. -/
def textCalls (self : Statement K) (autocommit : Bool) (sql : List Char)
    (query : Language CallKind) : Language CallKind :=
  if Sql.isDdl sql then may .updateDatabaseDdl
  else if Sql.isDml sql then autocommitOnly autocommit (self.dmlCall sql)
  else query

/-- The calls of an execution. -/
def executionCalls (self : Statement K) (autocommit : Bool) (query : Language CallKind) :
    Language CallKind :=
  match self.sql, self.targetTable with
  | some sql, _ => self.textCalls autocommit sql query
  | none, some _ => self.ingestCalls autocommit
  | none, none => 1

theorem executionCalls_of_sql {sql : List Char} (hsql : self.sql = some sql)
    (query : Language CallKind) :
    self.executionCalls autocommit query = self.textCalls autocommit sql query := by
  rw [executionCalls, hsql]

theorem executionCalls_of_ingest {table : List Char} (hsql : self.sql = none)
    (htable : self.targetTable = some table) (query : Language CallKind) :
    self.executionCalls autocommit query = self.ingestCalls autocommit := by
  rw [executionCalls, hsql, htable]

/-- Without a text and a target an execution is refused. -/
theorem emits_untargeted {α : Type} {f : List Char → Method K α} (hsql : self.sql = none) :
    EmitsAt self autocommit 1 (do
      MonadExcept.ofExcept self.checkBoundHasDestination
      let sql ← MonadExcept.ofExcept self.sqlText
      f sql) := by
  refine .ofExcept_bind Language.nil_mem_one fun _ _ => ?_
  refine .ofExcept_bind Language.nil_mem_one fun sql h => ?_
  rw [sqlText, hsql] at h
  cases h

theorem emits_execute : EmitsAt self autocommit
    (self.executionCalls autocommit (self.readerCalls autocommit)) (execute R) := by
  cases hsql : self.sql with
  | none =>
    cases htable : self.targetTable with
    | some table =>
      rw [executionCalls_of_ingest hsql htable]
      refine .congr (fun _ => exec_execute_ingest hsql htable) ?_
      exact .bind_pure (emits_runIngest hsql htable) _
    | none =>
      refine .getSelf_bind ?_
      rw [executionCalls, hsql, htable]
      exact emits_untargeted hsql
  | some sql =>
    rw [executionCalls_of_sql hsql]
    refine .congr (fun _ => exec_execute_sql hsql) ?_
    unfold textCalls
    cases Sql.isDdl sql with
    | true => exact .bind_pure (emits_runDdlConsuming hsql) _
    | false =>
      cases Sql.isDml sql with
      | true => exact .bind_pure (emits_runDmlConsuming hsql) _
      | false => exact emits_executeQueryReader sql

theorem emits_executeUpdate : EmitsAt self autocommit
    (self.executionCalls autocommit (self.readerCalls autocommit * may .fetch))
    (executeUpdate R) := by
  cases hsql : self.sql with
  | none =>
    cases htable : self.targetTable with
    | some table =>
      rw [executionCalls_of_ingest hsql htable]
      exact .congr (fun _ => exec_executeUpdate_ingest hsql htable) (emits_runIngest hsql htable)
    | none =>
      refine .getSelf_bind ?_
      rw [executionCalls, hsql, htable]
      exact emits_untargeted hsql
  | some sql =>
    rw [executionCalls_of_sql hsql]
    refine .congr (fun _ => exec_executeUpdate_sql hsql) ?_
    unfold textCalls
    cases Sql.isDdl sql with
    | true => exact .bind_pure (emits_runDdlConsuming hsql) _
    | false =>
      cases Sql.isDml sql with
      | true => exact .bind_pure (emits_runDmlConsuming hsql) _
      | false =>
        have hnil : [] ∈ self.readerCalls autocommit * may .fetch :=
          nil_mem_mul (self.nil_mem_readerCalls _) (nil_mem_may _)
        refine .ofExcept_bind hnil fun _ _ => ?_
        refine .bind (emits_executeQueryReader sql) (nil_mem_may _) fun reader self' _ => ?_
        exact .bind_pure (.inSnd (emits_drainDiscardingRows reader)) _

theorem emits_executeSchema : EmitsAt self autocommit (may .plan) (executeSchema R) := by
  refine .getSelf_bind (.ofExcept_bind (nil_mem_may _) fun sql _ => ?_)
  refine .ofExcept_bind (nil_mem_may _) fun _ _ => ?_
  exact .inSnd (self.emits_planQuerySchema _)

theorem emits_executePartitions : EmitsAt self autocommit partitionCalls (executePartitions R) := by
  have hnil : [] ∈ partitionCalls := nil_mem_upTo _
  refine .getSelf_bind (.ofExcept_bind hnil fun sql _ => .ofExcept_bind hnil fun _ _ => ?_)
  refine .inSnd_bind emits_ensureQueryAllowed hnil fun _ => ?_
  exact .consuming (self.emits_runPartitionQuery _)

end Entry

/-- The calls of an operation on the statement. -/
def calls (self : Statement K) (autocommit : Bool) : StatementOp K → Language CallKind
  | .setOption _ _ | .setSqlQuery _ | .bind _ | .bindStream _ | .prepare => 1
  | .execute => self.executionCalls autocommit (self.readerCalls autocommit)
  | .executeUpdate => self.executionCalls autocommit (self.readerCalls autocommit * may .fetch)
  | .executeSchema => may .plan
  | .executePartitions => partitionCalls
  | .getParameterSchema => self.parameterCalls

end Statement

/-- What an operation on a statement does to the shared state. -/
def StatementOp.Follows (R : Replies K) (op : StatementOp K) (self : Statement K) (s : Shared K) :
    Prop :=
  Footprint self.issuer s ((op.run R).exec (self, s)).2.2 ∧
    ∃ w ∈ self.calls s.txn.autocommit op,
      ((op.run R).exec (self, s)).2.2.log.map Call.kind = s.log.map Call.kind ++ w

namespace StatementOp

variable {self : Statement K} {s : Shared K} {op : StatementOp K}

theorem follows_of_emitsAt {α : Type} {m : Statement.Method K α} {value : α → Value K}
    (hop : op.run R = (do return value (← m)))
    (hm : Statement.EmitsAt self s.txn.autocommit (self.calls s.txn.autocommit op) m) :
    op.Follows R self s := by
  unfold Follows
  rw [hop]
  exact (Statement.EmitsAt.bind_pure hm value s rfl).2

/-- Setters do not touch the shared state. -/
theorem exec_update_shared (f : Statement K → Except Error (Statement K)) :
    ((update f).exec (self, s)).2.2 = s := by
  unfold update
  rw [exec_bind_ok (exec_get _), exec_bind, exec_ofExcept]
  cases f (self, s).1 <;> rfl

theorem follows_of_update {f : Statement K → Except Error (Statement K)}
    (hop : op.run R = (do update f; return .unit)) (hcalls : self.calls s.txn.autocommit op = 1) :
    op.Follows R self s := by
  unfold Follows
  rw [hop, hcalls, exec_bind_pure, exec_update_shared]
  exact ⟨.refl s, [], rfl, by simp⟩

theorem follows (op : StatementOp K) (self : Statement K) (s : Shared K) :
    op.Follows R self s := by
  cases op with
  | setOption key value => exact follows_of_update rfl rfl
  | setSqlQuery query => exact follows_of_update rfl rfl
  | bind batch => exact follows_of_update rfl rfl
  | bindStream reader => exact follows_of_update rfl rfl
  | prepare => exact follows_of_update rfl rfl
  | execute => exact follows_of_emitsAt rfl Statement.emits_execute
  | executeUpdate => exact follows_of_emitsAt rfl Statement.emits_executeUpdate
  | executeSchema => exact follows_of_emitsAt rfl Statement.emits_executeSchema
  | executePartitions => exact follows_of_emitsAt rfl Statement.emits_executePartitions
  | getParameterSchema =>
    refine (Statement.EmitsAt.bind_pure
      (.inSnd self.emits_getParameterSchema) Value.schema s rfl).2

end StatementOp

/-! ## Ending a transaction -/

/-- The call that applies the work of a manual transaction. -/
def applyCall (settings : K.Settings) :
    ManualTxn (SpannerSql K) K.Mutation K.Handle → Option (Call K)
  | .unset | .read _ => none
  | .dml [] [] => none
  | .dml [] (mutation :: mutations) => some (.writeOnly settings (mutation :: mutations))
  | .dml (statement :: statements) mutations =>
    some (.readWrite settings (.batchUpdate (statement :: statements) mutations false))

/-- What applying the work does: nothing, or that one call. -/
structure Applies (settings : K.Settings) (work : ManualTxn (SpannerSql K) K.Mutation K.Handle)
    (s s' : Shared K) : Prop where
  txn : s'.txn = s.txn
  log : s'.log = s.log ∨ ∃ call, applyCall settings work = some call ∧ s'.log = s.log ++ [call]

/-- The buffered statements are kept or dropped, and the only call is the one that applies the work
of a manual transaction. -/
structure Completes (settings : K.Settings) (s s' : Shared K) : Prop where
  log : s'.log = s.log ∨ s.txn.autocommit = false ∧
    ∃ call, applyCall settings s.txn.txn = some call ∧ s'.log = s.log ++ [call]
  buffer : s'.txn.txn.work.statements = s.txn.txn.work.statements ∨ s'.txn.txn.work.statements = []

namespace Connection

variable {config : SharedConfig K}

theorem applies_applyManualTxn (R : Replies K) (config : SharedConfig K)
    (work : ManualTxn (SpannerSql K) K.Mutation K.Handle) (s : Shared K) :
    Applies config.settings work s ((applyManualTxn R config work).exec s).2 := by
  unfold applyManualTxn
  rw [exec_bind_ok (config.exec_isReadOnly s), exec_bind, exec_ofExcept]
  cases checkCommitWritable (s.flags config.readOnly) work with
  | error e => exact ⟨rfl, .inl rfl⟩
  | ok u =>
    cases work with
    | unset => exact ⟨rfl, .inl rfl⟩
    | read txn => exact ⟨rfl, .inl rfl⟩
    | dml statements mutations =>
      dsimp only
      cases statements with
      | nil =>
        cases mutations with
        | nil => exact ⟨rfl, .inl rfl⟩
        | cons mutation mutations =>
          rw [show (applyTransaction R config [] (mutation :: mutations)).exec s = _ from
            exec_perform _ _ s]
          exact ⟨rfl, .inr ⟨_, rfl, rfl⟩⟩
      | cons statement statements =>
        unfold applyTransaction Statement.runBatchTxn
        simp only [List.isEmpty_cons, Bool.false_eq_true, Bool.false_and, if_false]
        rw [exec_bind_pure, exec_perform]
        exact ⟨rfl, .inr ⟨_, rfl, rfl⟩⟩

theorem completes_commit (R : Replies K) (config : SharedConfig K) (s : Shared K) :
    Completes config.settings s ((commit R config).exec s).2 := by
  cases hm : s.txn.autocommit with
  | true =>
    rw [exec_commit_autocommit hm]
    exact ⟨.inl rfl, .inl rfl⟩
  | false =>
    have happlies := applies_applyManualTxn R config s.txn.txn s
    unfold commit
    rw [exec_bind, exec_withTxn, hm]
    simp only [Bool.false_eq_true, if_false, exec_bind]
    generalize (applyManualTxn R config s.txn.txn).exec s = r at happlies
    obtain ⟨result, s'⟩ := r
    have htxn : s'.txn = s.txn := happlies.txn
    have hlog := happlies.log.imp_right fun h => And.intro hm h
    cases result with
    | error e => exact ⟨hlog, .inl (by rw [htxn])⟩
    | ok u =>
      dsimp only
      rw [exec_withTxn]
      refine ⟨hlog, .inr ?_⟩
      dsimp only
      rw [htxn, TxnState.finishCommit_self]
      rfl

theorem completes_setAutocommit (enable : Bool) (s : Shared K) :
    Completes config.settings s ((setAutocommit R config enable).exec s).2 := by
  cases h : enable && !s.txn.autocommit with
  | false =>
    rw [exec_setAutocommit_of_not h]
    exact ⟨.inl rfl, .inl rfl⟩
  | true =>
    obtain ⟨rfl, hm⟩ : enable = true ∧ s.txn.autocommit = false := by simpa using h
    have happlies := applies_applyManualTxn R config s.txn.txn
      { s with txn := { autocommit := true, txn := .unset } }
    unfold setAutocommit
    rw [exec_bind, exec_withTxn, h]
    simp only [if_true, TxnState.enterAutocommit]
    rw [exec_bind_ok (exec_attempt _ _)]
    generalize (applyManualTxn R config s.txn.txn).exec
      { s with txn := { autocommit := true, txn := .unset } } = r at happlies
    obtain ⟨result, s'⟩ := r
    have htxn : s'.txn = { autocommit := true, txn := .unset } := happlies.txn
    have hlog := happlies.log.imp_right fun h => And.intro hm h
    cases result with
    | ok u => exact ⟨hlog, .inr (by rw [exec_pure, htxn]; rfl)⟩
    | error e =>
      -- the taken work is put back
      refine ⟨?_, .inl ?_⟩
      · rw [exec_bind, exec_withTxn]
        exact hlog
      · rw [exec_bind, exec_withTxn]
        rfl

section Metadata

variable (R : Replies K) (config : SharedConfig K) (reported : List Char)
  (catalog : Option (List Char)) {autocommit : Bool}

theorem emits_getTableSchema (dbSchema : Option (List Char)) (table : List Char) :
    Emits config.issuer autocommit (upTo [.query, .tableExists])
      (getTableSchema R config reported catalog dbSchema table) := by
  have hnil := nil_mem_upTo [CallKind.query, .tableExists]
  unfold getTableSchema
  refine .ofExcept_bind hnil fun _ _ => .ofExcept_bind hnil fun name _ => ?_
  refine .ofExcept_bind hnil fun bound hb => ?_
  refine .upTo_bind (Observer.Emits.attempt (emits_perform ⟨⟨rfl, rfl⟩, .inl hb⟩ rfl))
    fun result => ?_
  cases result with
  | ok schema => exact .pure_of (nil_mem_upTo _)
  | error error =>
    refine .upTo_bind (Observer.Emits.attempt (emits_perform trivial rfl)) fun found => ?_
    rcases found with e | _ | _ <;> exact (Observer.Emits.throw _).of_nil (nil_mem_upTo _)

theorem emits_metadataSnapshot {α : Type} {rest : List CallKind}
    {f : K.Handle → Prog Error (Shared K) α}
    (hf : ∀ txn, Emits config.issuer autocommit (upTo rest) (f txn)) :
    Emits config.issuer autocommit (upTo (.multiUse :: rest)) (metadataSnapshot R config >>= f) := by
  unfold metadataSnapshot
  rw [bind_assoc]
  exact .ofExcept_bind (nil_mem_upTo _) fun bound hb => .upTo_bind (emits_perform hb rfl) hf

theorem readsWith_objectStatements (depth : Objects.ObjectDepth) (filters : Objects.ObjectFilters) :
    ∀ statement ∈ objectStatements config depth filters,
      statement.ReadsWith config.issuer ∧ statement.plan = false := by
  unfold objectStatements
  refine List.forall_mem_cons.mpr ⟨⟨⟨rfl, rfl⟩, rfl⟩, List.forall_mem_append.mpr ⟨?_, ?_⟩⟩ <;>
    split <;> simp [filteredQuery, metadataSqlBuilder, SpannerSql.ReadsWith, SharedConfig.issuer]

theorem emits_getObjects (depth : Objects.ObjectDepth) (filters : Objects.ObjectFilters) :
    Emits config.issuer autocommit (upTo [.multiUse, .readTogether])
      (getObjects R config reported depth catalog filters) := by
  unfold getObjects collectObjects
  split
  · exact .pure_of (nil_mem_upTo _)
  · refine .bind_silent ?_ fun _ => .bind_silent (.ofExcept _) fun _ => .pure _
    split
    · exact .pure_of (nil_mem_upTo _)
    · refine emits_metadataSnapshot R config fun txn => ?_
      refine .upTo_bind (emits_perform (readsWith_objectStatements config depth filters) rfl) fun _ => ?_
      exact (Observer.Emits.ofExcept _).of_nil (nil_mem_upTo _)

theorem emits_getStatistics (dbSchema tableName : Option (List Char)) :
    Emits config.issuer autocommit (upTo [.multiUse, .readQuery, .readQuery, .readTogether])
      (getStatistics R config reported catalog dbSchema tableName) := by
  unfold getStatistics collectStatistics
  split
  · exact .pure_of (nil_mem_upTo _)
  · refine .bind_silent ?_ fun _ => .bind_silent (.ofExcept _) fun _ => .pure _
    refine emits_metadataSnapshot R config fun txn => ?_
    refine .upTo_bind (emits_perform ⟨⟨rfl, rfl⟩, rfl⟩ rfl) fun tables => ?_
    refine .upTo_bind (emits_perform ⟨⟨rfl, rfl⟩, rfl⟩ rfl) fun columns => ?_
    refine .ofExcept_bind (nil_mem_upTo _) fun prepared _ => ?_
    refine .upTo_bind (emits_perform (List.forall_mem_map.mpr fun _ _ => ⟨⟨rfl, rfl⟩, rfl⟩) rfl)
      fun batches => ?_
    exact (Observer.Emits.bind_silent (.ofExcept _) fun _ => .pure _).of_nil (nil_mem_upTo _)

end Metadata

end Connection

/-! ## Operations -/

/-- Only a manual transaction with work makes a call to end. -/
def World.completionCalls (w : World K) : Language CallKind :=
  if w.shared.txn.autocommit then 1
  else (applyCall w.config.settings w.shared.txn.txn).elim 1 fun call => may call.kind

/-- The calls of an operation, in the order in which it makes them. -/
def Op.calls (w : World K) : Op K → Language CallKind
  | .commit | .setOption .autocommit _ => w.completionCalls
  | .getTableSchema _ _ _ => upTo [.query, .tableExists]
  | .getObjects _ _ _ => upTo [.multiUse, .readTogether]
  | .getStatistics _ _ _ => upTo [.multiUse, .readQuery, .readQuery, .readTogether]
  | .readPartition _ => may .executePartition
  | .onStatement i op =>
    (w.statements[i]?).elim 1 fun self => self.calls w.shared.txn.autocommit op
  | .setOption _ _ | .newStatement | .rollback => 1

/-- The statements in the buffer of a manual transaction. -/
abbrev World.buffer (w : World K) : List (SpannerSql K) := w.shared.txn.txn.work.statements

namespace Record

/-- What the calls of an operation carry: the options and the texts of the statement or the
connection it is on, or the work of the transaction it ends with the options of the connection. -/
def Carries (r : Record K) : Prop :=
  match r.op with
  | .onStatement i _ => ∀ self, r.before.statements[i]? = some self →
      ∀ c ∈ r.calls, c.IssuedBy self.issuer
  | .getTableSchema _ _ _ | .getObjects _ _ _ | .getStatistics _ _ _ =>
    ∀ c ∈ r.calls, c.IssuedBy r.before.config.issuer
  | .commit | .setOption .autocommit _ =>
    ∀ c ∈ r.calls, applyCall r.before.config.settings r.before.shared.txn.txn = some c
  | .readPartition descriptor => ∀ c ∈ r.calls,
      ∃ partition, K.decodePartition descriptor = .ok partition ∧ c = .executePartition partition
  | .setOption _ _ | .newStatement | .rollback => r.calls = []

structure Follows (r : Record K) : Prop where
  logged : r.after.shared.log = r.before.shared.log ++ r.calls
  order : r.calls.map Call.kind ∈ r.op.calls r.before
  carried : r.Carries

/-- The statements that the operation has buffered. -/
def newlyBuffered (r : Record K) : List (SpannerSql K) :=
  r.after.buffer.drop r.before.buffer.length

/-- The operation has buffered the statement, with the options and a text of its own statement. -/
def Buffers (r : Record K) (statement : SpannerSql K) : Prop :=
  statement ∈ r.newlyBuffered ∧ ∃ i op self, r.op = .onStatement i op ∧
    r.before.statements[i]? = some self ∧ statement.Writes self.issuer

/-- The buffer is kept or emptied, or an operation on a statement adds to it. -/
def Accounts (r : Record K) : Prop :=
  (r.after.buffer = r.before.buffer ∨ r.after.buffer = []) ∨ ∃ i op self,
    r.op = .onStatement i op ∧ r.before.statements[i]? = some self ∧
      Grows (SpannerSql.Writes self.issuer) r.before.buffer r.after.buffer

variable {r : Record K} {calls : List (Call K)}

theorem calls_of_log (h : r.after.shared.log = r.before.shared.log ++ calls) : r.calls = calls := by
  rw [Record.calls, h, List.drop_left]

theorem follows_of_log (h : r.after.shared.log = r.before.shared.log ++ calls)
    (hcalls : calls.map Call.kind ∈ r.op.calls r.before) (hcarries : r.calls = calls → r.Carries) :
    r.Follows := by
  have hc := calls_of_log h
  refine ⟨by rw [hc, h], ?_, hcarries hc⟩
  rw [hc]
  exact hcalls

theorem follows_of_same (h : r.after.shared.log = r.before.shared.log)
    (hcalls : [] ∈ r.op.calls r.before) (hcarries : r.calls = [] → r.Carries) : r.Follows :=
  follows_of_log (h.trans (List.append_nil _).symm) hcalls hcarries

theorem follows_of_completes (h : Completes r.before.config.settings r.before.shared r.after.shared)
    (hcalls : r.op.calls r.before = r.before.completionCalls)
    (hcarries : (∀ c ∈ r.calls,
      applyCall r.before.config.settings r.before.shared.txn.txn = some c) → r.Carries) :
    r.Follows := by
  rcases h.log with hlog | ⟨hm, call, hcall, hlog⟩
  · refine follows_of_same hlog ?_ fun hnone => hcarries (by rw [hnone]; simp)
    rw [hcalls, World.completionCalls]
    split
    · rfl
    · cases applyCall r.before.config.settings r.before.shared.txn.txn with
      | none => rfl
      | some call => exact nil_mem_may _
  · refine follows_of_log hlog ?_ fun hone => hcarries (by rw [hone]; simpa using hcall)
    rw [hcalls, World.completionCalls, hm, hcall]
    exact .inr rfl

theorem follows_of_emits {issuer : Issuer K} {L : Language CallKind}
    (h : Footprint issuer r.before.shared r.after.shared ∧ ∃ w ∈ L,
      r.after.shared.log.map Call.kind = r.before.shared.log.map Call.kind ++ w)
    (hcalls : r.op.calls r.before = L)
    (hcarries : (∀ c ∈ r.calls, c.IssuedBy issuer) → r.Carries) : r.Follows := by
  obtain ⟨hfoot, word, hword, hkinds⟩ := h
  have hlogged : r.after.shared.log = r.before.shared.log ++ r.calls := hfoot.log.append_drop
  refine ⟨hlogged, ?_, hcarries hfoot.log.of_mem_drop⟩
  rw [hlogged, List.map_append] at hkinds
  rw [hcalls, List.append_cancel_left hkinds]
  exact hword

end Record

namespace World

variable {w : World K} {r : Except Error (Value K) × World K}

theorem follows_setOption (key : ConnectionOption) (value : OptionValue) :
    (w.record (.setOption key value) (w.setOption R key value)).Follows ∧
      (w.record (.setOption key value) (w.setOption R key value)).Accounts := by
  cases key with
  | autocommit =>
    have h : Completes w.config.settings w.shared (w.setOption R .autocommit value).2.shared := by
      change Completes w.config.settings w.shared (Prog.exec (MonadExcept.ofExcept _ >>= _) w.shared).2
      cases boolOption K value "option adbc.connection.autocommit".toList with
      | error e => exact ⟨.inl rfl, .inl rfl⟩
      | ok enable => exact Connection.completes_setAutocommit enable w.shared
    exact ⟨Record.follows_of_completes h rfl id, .inl h.buffer⟩
  | readOnly =>
    have h : (w.setOption R .readOnly value).2.shared.log = w.shared.log ∧
        (w.setOption R .readOnly value).2.shared.txn = w.shared.txn := by
      change (Prog.exec (MonadExcept.ofExcept _ >>= _) w.shared).2.log = _ ∧
        (Prog.exec (MonadExcept.ofExcept _ >>= _) w.shared).2.txn = _
      cases boolOption K value "option adbc.connection.readonly".toList with
      | error e => exact ⟨rfl, rfl⟩
      | ok flag => exact ⟨rfl, rfl⟩
    refine ⟨Record.follows_of_same h.1 rfl id, .inl (.inl ?_)⟩
    exact congrArg (fun txn => txn.txn.work.statements) h.2
  | other key =>
    have h : (w.setOption R (.other key) value).2.shared = w.shared := by
      cases hset : K.setConnectionOption key value w.config.settings <;> simp [setOption, hset]
    refine ⟨Record.follows_of_same (congrArg Shared.log h) rfl id, .inl (.inl ?_)⟩
    exact congrArg (fun s => s.txn.txn.work.statements) h

/-- A partition is executed if its descriptor can be read. -/
theorem readPartition_cases (R : Replies K) (descriptor : List UInt8) (s : Shared K) :
    ((Connection.readPartition R descriptor).exec s).2 = s ∨
    ∃ partition, K.decodePartition descriptor = .ok partition ∧
      ((Connection.readPartition R descriptor).exec s).2 =
        { s with log := s.log ++ [.executePartition partition] } := by
  unfold Connection.readPartition
  cases hd : K.decodePartition descriptor with
  | error e => exact .inl rfl
  | ok partition =>
    refine .inr ⟨partition, rfl, ?_⟩
    rw [exec_bind_ok (exec_ofExcept _ _), exec_bind_pure, exec_perform]

theorem follows_readPartition {descriptor : List UInt8}
    (h : r.2.shared = w.shared ∨
      ∃ partition, K.decodePartition descriptor = .ok partition ∧
        r.2.shared = { w.shared with log := w.shared.log ++ [.executePartition partition] }) :
    (w.record (.readPartition descriptor) r).Follows ∧
      (w.record (.readPartition descriptor) r).Accounts := by
  rcases h with h | ⟨partition, hd, h⟩
  · refine ⟨Record.follows_of_same (congrArg Shared.log h) (nil_mem_may _) fun hnone c hc => ?_,
      .inl (.inl (congrArg (·.txn.txn.work.statements) h))⟩
    rw [hnone] at hc
    cases hc
  · refine ⟨Record.follows_of_log (congrArg Shared.log h) (.inr rfl) fun hone c hc => ?_,
      .inl (.inl (congrArg (·.txn.txn.work.statements) h))⟩
    rw [hone] at hc
    exact ⟨partition, hd, List.mem_singleton.mp hc⟩

/-- A metadata read of the connection. -/
theorem follows_onShared {α : Type} {op : Op K} {x : Prog Error (Shared K) α} {value : α → Value K}
    {L : Language CallKind} (he : Emits w.config.issuer w.shared.txn.autocommit L x)
    (hreads : Keeps Reads x) (hcalls : op.calls w = L)
    (hcarries : (∀ c ∈ (w.record op (w.onShared x value)).calls, c.IssuedBy w.config.issuer) →
      (w.record op (w.onShared x value)).Carries) :
    (w.record op (w.onShared x value)).Follows ∧ (w.record op (w.onShared x value)).Accounts :=
  ⟨Record.follows_of_emits (he w.shared rfl) hcalls hcarries,
    .inl (.inl (congrArg Work.statements (hreads w.shared).work))⟩

/-- One operation. -/
theorem follows_apply {op : Op K} (h : w.apply R op = some r) :
    (w.record op r).Follows ∧ (w.record op r).Accounts := by
  cases op with
  | setOption key value =>
    cases h
    exact follows_setOption key value
  | newStatement =>
    cases h
    exact ⟨Record.follows_of_same rfl rfl id, .inl (.inl rfl)⟩
  | commit =>
    cases h
    have hc := Connection.completes_commit R w.config w.shared
    exact ⟨Record.follows_of_completes hc rfl id, .inl hc.buffer⟩
  | rollback =>
    cases h
    have hlog : (Connection.rollback.exec w.shared).2.log = w.shared.log := by
      rw [Connection.rollback, exec_withTxn]
    refine ⟨Record.follows_of_same hlog rfl id, .inl ?_⟩
    change (Connection.rollback.exec w.shared).2.txn.txn.work.statements = _ ∨
      (Connection.rollback.exec w.shared).2.txn.txn.work.statements = []
    rw [Connection.rollback, exec_withTxn]
    dsimp only
    split
    · exact .inl rfl
    · exact .inr rfl
  | getTableSchema catalog dbSchema table =>
    cases h
    exact follows_onShared (Connection.emits_getTableSchema R w.config w.catalog _ _ _)
      (Connection.reads_getTableSchema w.config w.catalog _ _ _) rfl id
  | getObjects depth catalog filters =>
    cases h
    exact follows_onShared (Connection.emits_getObjects R w.config w.catalog _ _ _)
      (Connection.reads_getObjects w.config w.catalog _ _ _) rfl id
  | getStatistics catalog dbSchema tableName =>
    cases h
    exact follows_onShared (Connection.emits_getStatistics R w.config w.catalog _ _ _)
      (Connection.reads_getStatistics w.config w.catalog _ _ _) rfl id
  | readPartition descriptor =>
    cases h
    exact follows_readPartition (readPartition_cases R descriptor w.shared)
  | onStatement i op =>
    simp only [apply, onStatement] at h
    cases hself : w.statements[i]? with
    | none =>
      rw [hself] at h
      cases h
    | some self =>
      rw [hself] at h
      cases h
      have hop := op.follows (R := R) self w.shared
      refine ⟨Record.follows_of_emits hop ?_ ?_, .inr ⟨i, op, self, rfl, hself, hop.1.buffer⟩⟩
      · change (w.statements[i]?).elim 1 _ = _
        rw [hself]
        rfl
      · intro hissued self' hself'
        rw [Option.some.inj (hself'.symm.trans hself)]
        exact hissued

end World

end Session
end SpannerAdbc
