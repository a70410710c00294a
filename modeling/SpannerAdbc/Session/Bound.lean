import SpannerAdbc.Session.Connection

/-!
# SpannerAdbc.Session.Bound

What an execution attempt leaves of the data bound to a statement.

`clear_bound` drops the bound rows and the schema of an empty bound stream together. DML, bulk
ingest, a query with bound batches and a partitioned query run it however they end
(`self_consuming`), but not every path of the three entry points gets that far: `Consumes` lists the
ones that do, and `bound_consumed_iff` is exact.
-/

namespace SpannerAdbc
namespace Session

open Lib Ingest Txn Lib.Prog

variable {K : Client} {R : Replies K}

theorem Statement.unbound_eq_self_iff {self : Statement K} :
    self = self.unbound ↔ self.bound = [] ∧ self.ingestSchema = none := by
  obtain ⟨config, sql, bound, ingestSchema⟩ := self
  simp [unbound]

/-- The operations that execute a statement. -/
def StatementOp.Executes : StatementOp K → Prop
  | .execute | .executeUpdate | .executePartitions => True
  | _ => False

/-- The server takes the schema change that `sql` stands for. -/
def Statement.DdlTaken (R : Replies K) (self : Statement K) (s : Shared K) (sql : List Char) : Prop :=
  s.flags self.config.readOnly = false ∧
    ∃ u, R.done (s.log ++ [.updateDatabaseDdl (Sql.splitStatements sql)]) = .ok u

/-- A query may join the open transaction. -/
def Shared.QueryAllowed (s : Shared K) : Prop := s.txn.checkKindAllowed .read = .ok ()

namespace Statement

variable (R : Replies K) (self : Statement K) (s : Shared K)

/-- `execute` and `execute_update` get as far as `clear_bound`, with a query or an ingest target. -/
def ConsumesRows (update : Bool) : Prop :=
  match self.sql with
  | none => s.flags self.config.readOnly = false
  | some sql =>
    if Sql.isDdl sql then self.DdlTaken R s sql
    else if Sql.isDml sql then True
    else (update = true → checkAllDmlBatch K (Sql.splitStatements sql) = .ok ()) ∧
      s.QueryAllowed ∧ self.bound ≠ []

/-- An execution that gets as far as `clear_bound`. -/
def Consumes : StatementOp K → Prop
  | .execute => self.ConsumesRows R s false
  | .executeUpdate => self.ConsumesRows R s true
  | .executePartitions =>
    ∃ sql, self.sql = some sql ∧ Sql.isDdl sql = false ∧ Sql.isDml sql = false ∧ s.QueryAllowed
  | _ => False

end Statement

/-! ## The statement behind a program -/

namespace Statement

variable {α β : Type} {self : Statement K} {s : Shared K} {sql : List Char}

/-- The programs that leave the statement alone. -/
def SameSelf (a b : Statement K × Shared K) : Prop := b.1 = a.1

instance : IsPreorder (Statement K × Shared K) SameSelf where
  refl _ := rfl
  trans _ _ _ h h' := h'.trans h

theorem sameSelf_inSnd (x : Prog Error (Shared K) α) :
    Keeps SameSelf (x.inSnd : Method K α) := fun _ => rfl

/-- The statement is settled by the first part when the second leaves it alone. -/
theorem self_bind (x : Method K α) {f : α → Method K β} (hf : ∀ a, Keeps SameSelf (f a))
    (t : Statement K × Shared K) : ((x >>= f).exec t).2.1 = (x.exec t).2.1 := by
  rw [exec_bind]
  generalize x.exec t = r
  obtain ⟨e | a, t'⟩ := r
  · rfl
  · exact hf a t'

theorem self_consuming (x : Prog Error (Shared K) α) :
    ((do let r ← x.inSnd.attempt; clearBound; MonadExcept.ofExcept r : Method K α).exec
      (self, s)).2.1 = self.unbound := by
  rw [exec_consuming]

theorem self_runDmlConsuming (sql : List Char) :
    ((runDmlConsuming R sql).exec (self, s)).2.1 = self.unbound := by
  rw [exec_runDmlConsuming]

/-- Only a schema change that is taken gets as far as `clear_bound`. -/
theorem self_runDdlConsuming (sql : List Char) :
    ((runDdlConsuming R sql).exec (self, s)).2.1 = self.unbound ↔
      self = self.unbound ∨ self.DdlTaken R s sql := by
  unfold runDdlConsuming DdlTaken
  rw [exec_bind_ok exec_getSelf, exec_bind, exec_inSnd, runDdl, exec_bind, self.config.exec_ensureWritable]
  cases s.flags self.config.readOnly with
  | true => simp
  | false =>
    simp only [Bool.false_eq_true, if_false, exec_perform, true_and]
    cases R.done (s.log ++ [.updateDatabaseDdl (Sql.splitStatements sql)]) with
    | error e => simp
    | ok u => exact iff_of_true rfl (.inr ⟨u, rfl⟩)

theorem self_runIngest (table : List Char) :
    ((runIngest R table).exec (self, s)).2.1 = self.unbound ↔
      self = self.unbound ∨ s.flags self.config.readOnly = false := by
  unfold runIngest
  rw [exec_bind_ok exec_getSelf, exec_bind, exec_inSnd, self.config.exec_ensureWritable]
  cases hw : s.flags self.config.readOnly with
  | true => simp
  | false =>
    simp only [Bool.false_eq_true, if_false]
    by_cases hn : (self.bound.isEmpty && self.ingestSchema.isNone) = true
    · -- nothing is bound, so nothing has to be dropped
      have hu : self = self.unbound := unbound_eq_self_iff.mpr (by simpa using hn)
      rw [if_pos hn]
      exact iff_of_true hu (.inl hu)
    · rw [if_neg hn]
      exact iff_of_true (self_consuming _) (.inr trivial)

/-- A query without bound batches does not touch the schema of an empty stream. -/
theorem self_executeQueryReader (sql : List Char) :
    ((executeQueryReader R sql).exec (self, s)).2.1 = self.unbound ↔
      self = self.unbound ∨ (s.QueryAllowed ∧ self.bound ≠ []) := by
  unfold executeQueryReader Shared.QueryAllowed
  rw [exec_bind_ok exec_getSelf]
  dsimp only
  rw [exec_bind, exec_inSnd, ensureQueryAllowed, exec_withTxn]
  cases s.txn.checkKindAllowed .read with
  | error e => simp
  | ok u =>
    cases hb : self.bound with
    | nil => simp
    | cons batch bound =>
      have h : ((do let r ← (self.executeBoundQuery R (Sql.stripTrailingTerminators sql)).inSnd.attempt
                    clearBound
                    MonadExcept.ofExcept r : Method K (Reader K)).exec (self, s)).2.1 =
          self.unbound := self_consuming _
      simpa using h

/-! ## The entry points -/

theorem self_execute_sql (hsql : self.sql = some sql) :
    ((execute R).exec (self, s)).2.1 =
      if Sql.isDdl sql then ((runDdlConsuming R sql).exec (self, s)).2.1
      else if Sql.isDml sql then self.unbound
      else ((executeQueryReader R sql).exec (self, s)).2.1 := by
  rw [exec_execute_sql hsql]
  cases Sql.isDdl sql with
  | true => exact self_bind _ (fun _ => .pure _) _
  | false =>
    cases Sql.isDml sql with
    | false => rfl
    | true => exact (self_bind _ (fun _ => .pure _) _).trans (self_runDmlConsuming sql)

theorem self_executeUpdate_sql (hsql : self.sql = some sql) :
    ((executeUpdate R).exec (self, s)).2.1 =
      if Sql.isDdl sql then ((runDdlConsuming R sql).exec (self, s)).2.1
      else if Sql.isDml sql then self.unbound
      else if checkAllDmlBatch K (Sql.splitStatements sql) = .ok () then
        ((executeQueryReader R sql).exec (self, s)).2.1
      else self := by
  rw [exec_executeUpdate_sql hsql]
  cases Sql.isDdl sql with
  | true => exact self_bind _ (fun _ => .pure _) _
  | false =>
    cases Sql.isDml sql with
    | true => exact (self_bind _ (fun _ => .pure _) _).trans (self_runDmlConsuming sql)
    | false =>
      cases hc : checkAllDmlBatch K (Sql.splitStatements sql) with
      | error e => rfl
      | ok u =>
        simp only [Bool.false_eq_true, if_false, if_true]
        rw [exec_bind_ok (exec_ofExcept _ _)]
        refine self_bind _ (fun reader => ?_) _
        exact .bind (sameSelf_inSnd _) fun _ => .pure _

theorem self_execute (hdest : self.sql.isSome ∨ self.targetTable.isSome) :
    ((execute R).exec (self, s)).2.1 = self.unbound ↔
      self = self.unbound ∨ self.ConsumesRows R s false := by
  unfold ConsumesRows
  cases hsql : self.sql with
  | none =>
    obtain ⟨table, htable⟩ := Option.isSome_iff_exists.mp (hdest.resolve_left (by simp [hsql]))
    rw [exec_execute_ingest hsql htable, self_bind _ (fun _ => .pure _)]
    exact self_runIngest table
  | some sql =>
    rw [self_execute_sql hsql]
    dsimp only
    cases Sql.isDdl sql with
    | true => exact self_runDdlConsuming sql
    | false =>
      cases Sql.isDml sql with
      | true => simp
      | false => simpa using self_executeQueryReader sql

theorem self_executeUpdate (hdest : self.sql.isSome ∨ self.targetTable.isSome) :
    ((executeUpdate R).exec (self, s)).2.1 = self.unbound ↔
      self = self.unbound ∨ self.ConsumesRows R s true := by
  unfold ConsumesRows
  cases hsql : self.sql with
  | none =>
    obtain ⟨table, htable⟩ := Option.isSome_iff_exists.mp (hdest.resolve_left (by simp [hsql]))
    rw [exec_executeUpdate_ingest hsql htable]
    exact self_runIngest table
  | some sql =>
    rw [self_executeUpdate_sql hsql]
    dsimp only
    cases Sql.isDdl sql with
    | true => exact self_runDdlConsuming sql
    | false =>
      cases Sql.isDml sql with
      | true => simp
      | false =>
        cases checkAllDmlBatch K (Sql.splitStatements sql) with
        | error e => simp
        | ok u => simpa using self_executeQueryReader sql

theorem checkQueryOnly_ok {entryPoint dmlRationale : List Char} :
    checkQueryOnly sql entryPoint dmlRationale = .ok () ↔
      Sql.isDdl sql = false ∧ Sql.isDml sql = false := by
  unfold checkQueryOnly
  cases Sql.isDdl sql <;> cases Sql.isDml sql <;> simp

theorem self_executePartitions :
    ((executePartitions R).exec (self, s)).2.1 = self.unbound ↔
      self = self.unbound ∨ self.Consumes R s .executePartitions := by
  unfold executePartitions Consumes Shared.QueryAllowed
  rw [exec_bind_ok exec_getSelf]
  cases hsql : self.sql with
  | none => simp [sqlText, hsql, exec_bind]
  | some sql =>
    have htext : self.sqlText = .ok sql := by simp [sqlText, hsql]
    rw [htext, exec_bind_ok (exec_ofExcept _ _)]
    by_cases hq : Sql.isDdl sql = false ∧ Sql.isDml sql = false
    · rw [checkQueryOnly_ok.mpr hq, exec_bind_ok (exec_ofExcept _ _), exec_bind, exec_inSnd,
        ensureQueryAllowed, exec_withTxn]
      cases s.txn.checkKindAllowed .read with
      | error e => simp
      | ok u => exact iff_of_true (self_consuming _) (.inr ⟨sql, rfl, hq.1, hq.2, rfl⟩)
    · have hno : ¬ ∃ sql', some sql = some sql' ∧ Sql.isDdl sql' = false ∧
          Sql.isDml sql' = false ∧ s.txn.checkKindAllowed .read = .ok () := by
        rintro ⟨sql', e, h1, h2, -⟩
        cases e
        exact hq ⟨h1, h2⟩
      cases hc : checkQueryOnly sql "execute_partitions".toList
          "partitioned in a batch read-only transaction".toList with
      | ok u => exact absurd (checkQueryOnly_ok.mp hc) hq
      | error e =>
        rw [exec_bind_error (exec_ofExcept _ _), or_iff_left hno]

end Statement

/-- After an execution of a statement that has a query or an ingest target, nothing is bound to it
any more if and only if nothing was or the execution gets as far as `clear_bound`: everything else
about the statement is as it was. -/
theorem bound_consumed_iff (R : Replies K) {op : StatementOp K} {self : Statement K}
    (s : Shared K) (hop : op.Executes) (hdest : self.sql.isSome ∨ self.targetTable.isSome) :
    ((op.run R).exec (self, s)).2.1 = self.unbound ↔ self = self.unbound ∨ self.Consumes R s op := by
  cases op with
  | setOption | setSqlQuery | bind | bindStream | prepare | executeSchema | getParameterSchema =>
    exact hop.elim
  | executePartitions =>
    rw [StatementOp.run, Statement.self_bind _ (fun _ => .pure _)]
    exact Statement.self_executePartitions
  | execute =>
    rw [StatementOp.run, Statement.self_bind _ (fun _ => .pure _)]
    exact Statement.self_execute hdest
  | executeUpdate =>
    rw [StatementOp.run, Statement.self_bind _ (fun _ => .pure _)]
    exact Statement.self_executeUpdate hdest

/-- A `DELETE` with two bound rows in a manual transaction that has begun with a query: it fails. -/
def boundDelete : Statement plainClient where
  config := { readOnly := 0, settings := () }
  sql := some "DELETE FROM t WHERE id = @id".toList
  bound := [{ numRows := 2, numColumns := 1, arrayMemorySize := 16, columns := () }]

def queryTransaction : Shared plainClient where
  flags := fun _ => false
  txn := { autocommit := false, txn := .read () }
  log := []

theorem bound_consumed_iff_delete :
    ((StatementOp.executeUpdate.run plainReplies).exec (boundDelete, queryTransaction)).1.isOk =
      false ∧
    ((StatementOp.executeUpdate.run plainReplies).exec (boundDelete, queryTransaction)).2.1 =
      boundDelete.unbound := by
  refine ⟨rfl, (@bound_consumed_iff _ _ .executeUpdate _ queryTransaction trivial (.inl rfl)).mpr ?_⟩
  exact .inr trivial

/-- An empty stream is bound, then a query is executed, and then the statement is given an ingest
target without a new bind. -/
def staleSchema : List (Op plainClient) :=
  [.newStatement,
    .onStatement 0 (.bindStream { schema := (), batches := [], failure := none }),
    .onStatement 0 (.setSqlQuery "SELECT 1".toList), .onStatement 0 .execute,
    .onStatement 0 (.setOption .targetTable (.string "t".toList)),
    .onStatement 0 (.setOption .ingestMode (.string "replace".toList)),
    .onStatement 0 .executeUpdate]

def staleSchemaRun : Option (World plainClient × List (Record plainClient)) :=
  (machine plainReplies).run (World.new [] ()) staleSchema

/-- The query succeeds and leaves the schema of the stream on the statement; the ingest drops the
table and creates it anew from that schema. -/
theorem query_keeps_stream_schema :
    (staleSchemaRun.map fun r => r.2.map fun r => (r.outcome.isOk,
      r.after.statements.map (·.ingestSchema.isSome), r.calls.flatMap Call.ddl)) =
      some [(true, [false], []), (true, [true], []), (true, [true], []), (true, [true], []),
        (true, [true], []), (true, [true], []),
        (true, [false], ["DROP TABLE IF EXISTS t".toList, "t".toList])] := by
  decide +kernel

end Session
end SpannerAdbc
