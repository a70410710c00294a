import SpannerAdbc.Binding.Names
import SpannerAdbc.Ingest.Rebuild
import SpannerAdbc.Session.Requests
import SpannerAdbc.Sql.Generated

/-!
# SpannerAdbc.Session.Driver

The sessions of the driver itself, and which SQL texts their runs write.

`Client` leaves open what is modelled in other modules: in `Library.driver` the bound data are Arrow
record batches, bound and turned into mutations by `Binding` and `Ingest`, and the SQL is read and
generated by `Sql`. What is left open is the client library and the conversion of results.

`write_texts_single_iff` is about every run of such a session: an execution keeps to single
statements (`Record.Kept`) exactly if it meets the condition of `Session.Texts`, and the whole run
does, with what its commits send, exactly if all executions meet it.
-/

namespace SpannerAdbc
namespace Session

open Lib Ingest Txn Lib.Prog Arrow Binding

/-! ## The driver as a client -/

/-- What the sessions of the driver leave open. -/
structure Library where
  /-- The options and the client library. -/
  base : Client
  codec : Codec
  debug : TypeDebug
  rowsToBatch : base.Settings → base.Rows → Except Error (Schema × Batch RecordBatch)
  parameterSchema : base.Settings → List (List Char) → base.ParamTypes → Except Error Schema

def Library.driver (L : Library) : Client :=
  { L.base with
    Data := RecordBatch
    Schema := Schema
    Mutation := Mutation
    Params := List (List Char × Stream.Value × Option ParamType)
    batchSchema := fun batch => batch.columns.schema
    emptySchema := []
    insertMutation := insertMutation L.codec L.debug
    namedParameters := Sql.namedParameters
    resolveParameterNames := fun sql batch bindByName =>
      resolveParameterNames L.debug.toDebug sql batch.columns.schema bindByName
    bindParams := fun names batch row =>
      (bindParams L.codec names batch.columns row).mapError fun e => e.toError L.debug
    textParams := fun params => params.map fun (name, text) => (name, textValue text, none)
    createTableSql := createTableSql L.debug
    qualifiedTable := Sql.qualifiedTable L.debug.toDebug
    rowsToBatch := L.rowsToBatch
    parameterSchema := L.parameterSchema
    debug := L.debug.string
    debugChar := L.debug.char }

theorem Library.generates (L : Library) : Sql.Generates L.debug L.driver id :=
  ⟨fun _ _ => rfl, fun _ _ _ _ => rfl⟩

section Texts

variable {K : Client} {R : Replies K} {D : TypeDebug} {fields : K.Schema → Schema}
  {self : Statement K} {settings : K.Settings}

/-! ## Texts that are generated -/

/-- Whatever schema change an ingest is ready to send, each of its texts is the inert drop statement
or the inert create statement: a name that quoting does not accept never gets that far. -/
theorem ingestText_of_ingestDdl (hK : Sql.Generates D K fields) {table text : List Char}
    (h : self.IngestDdl table text) (g : Sql.Grammar) :
    Sql.IngestText D fields self table g text := by
  rcases h with ⟨name, hname, rfl⟩ | ⟨schema, ifNotExists, hcreate⟩
  · exact Sql.ingestText_drop hK hname g
  · exact Sql.ingestText_create hK hcreate g

theorem single_of_ingestDdl (hK : Sql.Generates D K fields) {table text : List Char}
    (h : self.IngestDdl table text) : Single Sql.isDdl text := by
  have hmem : ∀ {skeleton}, Sql.Inert .query text skeleton → text ∈ Sql.splitStatements text :=
    fun hi => by rw [hi.split]; exact List.mem_cons_self
  rcases ingestText_of_ingestDdl hK h .query with hi | ⟨schema, types, ifNotExists, -, hi⟩
  · exact single_of_mem_split (hmem hi) (Sql.isDdl_of_tokens hi.tokens (by decide) (by decide))
  · exact single_of_mem_split (hmem hi) (Sql.isDdl_of_tokens hi.tokens (by decide) (by decide))

/-! ## What an operation writes -/

theorem Call.IssuedBy.singly {issuer : Issuer K} {c : Call K} (h : c.IssuedBy issuer)
    (hdml : ∀ text, issuer.dml text → Single Sql.isDml text)
    (hddl : ∀ text, issuer.ddl text → Single Sql.isDdl text) : c.Singly := by
  cases c with
  | readWrite settings body =>
    cases body with
    | batchUpdate statements mutations last =>
      exact ⟨List.forall_mem_map.mpr fun st hst => hdml _ (h.2.1 st hst).2.2.2, by simp [Call.ddl]⟩
    | returning statements =>
      exact ⟨List.forall_mem_map.mpr fun st hst => hdml _ (h.2 st hst).2.2.2, by simp [Call.ddl]⟩
    | plan statement => simp [Call.Singly, Call.dml, Call.ddl]
  | partitionedDml settings statement =>
    exact ⟨List.forall_mem_singleton.mpr (hdml _ h.2.2.2.2), by simp [Call.ddl]⟩
  | updateDatabaseDdl texts => exact ⟨by simp [Call.dml], fun text ht => hddl text (h text ht)⟩
  | _ => simp [Call.Singly, Call.dml, Call.ddl]

theorem Footprint.singly {issuer : Issuer K} {s s' : Shared K} (h : Footprint issuer s s')
    (hdml : ∀ text, issuer.dml text → Single Sql.isDml text)
    (hddl : ∀ text, issuer.ddl text → Single Sql.isDdl text) : WritesSingly s s' :=
  ⟨h.log.mono fun _ hc => hc.singly hdml hddl, h.buffer.mono fun _ hst => hdml _ hst.2.2.2⟩

theorem Statement.singly_planParameterTypes (self : Statement K) (sql : List Char) :
    Keeps WritesSingly (self.planParameterTypes R sql) := by
  unfold planParameterTypes
  dsimp only
  split
  · exact .pure _
  split
  · refine .bind (.of_unchanged fun _ => rfl) fun readOnly => ?_
    cases readOnly with
    | true => exact .pure _
    | false => exact singly_perform (by simp [Call.Singly, Call.dml, Call.ddl]) _
  · exact fun s => (reads_perform rfl _ s).writesSingly

/-- An operation that executes no text. -/
theorem StatementOp.singly (hK : Sql.Generates D K fields) {s : Shared K} {op : StatementOp K}
    (h : op = .execute ∨ op = .executeUpdate → self.sql = none) :
    WritesSingly s ((op.run R).exec (self, s)).2.2 := by
  have hfoot := (op.follows (R := R) self s).1
  have hingest : self.sql = none → WritesSingly s ((op.run R).exec (self, s)).2.2 := by
    intro hsql
    refine hfoot.singly ?_ ?_
    · rintro text ⟨sql, hsome, -⟩
      rw [hsql] at hsome
      cases hsome
    · intro text ht
      simp only [Statement.issuer, hsql] at ht
      obtain ⟨table, -, ht⟩ := ht
      exact single_of_ingestDdl hK ht
  cases op with
  | setOption | setSqlQuery | bind | bindStream | prepare =>
    rw [StatementOp.run, exec_bind_pure, StatementOp.exec_update_shared]
    exact Std.Refl.refl s
  | execute => exact hingest (h (.inl rfl))
  | executeUpdate => exact hingest (h (.inr rfl))
  | executeSchema =>
    rw [StatementOp.run, exec_bind_pure]
    exact (Statement.reads_executeSchema (self, s)).writesSingly
  | executePartitions =>
    rw [StatementOp.run, exec_bind_pure]
    exact (Statement.reads_executePartitions (self, s)).writesSingly
  | getParameterSchema =>
    rw [StatementOp.run, exec_bind_ok Statement.exec_getSelf, exec_bind_pure, exec_inSnd]
    exact self.keeps_getParameterSchema self.singly_planParameterTypes s

theorem singly_of_applyCall {work : ManualTxn (SpannerSql K) K.Mutation K.Handle} {c : Call K}
    (h : applyCall settings work = some c)
    (hb : ∀ statement ∈ work.work.statements, Single Sql.isDml statement.sql) : c.Singly := by
  match work with
  | .unset | .read _ | .dml [] [] => cases h
  | .dml [] (_ :: _) =>
    cases h
    simp [Call.Singly, Call.dml, Call.ddl]
  | .dml (_ :: _) _ =>
    cases h
    exact ⟨List.forall_mem_map.mpr hb, by simp [Call.ddl]⟩

/-- The `i`-th statement with its text. -/
def World.textAt (w : World K) (i : Nat) : Option (Statement K × List Char) :=
  (w.statements[i]?).bind fun self => self.sql.map fun sql => (self, sql)

theorem World.textAt_eq_some {w : World K} {i : Nat} {sql : List Char} :
    w.textAt i = some (self, sql) ↔ w.statements[i]? = some self ∧ self.sql = some sql := by
  unfold textAt
  simp only [Option.bind_eq_some_iff, Option.map_eq_some_iff, Prod.mk.injEq]
  constructor
  · rintro ⟨_, hself, _, hsql, rfl, rfl⟩
    exact ⟨hself, hsql⟩
  · rintro ⟨hself, hsql⟩
    exact ⟨self, hself, sql, hsql, rfl, rfl⟩

namespace Record

/-- The text that the operation executes, and the statement it executes it with. -/
def executes (r : Record K) : Option (Statement K × List Char) :=
  match r.op with
  | .onStatement i .execute | .onStatement i .executeUpdate => r.before.textAt i
  | _ => none

/-- What the operation sends and buffers is single statements only, and a text that is not made of
such statements is refused with nothing done. -/
structure Kept (r : Record K) : Prop where
  sent : ∀ c ∈ r.calls, c.Singly
  buffered : ∀ statement ∈ r.newlyBuffered, Single Sql.isDml statement.sql
  refused : ∀ self sql, r.executes = some (self, sql) → ¬ Breaks sql →
    r.outcome.isOk = false ∧ r.after.shared = r.before.shared

/-- If the operation executes a text, it meets the condition of `Session.Texts`. -/
def SentSingly (r : Record K) : Prop :=
  ∀ self sql, r.executes = some (self, sql) → self.SentSingly sql r.before.shared

variable {r : Record K} {self : Statement K}

theorem executes_eq_some {sql : List Char} (h : r.executes = some (self, sql)) :
    ∃ i update, r.op = .onStatement i (.rows update) ∧
      r.before.statements[i]? = some self ∧ self.sql = some sql := by
  unfold executes at h
  split at h
  · rename_i i hop
    exact ⟨i, false, hop, World.textAt_eq_some.mp h⟩
  · rename_i i hop
    exact ⟨i, true, hop, World.textAt_eq_some.mp h⟩
  · cases h

theorem onStatement_applied {i : Nat} {op : StatementOp K} (hop : r.op = .onStatement i op)
    (ha : r.before.apply R r.op = some (r.outcome, r.after)) :
    ∃ self, r.before.statements[i]? = some self ∧
      r.outcome = ((op.run R).exec (self, r.before.shared)).1 ∧
      r.after.shared = ((op.run R).exec (self, r.before.shared)).2.2 := by
  rw [hop, World.apply, World.onStatement] at ha
  cases hself : r.before.statements[i]? with
  | none =>
    rw [hself] at ha
    cases ha
  | some self =>
    rw [hself] at ha
    obtain ⟨hout, hafter⟩ := Prod.mk.inj (Option.some.inj ha)
    exact ⟨self, rfl, hout.symm, by rw [← hafter]⟩

/-- One execution of a text. -/
theorem kept_iff (ha : r.before.apply R r.op = some (r.outcome, r.after)) {sql : List Char}
    (hx : r.executes = some (self, sql)) :
    r.Kept ↔ self.SentSingly sql r.before.shared := by
  obtain ⟨i, update, hop, hself, hsql⟩ := executes_eq_some hx
  obtain ⟨self', hself', hout, hshared⟩ := onStatement_applied hop ha
  obtain rfl := Option.some.inj (hself'.symm.trans hself)
  have hfoot := ((StatementOp.rows update).follows (R := R) self' r.before.shared).1
  have hkept : TextsKept R update sql self' r.before.shared ↔ _ := textsKept_iff hsql
  rw [← hkept]
  rw [← hshared] at hfoot
  constructor
  · intro h
    constructor
    · rw [← hshared]
      exact ⟨⟨_, hfoot.log.append_drop, h.sent⟩, ⟨_, hfoot.buffer.append_drop, h.buffered⟩⟩
    · rw [← hshared, ← hout]
      exact h.refused self' sql hx
  · rintro ⟨hs, hrefuses⟩
    rw [← hshared] at hs hrefuses
    rw [← hout] at hrefuses
    refine ⟨hs.log.of_mem_drop, hs.buffer.of_mem_drop, fun self sql hx' => ?_⟩
    obtain ⟨-, rfl⟩ := Prod.mk.inj (Option.some.inj (hx'.symm.trans hx))
    exact hrefuses

/-- An operation that executes no text writes single statements if the buffer has no others. -/
theorem kept_of_executes_none (hK : Sql.Generates D K fields)
    (ha : r.before.apply R r.op = some (r.outcome, r.after)) (hx : r.executes = none)
    (hb : ∀ statement ∈ r.before.buffer, Single Sql.isDml statement.sql) : r.Kept := by
  have hrefused : ∀ self sql, r.executes = some (self, sql) → ¬ Breaks sql →
      r.outcome.isOk = false ∧ r.after.shared = r.before.shared := by
    intro self sql h
    rw [hx] at h
    cases h
  by_cases hop : ∃ i op, r.op = .onStatement i op
  · obtain ⟨i, op, hop⟩ := hop
    obtain ⟨self, hself, -, hshared⟩ := onStatement_applied hop ha
    have hs : WritesSingly r.before.shared r.after.shared := by
      rw [hshared]
      refine StatementOp.singly hK fun hrows => ?_
      cases hsql : self.sql with
      | none => rfl
      | some sql =>
        have htext := World.textAt_eq_some.mpr ⟨hself, hsql⟩
        unfold executes at hx
        rw [hop] at hx
        rcases hrows with rfl | rfl <;> cases htext.symm.trans hx
    exact ⟨hs.log.of_mem_drop, hs.buffer.of_mem_drop, hrefused⟩
  · obtain ⟨hfollows, haccounts⟩ : r.Follows ∧ r.Accounts := World.follows_apply ha
    refine ⟨fun c hc => ?_, fun statement hst => ?_, hrefused⟩
    · rcases hfollows.origin hc with ⟨i, op, -, hop', -⟩ | hissued | happly | ⟨partition, rfl⟩
      · exact absurd ⟨i, op, hop'⟩ hop
      · exact hissued.singly (fun _ h => h.elim) fun _ h => h.elim
      · exact singly_of_applyCall happly hb
      · simp [Call.Singly, Call.dml, Call.ddl]
    · rcases haccounts with (h | h) | ⟨i, op, -, hop', -⟩
      · simp [newlyBuffered, h] at hst
      · simp [newlyBuffered, h] at hst
      · exact absurd ⟨i, op, hop'⟩ hop

end Record

/-- What is buffered in a run of operations that keep to single statements. -/
theorem kept_run (hK : Sql.Generates D K fields) {catalog : List Char} {ops : List (Op K)}
    {w : World K} {tr : List (Record K)}
    (hr : (machine R).run (World.new catalog settings) ops = some (w, tr)) :
    (∀ r ∈ tr, r.SentSingly) → (∀ r ∈ tr, r.Kept) ∧
      ∀ statement ∈ w.buffer, Single Sql.isDml statement.sql := by
  refine Machine.run_induction (M := machine R) (I := fun tr w => (∀ r ∈ tr, r.SentSingly) →
    (∀ r ∈ tr, r.Kept) ∧ ∀ statement ∈ w.buffer, Single Sql.isDml statement.sql) ?_ ?_ hr
  · intro tr w op w' rs hI hs hsent
    obtain ⟨r, ha, e⟩ := Option.map_eq_some_iff.mp hs
    cases e
    obtain ⟨hbefore, hnow⟩ := List.forall_mem_append.mp hsent
    obtain ⟨htr, hbuffer⟩ := hI hbefore
    have hkept : (w.record op r).Kept := by
      cases hx : (w.record op r).executes with
      | none => exact Record.kept_of_executes_none hK ha hx hbuffer
      | some text =>
        exact (Record.kept_iff ha hx).mpr (hnow _ List.mem_cons_self _ _ hx)
    refine ⟨List.forall_mem_append.mpr ⟨htr, List.forall_mem_singleton.mpr hkept⟩, ?_⟩
    intro statement hst
    rcases (World.follows_apply ha).2.cases hst with hold | hnew
    · exact hbuffer statement hold
    · exact hkept.buffered statement hnew.1
  · exact fun _ => ⟨by simp, fun _ h => (by cases h)⟩

end Texts

/-! ## Runs of the driver -/

/-- In every run an execution keeps to single statements exactly if it meets its condition, and all
operations do, with what a commit or the return to autocommit sends and with the schema changes of
bulk ingests, exactly if all executions meet it. -/
theorem write_texts_single_iff (L : Library) (R : Replies L.driver) (catalog : List Char)
    (settings : L.driver.Settings) {ops : List (Op L.driver)} {w : World L.driver}
    {tr : List (Record L.driver)}
    (hr : (machine R).run (World.new catalog settings) ops = some (w, tr)) :
    (∀ r ∈ tr, ∀ self sql, r.executes = some (self, sql) →
      (r.Kept ↔ self.SentSingly sql r.before.shared)) ∧
    ((∀ r ∈ tr, r.Kept) ↔ ∀ r ∈ tr, r.SentSingly) := by
  have hone : ∀ r ∈ tr, ∀ self sql, r.executes = some (self, sql) →
      (r.Kept ↔ self.SentSingly sql r.before.shared) :=
    fun r hm _ _ hx => Record.kept_iff (applied_of_run hr r hm) hx
  refine ⟨hone, fun h r hm self sql hx => ?_, fun h => (kept_run L.generates hr h).1⟩
  exact (hone r hm self sql hx).mp (h r hm)

def plainLibrary : Library where
  base := plainClient
  codec := plainCodec
  debug := plainDebug
  rowsToBatch _ _ := .error cancelledErr
  parameterSchema _ _ _ := .ok []

def driverReplies : Replies plainLibrary.driver where
  stream _ := .ok ()
  schema _ := .ok []
  parameterTypes _ := .ok ()
  handle _ := .ok ()
  partitions _ := .ok []
  found _ := .ok true
  count _ := .ok 0
  rows _ := .ok []
  done _ := .ok ()
  batchWrite _ := .refused cancelledErr
  batch _ := .error cancelledErr
  batches _ := .error cancelledErr
  objects _ := .error cancelledErr

def lettersInsert : List Char := "INSERT INTO t (letter) VALUES (@letter)".toList

/-- Two bound rows in a manual transaction, and a bulk ingest that creates its table. -/
def lettersRun : Option (World plainLibrary.driver × List (Record plainLibrary.driver)) :=
  (machine driverReplies).run (World.new [] ())
    [.setOption .autocommit (.string "false".toList), .newStatement,
      .onStatement 0 (.bind (.ofRecordBatch (fun _ => 0) (letters ['a', 'b']))),
      .onStatement 0 (.setSqlQuery lettersInsert), .onStatement 0 .executeUpdate, .commit,
      .onStatement 0 (.setOption .targetTable (.string "u".toList)),
      .onStatement 0 (.bind (.ofRecordBatch (fun _ => 0) (letters ['c']))),
      .onStatement 0 .executeUpdate, .commit]

theorem write_texts_single_iff_letters : ∃ w tr, lettersRun = some (w, tr) ∧
    (tr.map fun r => (r.outcome.isOk, r.calls.map Call.kind)) =
      [(true, []), (true, []), (true, []), (true, []), (true, []), (true, [.batchUpdate]), (true, []),
        (true, []), (true, [.updateDatabaseDdl]), (true, [.writeOnly])] ∧ ∀ r ∈ tr, r.Kept := by
  have hsome : lettersRun.isSome = true := by decide +kernel
  have hr := (Option.some_get hsome).symm
  have htexts : (lettersRun.all fun run => run.2.all fun r => r.executes.all fun text =>
      text.2 == lettersInsert) = true := by decide +kernel
  refine ⟨_, _, hr, by decide +kernel, ?_⟩
  refine (write_texts_single_iff plainLibrary driverReplies [] () hr).2.mpr ?_
  intro r hm self sql hx
  rw [hr] at htexts
  have h := List.all_eq_true.mp htexts r hm
  rw [hx] at h
  obtain rfl : sql = lettersInsert := by simpa using h
  exact sentSingly_of_free (by decide +kernel) (by decide +kernel) (by decide +kernel)

end Session
end SpannerAdbc
