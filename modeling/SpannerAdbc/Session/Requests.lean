import SpannerAdbc.Session.Calls

/-!
# SpannerAdbc.Session.Requests

The requests of whole runs.

* `calls_in_protocol`: every operation of every run follows its language, and each request that is
  built with options has those that the object behind it had when the operation began.
* `committed_as_buffered`: a statement that a commit sends is the one that an earlier operation has
  buffered, whatever has been set since; the transaction around it has the options of the connection
  at the commit.
* `single_write_last`: every operation but a bulk ingest makes at most one call that can write, and
  makes it last.
-/

namespace SpannerAdbc
namespace Session

open Lib Ingest Txn Lib.Prog Lib.Trace

variable {K : Client} {R : Replies K} {statements : List (SpannerSql K)} {r : Record K}
  {mutations : List K.Mutation} {w : World K} {settings : K.Settings} {tr : List (Record K)}

/-- The records of a run are operations that have been applied. -/
theorem applied_of_run {w' : World K} {ops : List (Op K)}
    (hr : (machine R).run w ops = some (w', tr)) :
    ∀ r ∈ tr, r.before.apply R r.op = some (r.outcome, r.after) := by
  refine Machine.run_induction (I := fun tr _ => ∀ r ∈ tr,
    r.before.apply R r.op = some (r.outcome, r.after)) ?_ (by simp) hr
  intro tr w op w' rs hI hs
  obtain ⟨r, hr, e⟩ := Option.map_eq_some_iff.mp hs
  cases e
  exact List.forall_mem_append.mpr ⟨hI, List.forall_mem_singleton.mpr hr⟩

theorem follows_run {w' : World K} {ops : List (Op K)}
    (hr : (machine R).run w ops = some (w', tr)) : ∀ r ∈ tr, r.Follows :=
  fun r hm => (World.follows_apply (applied_of_run hr r hm)).1

/-- In every run each operation makes its calls in the order of its language. A request that is built
with options has those that the statement or the connection had when the operation began: all of
them for what a statement sends, with a directed read for its queries only, and for the metadata
reads of the connection those of `metadata_sql_builder`. What a statement writes is its text or a
piece of it, or the schema change that its bulk ingest generates. -/
theorem calls_in_protocol (R : Replies K) {w w' : World K} {ops : List (Op K)}
    {tr : List (Record K)} (hr : (machine R).run w ops = some (w', tr)) :
    ∀ r ∈ tr, r.Follows := follows_run hr

def mixedWorlds : Option (World plainClient × List (Record plainClient)) :=
  (machine plainReplies).run (World.new [] ()) mixedTexts

/-- The commit sends the buffered batch, the last execution a schema change. -/
theorem calls_in_protocol_mixed : ∃ w tr, mixedWorlds = some (w, tr) ∧
    (tr.map fun r => r.calls.map Call.kind) =
      [[], [], [], [], [], [.batchUpdate], [], [.updateDatabaseDdl]] ∧ ∀ r ∈ tr, r.Follows := by
  have hsome : mixedWorlds.isSome = true := by decide +kernel
  have hr := (Option.some_get hsome).symm
  exact ⟨_, _, hr, by decide +kernel, calls_in_protocol plainReplies hr⟩

/-! ## Where the statements of a commit come from -/

/-- What a run has buffered so far comes from an operation of the run. -/
def Accounted (tr : List (Record K)) (w : World K) : Prop :=
  ∀ statement ∈ w.buffer, ∃ r ∈ tr, r.Buffers statement

/-- What is buffered behind an operation was buffered before it, or it has buffered it. -/
theorem Record.Accounts.cases (h : r.Accounts) {statement : SpannerSql K}
    (hs : statement ∈ r.after.buffer) : statement ∈ r.before.buffer ∨ r.Buffers statement := by
  rcases h with (h | h) | ⟨i, op, self, hop, hself, hgrows⟩
  · exact .inl (h ▸ hs)
  · rw [h] at hs
    cases hs
  · rw [hgrows.append_drop] at hs
    refine (List.mem_append.mp hs).imp_right fun hnew => ⟨hnew, i, op, self, hop, hself, ?_⟩
    exact hgrows.of_mem_drop statement hnew

theorem applyCall_batch {config : K.Settings}
    {work : ManualTxn (SpannerSql K) K.Mutation K.Handle}
    (h : applyCall config work = some (.readWrite settings (.batchUpdate statements mutations false))) :
    settings = config ∧ statements = work.work.statements := by
  match work with
  | .unset | .read _ | .dml [] [] | .dml [] (_ :: _) => cases h
  | .dml (_ :: _) _ =>
    cases h
    exact ⟨rfl, rfl⟩

/-- Where a call comes from. -/
theorem Record.Follows.origin (h : r.Follows) {c : Call K} (hc : c ∈ r.calls) :
    (∃ i op self, r.op = .onStatement i op ∧ c.IssuedBy (Statement.issuer self)) ∨
      c.IssuedBy r.before.config.issuer ∨
      applyCall r.before.config.settings r.before.shared.txn.txn = some c ∨
      ∃ partition, c = .executePartition partition := by
  obtain ⟨-, horder, hcarried⟩ := h
  obtain ⟨before, op, outcome, after⟩ := r
  cases op with
  | commit => exact .inr (.inr (.inl (hcarried c hc)))
  | setOption key value =>
    cases key with
    | autocommit => exact .inr (.inr (.inl (hcarried c hc)))
    | readOnly | other =>
      rw [show Record.calls _ = [] from hcarried] at hc
      cases hc
  | newStatement | rollback =>
    rw [show Record.calls _ = [] from hcarried] at hc
    cases hc
  | getTableSchema | getObjects | getStatistics => exact .inr (.inl (hcarried c hc))
  | readPartition descriptor =>
    obtain ⟨partition, -, rfl⟩ := hcarried c hc
    exact .inr (.inr (.inr ⟨partition, rfl⟩))
  | onStatement i op =>
    cases hself : before.statements[i]? with
    | some self => exact .inl ⟨i, op, self, rfl, hcarried self hself c hc⟩
    | none =>
      rw [Op.calls, hself] at horder
      rw [List.map_eq_nil_iff.mp horder] at hc
      cases hc

/-- Only the end of a transaction sends a batch that is not marked as the last request. -/
theorem Record.Follows.batch (h : r.Follows)
    (hc : .readWrite settings (.batchUpdate statements mutations false) ∈ r.calls) :
    settings = r.before.config.settings ∧
      statements = r.before.buffer := by
  rcases h.origin hc with ⟨_, _, _, -, -, -, -, hlast⟩ | ⟨-, -, -, hlast⟩ | happly | ⟨_, hpartition⟩
  · cases hlast
  · cases hlast
  · exact applyCall_batch happly
  · cases hpartition

/-- The statements that a run sends at the end of a manual transaction were buffered by earlier
operations of the run, as these had built them. Options that are set between the execution and the
commit do not change them, but they do change the transaction: its isolation level, its commit
options and the request options of the batch are those of the connection at the commit. -/
def CommittedAsBuffered (earlier : List (Record K)) (r : Record K) : Prop :=
  ∀ settings statements mutations,
    .readWrite settings (.batchUpdate statements mutations false) ∈ r.calls →
      settings = r.before.config.settings ∧
        ∀ statement ∈ statements, ∃ r' ∈ earlier, r'.Buffers statement

theorem committed_as_buffered (R : Replies K) (catalog : List Char) (settings : K.Settings)
    {ops : List (Op K)} {w : World K} {tr : List (Record K)}
    (hr : (machine R).run (World.new catalog settings) ops = some (w, tr)) :
    Everywhere CommittedAsBuffered tr := by
  have h := Machine.run_induction (M := machine R)
    (I := fun tr w => Accounted tr w ∧ Everywhere CommittedAsBuffered tr) ?_
    ⟨fun _ h => (by cases h), .nil⟩ hr
  · exact h.2
  · intro tr w op w' rs hI hs
    obtain ⟨r, hr, e⟩ := Option.map_eq_some_iff.mp hs
    cases e
    obtain ⟨hfollows, haccounts⟩ := World.follows_apply hr
    constructor
    · intro statement hs
      rcases haccounts.cases hs with hold | hnew
      · obtain ⟨r', hr', hb⟩ := hI.1 statement hold
        exact ⟨r', List.mem_append_left _ hr', hb⟩
      · exact ⟨_, List.mem_append_right _ List.mem_cons_self, hnew⟩
    · refine hI.2.append (.cons ?_ .nil)
      intro settings statements mutations hc
      obtain ⟨hsettings, rfl⟩ := hfollows.batch hc
      refine ⟨hsettings, fun statement hst => ?_⟩
      rw [List.append_nil]
      exact hI.1 statement hst

theorem committed_as_buffered_mixed : ∃ w tr, mixedWorlds = some (w, tr) ∧
    (tr.map fun r => (r.newlyBuffered.length, r.calls.length)) =
      [(0, 0), (0, 0), (0, 0), (0, 0), (1, 0), (0, 1), (0, 0), (0, 1)] ∧
    Everywhere CommittedAsBuffered tr := by
  have hsome : mixedWorlds.isSome = true := by decide +kernel
  have hr := (Option.some_get hsome).symm
  exact ⟨_, _, hr, by decide +kernel, committed_as_buffered plainReplies [] () hr⟩

/-! ## Calls that can write -/

def CallKind.canWrite : CallKind → Bool
  | .batchUpdate | .returning | .planDml | .writeOnly | .batchWrite | .partitionedDml
  | .updateDatabaseDdl | .executePartition => true
  | .plan | .query | .multiUse | .readQuery | .boundQuery | .readTogether | .fetch
  | .partitionQuery | .tableExists => false

theorem Call.canWrite_of_kind {c : Call K} (h : c.kind.canWrite = false) : c.canWrite = false := by
  cases c with
  | readWrite settings body => cases body <;> cases h
  | executePartition | writeOnly | batchWrite | partitionedDml | updateDatabaseDdl => cases h
  | _ => rfl

/-- Every call only reads. -/
def ReadsOnly (L : Language CallKind) : Prop := ∀ w ∈ L, ∀ kind ∈ w, kind.canWrite = false

/-- Every call but the last only reads. -/
def ReadsFirst (L : Language CallKind) : Prop :=
  ∀ w ∈ L, ∀ kind ∈ w.dropLast, kind.canWrite = false

section Languages

variable {L M : Language CallKind}

theorem readsOnly_one : ReadsOnly 1 := by
  intro w hw
  obtain rfl : w = [] := hw
  simp

theorem readsOnly_letter {kind : CallKind} (h : kind.canWrite = false) :
    ReadsOnly (one kind) := by
  intro w hw
  obtain rfl : w = [kind] := hw
  simpa using h

theorem ReadsOnly.add (hL : ReadsOnly L) (hM : ReadsOnly M) : ReadsOnly (L + M) :=
  fun w hw => hw.elim (hL w) (hM w)

theorem ReadsOnly.mul (hL : ReadsOnly L) (hM : ReadsOnly M) : ReadsOnly (L * M) := by
  rintro w ⟨u, hu, v, hv, rfl⟩
  exact List.forall_mem_append.mpr ⟨hL u hu, hM v hv⟩

theorem readsOnly_may {kind : CallKind} (h : kind.canWrite = false) : ReadsOnly (may kind) :=
  readsOnly_one.add (readsOnly_letter h)

theorem readsOnly_upTo {w : List CallKind} (h : ∀ kind ∈ w, kind.canWrite = false) :
    ReadsOnly (upTo w) := fun _ hv kind hk => h kind (List.IsPrefix.subset hv hk)

theorem ReadsOnly.first (hL : ReadsOnly L) : ReadsFirst L :=
  fun w hw kind hk => hL w hw kind (List.mem_of_mem_dropLast hk)

theorem readsFirst_may (kind : CallKind) : ReadsFirst (may kind) := by
  rintro w (hw | hw)
  · obtain rfl : w = [] := hw
    simp
  · obtain rfl : w = [kind] := hw
    simp

end Languages

namespace Statement

theorem readsOnly_queryCalls (autocommit : Bool) : ReadsOnly (queryCalls autocommit) := by
  cases autocommit with
  | true => exact readsOnly_one.mul (readsOnly_may rfl)
  | false => exact (readsOnly_may rfl).mul (readsOnly_may rfl)

theorem readsOnly_boundQueryCalls (autocommit : Bool) : ReadsOnly (boundQueryCalls autocommit) := by
  cases autocommit with
  | true =>
    refine readsOnly_one.mul (((readsOnly_may rfl).add (readsOnly_may rfl)).add ?_)
    exact readsOnly_one.add ((readsOnly_letter rfl).mul (readsOnly_may rfl))
  | false =>
    refine (readsOnly_may rfl).mul (((readsOnly_may rfl).add (readsOnly_may rfl)).add ?_)
    exact readsOnly_may rfl

theorem readsOnly_readerCalls (self : Statement K) (autocommit : Bool) :
    ReadsOnly (self.readerCalls autocommit) := by
  unfold readerCalls
  split
  · exact readsOnly_queryCalls autocommit
  · exact readsOnly_boundQueryCalls autocommit

/-- The statement is set up for a bulk ingest. -/
def Ingests (self : Statement K) : Prop := self.sql = none ∧ self.targetTable.isSome = true

variable {self : Statement K}

theorem readsFirst_executionCalls (autocommit : Bool) {query : Language CallKind}
    (hself : ¬ self.Ingests) (hquery : ReadsOnly query) :
    ReadsFirst (self.executionCalls autocommit query) := by
  cases hsql : self.sql with
  | some sql =>
    rw [executionCalls_of_sql hsql]
    unfold textCalls
    split
    · exact readsFirst_may _
    · split
      · cases autocommit with
        | true => exact readsFirst_may _
        | false => exact readsOnly_one.first
      · exact hquery.first
  | none =>
    cases htable : self.targetTable with
    | some table => exact absurd ⟨hsql, by rw [htable]; rfl⟩ hself
    | none =>
      rw [executionCalls, hsql, htable]
      exact readsOnly_one.first

theorem readsFirst_calls (autocommit : Bool) (op : StatementOp K)
    (h : op = .execute ∨ op = .executeUpdate → ¬ self.Ingests) :
    ReadsFirst (self.calls autocommit op) := by
  cases op with
  | setOption | setSqlQuery | bind | bindStream | prepare => exact readsOnly_one.first
  | execute =>
    exact readsFirst_executionCalls autocommit (h (.inl rfl)) (self.readsOnly_readerCalls _)
  | executeUpdate =>
    refine readsFirst_executionCalls autocommit (h (.inr rfl)) ?_
    exact (self.readsOnly_readerCalls _).mul (readsOnly_may rfl)
  | executeSchema => exact readsFirst_may _
  | executePartitions => exact (readsOnly_upTo (by decide)).first
  | getParameterSchema =>
    change ReadsFirst self.parameterCalls
    unfold parameterCalls
    split
    · exact readsFirst_may _
    · exact readsOnly_one.first

end Statement

/-- The operation is a bulk ingest. -/
def Op.IsIngest (w : World K) (op : Op K) : Prop :=
  ∃ i self, w.statements[i]? = some self ∧ self.Ingests ∧
    (op = .onStatement i .execute ∨ op = .onStatement i .executeUpdate)

theorem Op.readsFirst_calls {op : Op K} (h : ¬ op.IsIngest w) :
    ReadsFirst (op.calls w) := by
  have hends : ReadsFirst w.completionCalls := by
    unfold World.completionCalls
    split
    · exact readsOnly_one.first
    · cases applyCall w.config.settings w.shared.txn.txn with
      | none => exact readsOnly_one.first
      | some call => exact readsFirst_may _
  cases op with
  | setOption key value =>
    cases key with
    | autocommit => exact hends
    | readOnly | other => exact readsOnly_one.first
  | newStatement | rollback => exact readsOnly_one.first
  | commit => exact hends
  | getTableSchema | getObjects | getStatistics => exact (readsOnly_upTo (by decide)).first
  | readPartition descriptor => exact readsFirst_may _
  | onStatement i op =>
    change ReadsFirst ((w.statements[i]?).elim 1 _)
    cases hself : w.statements[i]? with
    | none => exact readsOnly_one.first
    | some self =>
      refine self.readsFirst_calls _ op fun hop hi => h ⟨i, self, hself, hi, ?_⟩
      rcases hop with rfl | rfl
      · exact .inl rfl
      · exact .inr rfl

/-- Every operation but a bulk ingest makes at most one call that can write, and no call behind it:
all its calls but the last only read. -/
theorem single_write_last (R : Replies K) {w w' : World K} {ops : List (Op K)}
    {tr : List (Record K)} (hr : (machine R).run w ops = some (w', tr)) :
    ∀ r ∈ tr, ¬ r.op.IsIngest r.before → ∀ c ∈ r.calls.dropLast, c.canWrite = false := by
  intro r hrec hi c hc
  refine Call.canWrite_of_kind (Op.readsFirst_calls hi _ (follows_run hr r hrec).order _ ?_)
  rw [← List.map_dropLast]
  exact List.mem_map_of_mem hc

/-- The commit and the schema change each make one call that can write. -/
theorem single_write_last_mixed : ∃ w tr, mixedWorlds = some (w, tr) ∧
    (tr.map fun r => r.calls.map Call.canWrite) =
      [[], [], [], [], [], [true], [], [true]] ∧
    ∀ r ∈ tr, ¬ r.op.IsIngest r.before → ∀ c ∈ r.calls.dropLast, c.canWrite = false := by
  have hsome : mixedWorlds.isSome = true := by decide +kernel
  have hr := (Option.some_get hsome).symm
  exact ⟨_, _, hr, by decide +kernel, single_write_last plainReplies hr⟩

end Session
end SpannerAdbc
