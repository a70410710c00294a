import SpannerAdbc.Session.Quiet

/-!
# SpannerAdbc.Session.ReadOnly

A read-only connection never writes.

The flag is one cell that the connection and its statements alias (`World.Aliased`), so what the
programs of a statement keep while the flag is set holds for every statement of the connection,
whenever it was created. The operations that end a transaction are computed outright
(`Connection.exec_commit`, `Connection.exec_setAutocommit_true`).

* `World.behaves_apply`: one operation.
* `read_only_never_writes`: every run.
-/

namespace SpannerAdbc
namespace Session

open Lib Ingest Txn Lib.Prog

variable {K : Client} {R : Replies K} {ref : FlagRef}

/-! ## Ending a transaction -/

namespace Connection

variable {config : SharedConfig K} {s : Shared K}

theorem exec_applyManualTxn (hset : s.flags config.readOnly = true)
    (work : ManualTxn (SpannerSql K) K.Mutation K.Handle) :
    (applyManualTxn R config work).exec s = (checkCommitWritable true work, s) := by
  unfold applyManualTxn
  rw [exec_bind_ok (config.exec_isReadOnly s), hset, exec_bind, exec_ofExcept]
  cases hc : checkCommitWritable true work with
  | error e => rfl
  | ok u =>
    cases work with
    | unset => rfl
    | read txn => rfl
    | dml statements mutations =>
      -- what passes the check is empty
      have hw : (⟨statements, mutations⟩ : Work (SpannerSql K) K.Mutation) = 1 := by
        simpa [ManualTxn.work] using checkCommitWritable_ok.mp hc
      obtain rfl : statements = [] := congrArg Work.statements hw
      obtain rfl : mutations = [] := congrArg Work.rows hw
      rfl

/-- A transaction without buffered work ends in the given mode; one with work goes on. -/
def ended (s : Shared K) (autocommit : Bool) : Except Error Unit × Shared K :=
  match checkCommitWritable true s.txn.txn with
  | .error e => (.error e, s)
  | .ok () => (.ok (), { s with txn := { autocommit, txn := .unset } })

theorem exec_commit (hset : s.flags config.readOnly = true) (hm : s.txn.autocommit = false) :
    (commit R config).exec s = ended s false := by
  have hwork : (withTxn fun st => if st.autocommit then (.error commitAutocommit, st)
      else (.ok st.txn, st)).exec s = (.ok s.txn.txn, s) := by
    rw [exec_withTxn, hm]
    rfl
  have happly := exec_applyManualTxn (R := R) hset s.txn.txn
  unfold commit ended
  rw [exec_bind_ok hwork]
  cases hc : checkCommitWritable true s.txn.txn with
  | error e =>
    rw [hc] at happly
    rw [exec_bind_error happly]
  | ok u =>
    rw [hc] at happly
    rw [exec_bind_ok happly, exec_withTxn, TxnState.finishCommit_self, hm]
    rfl

theorem exec_commit_autocommit (ha : s.txn.autocommit = true) :
    (commit R config).exec s = (.error commitAutocommit, s) := by
  have hrefused : (withTxn fun st => if st.autocommit then (.error commitAutocommit, st)
      else (.ok st.txn, st)).exec s = (.error commitAutocommit, s) := by
    rw [exec_withTxn, ha]
    rfl
  unfold commit
  rw [exec_bind_error hrefused]

theorem exec_setAutocommit_true (hset : s.flags config.readOnly = true)
    (hm : s.txn.autocommit = false) : (setAutocommit R config true).exec s = ended s true := by
  have hpending : (withTxn fun st =>
      if true && !st.autocommit then (.ok (some st.enterAutocommit.1), st.enterAutocommit.2)
      else (.ok none, { st with autocommit := true })).exec s =
      (.ok (some s.txn.txn), { s with txn := { autocommit := true, txn := .unset } }) := by
    rw [exec_withTxn, hm]
    rfl
  -- in the state without the taken work
  have happly : (applyManualTxn R config s.txn.txn).attempt.exec
      { s with txn := { autocommit := true, txn := .unset } } =
      (.ok (checkCommitWritable true s.txn.txn),
        { s with txn := { autocommit := true, txn := .unset } }) := by
    have hset' : ({ s with txn := { autocommit := true, txn := .unset } } : Shared K).flags
        config.readOnly = true := hset
    rw [exec_attempt, exec_applyManualTxn hset']
  unfold setAutocommit ended
  rw [exec_bind_ok hpending, exec_bind_ok happly]
  cases checkCommitWritable true s.txn.txn with
  | ok u => rfl
  | error e =>
    -- the taken work is put back
    obtain ⟨flags, ⟨autocommit, txn⟩, log⟩ := s
    cases hm
    rfl

theorem exec_setAutocommit_of_not {enable : Bool} (h : (enable && !s.txn.autocommit) = false) :
    (setAutocommit R config enable).exec s =
      (.ok (), { s with txn := { s.txn with autocommit := enable } }) := by
  have hnone : (withTxn fun st =>
      if enable && !st.autocommit then (.ok (some st.enterAutocommit.1), st.enterAutocommit.2)
      else (.ok none, { st with autocommit := enable })).exec s =
      (.ok none, { s with txn := { s.txn with autocommit := enable } }) := by
    rw [exec_withTxn, h]
    rfl
  unfold setAutocommit
  rw [exec_bind_ok hnone]
  rfl

theorem silent_setAutocommit_false (R : Replies K) (config : SharedConfig K) (s : Shared K) :
    Silent s ((setAutocommit R config false).exec s).2 := by
  rw [exec_setAutocommit_of_not rfl]
  refine .of_log rfl fun hp => ?_
  obtain ⟨flags, ⟨autocommit, txn⟩, log⟩ := s
  cases hp.1
  rfl

theorem ended_of_pending (h : s.Pending) (autocommit : Bool) :
    ended s autocommit = (.error commitReadOnly, s) := by
  simp only [ended, checkCommitWritable, h.2, Bool.and_self, if_true]

theorem ended_of_empty (h : s.txn.txn.hasPendingWork = false) (autocommit : Bool) :
    ended s autocommit = (.ok (), { s with txn := { autocommit, txn := .unset } }) := by
  simp only [ended, checkCommitWritable, h, Bool.and_false, Bool.false_eq_true, if_false]

theorem silent_ended (autocommit : Bool) : Silent s (ended s autocommit).2 := by
  unfold ended
  cases hc : checkCommitWritable true s.txn.txn with
  | error e => exact .of_log rfl fun _ => rfl
  | ok u =>
    refine .of_log rfl fun hp => ?_
    simp [checkCommitWritable, hp.2] at hc

end Connection

/-! ## Operations -/

/-- The operations that end a manual transaction by applying it, with the mode they lead to. -/
inductive Op.Completes : Op K → Bool → Prop
  | commit : Completes .commit false
  | autocommit : Completes (.setOption .autocommit (.string "true".toList)) true

/-- The operations that can end a manual transaction. -/
def Op.Ends : Op K → Prop
  | .commit | .rollback => True
  | .setOption .autocommit value => value = .string "true".toList
  | _ => False

theorem Op.Completes.ends {op : Op K} {mode : Bool} (h : op.Completes mode) : op.Ends := by
  cases h with
  | commit => trivial
  | autocommit => rfl

/-- A descriptor carries its own transaction. Those of `execute_partitions` carry a read-only one;
the driver cannot tell for others. -/
def Op.Trusted : Op K → Prop
  | .readPartition descriptor =>
    ∀ partition, K.decodePartition descriptor = .ok partition → K.onlyReads partition = true
  | _ => True

def World.readOnly (w : World K) : Bool := w.shared.flags w.config.readOnly

/-- Every statement looks at the flag of its connection. -/
def World.Aliased (w : World K) : Prop :=
  ∀ self ∈ w.statements, self.config.readOnly = w.config.readOnly

/-- What an operation on a read-only connection does. -/
structure Record.Behaves (r : Record K) : Prop where
  logged : r.after.shared.log = r.before.shared.log ++ r.calls
  silent : ∀ c ∈ r.calls, c.canWrite = false
  /-- Buffered work stays pending until it is rolled back. -/
  kept : r.op ≠ .rollback → r.before.shared.Pending → r.after.shared.txn = r.before.shared.txn
  refused : ∀ mode, r.op.Completes mode → r.before.shared.Pending →
    r.outcome = .error commitReadOnly
  /-- A query transaction and an empty one can be ended. -/
  completed : ∀ mode, r.op.Completes mode → r.before.shared.txn.autocommit = false →
    r.before.shared.txn.txn.hasPendingWork = false →
    r.outcome = .ok .unit ∧ r.after.shared.txn = { autocommit := mode, txn := .unset }
  rolledBack : r.op = .rollback → r.before.shared.txn.autocommit = false →
    r.outcome = .ok .unit ∧ r.after.shared.txn = { autocommit := false, txn := .unset }

namespace Record

variable {r : Record K}

theorem calls_of_silent (h : Silent r.before.shared r.after.shared) :
    r.after.shared.log = r.before.shared.log ++ r.calls ∧ ∀ c ∈ r.calls, c.canWrite = false := by
  obtain ⟨calls, hlog, hcalls⟩ := h.log
  have e : r.calls = calls := by rw [Record.calls, hlog, List.drop_left]
  rw [e]
  exact ⟨hlog, hcalls⟩

theorem behaves_of_silent (h : Silent r.before.shared r.after.shared) (hop : ¬ r.op.Ends) :
    r.Behaves where
  logged := (calls_of_silent h).1
  silent := (calls_of_silent h).2
  kept _ := h.txn
  refused _ hc := absurd hc.ends hop
  completed _ hc := absurd hc.ends hop
  rolledBack hr := absurd (by rw [hr]; trivial) hop

/-- In autocommit mode there is no transaction to keep or to end. -/
theorem behaves_of_autocommit (hlog : r.after.shared.log = r.before.shared.log)
    (ha : r.before.shared.txn.autocommit = true) : r.Behaves := by
  have hmanual : r.before.shared.txn.autocommit ≠ false := by rw [ha]; decide
  have h : Silent r.before.shared r.after.shared := .of_log hlog fun hp => absurd hp.1 hmanual
  exact {
    logged := (calls_of_silent h).1
    silent := (calls_of_silent h).2
    kept := fun _ => h.txn
    refused := fun _ _ hp => absurd hp.1 hmanual
    completed := fun _ _ hm => absurd hm hmanual
    rolledBack := fun _ hm => absurd hm hmanual }

theorem behaves_of_ended {mode : Bool} (hop : r.op.Completes mode)
    (houtcome : r.outcome = (Connection.ended r.before.shared mode).1.map fun _ => .unit)
    (hafter : r.after.shared = (Connection.ended r.before.shared mode).2) : r.Behaves where
  logged := (calls_of_silent (hafter ▸ Connection.silent_ended mode)).1
  silent := (calls_of_silent (hafter ▸ Connection.silent_ended mode)).2
  kept _ hp := by rw [hafter, Connection.ended_of_pending hp]
  refused _ _ hp := by rw [houtcome, Connection.ended_of_pending hp]; rfl
  completed mode' hop' _ he := by
    obtain rfl : mode = mode' := by
      generalize r.op = op at hop hop'
      cases hop <;> cases hop' <;> rfl
    rw [houtcome, hafter, Connection.ended_of_empty he]
    exact ⟨rfl, rfl⟩
  rolledBack h := by rw [h] at hop; cases hop

end Record

theorem boolOption_true {value : OptionValue} {what : List Char} :
    boolOption K value what = .ok true ↔ value = .string "true".toList := by
  constructor
  · intro h
    cases value with
    | string text =>
      simp only [boolOption] at h
      split at h
      · rename_i e
        rw [e]
      · split at h <;> cases h
    | bytes b => cases h
    | int i => cases h
    | double d => cases h
  · rintro rfl
    rfl

namespace World

variable {w : World K} {r : Except Error (Value K) × World K} {op : Op K}

/-- A program that keeps the rule, run on the connection by an operation that ends nothing. -/
theorem behaves_onShared {α : Type} (hset : w.readOnly = true) (hop : ¬ op.Ends)
    {x : Prog Error (Shared K) α} (hx : Keeps (WhenReadOnly w.config.readOnly) x)
    (value : α → Value K) : (w.record op (w.onShared x value)).Behaves :=
  Record.behaves_of_silent (hx w.shared hset).toSilent hop

theorem behaves_autocommit (hset : w.readOnly = true) (value : OptionValue) :
    (w.record (.setOption .autocommit value) (w.setOption R .autocommit value)).Behaves := by
  simp only [setOption, onShared]
  by_cases htrue : value = .string "true".toList
  · subst htrue
    rw [boolOption_true.mpr rfl, exec_bind_ok (exec_ofExcept w.shared (.ok true))]
    cases hm : w.shared.txn.autocommit with
    | false =>
      rw [Connection.exec_setAutocommit_true hset hm]
      exact Record.behaves_of_ended .autocommit rfl rfl
    | true =>
      rw [Connection.exec_setAutocommit_of_not (by rw [hm]; rfl)]
      exact Record.behaves_of_autocommit rfl hm
  · refine Record.behaves_of_silent ?_ htrue
    cases hb : boolOption K value "option adbc.connection.autocommit".toList with
    | error e => exact .of_log rfl fun _ => rfl
    | ok enable =>
      cases enable with
      | true => exact absurd (boolOption_true.mp hb) htrue
      | false =>
        rw [exec_bind_ok (exec_ofExcept w.shared (.ok false))]
        exact Connection.silent_setAutocommit_false R w.config w.shared

theorem behaves_setReadOnly (value : OptionValue) :
    (w.record (.setOption .readOnly value) (w.setOption R .readOnly value)).Behaves := by
  refine Record.behaves_of_silent ?_ id
  simp only [setOption, onShared]
  cases boolOption K value "option adbc.connection.readonly".toList with
  | error e => exact .of_log rfl fun _ => rfl
  | ok flag => exact .of_log rfl fun _ => rfl

theorem behaves_setOther (key : List Char) (value : OptionValue) :
    (w.record (.setOption (.other key) value) (w.setOption R (.other key) value)).Behaves := by
  refine Record.behaves_of_silent ?_ id
  simp only [setOption]
  cases K.setConnectionOption key value w.config.settings with
  | error e => exact .of_log rfl fun _ => rfl
  | ok settings => exact .of_log rfl fun _ => rfl

theorem behaves_commit (hset : w.readOnly = true) :
    (w.record .commit (w.onShared (Connection.commit R w.config) fun _ => .unit)).Behaves := by
  simp only [onShared]
  cases hm : w.shared.txn.autocommit with
  | false =>
    rw [Connection.exec_commit hset hm]
    exact Record.behaves_of_ended .commit rfl rfl
  | true =>
    rw [Connection.exec_commit_autocommit hm]
    exact Record.behaves_of_autocommit rfl hm

theorem behaves_rollback :
    (w.record .rollback (w.onShared Connection.rollback fun _ => .unit)).Behaves := by
  simp only [onShared, Connection.rollback, exec_withTxn]
  cases hm : w.shared.txn.autocommit with
  | true => exact Record.behaves_of_autocommit rfl hm
  | false =>
    exact {
      logged := by simp [Record.calls, record]
      silent := by simp [Record.calls, record]
      kept := fun h => absurd rfl h
      refused := nofun
      completed := nofun
      rolledBack := fun _ _ => ⟨rfl, rfl⟩ }

/-- Creating a statement copies the address of the flag. -/
theorem aliased_apply (ha : w.Aliased) (h : w.apply R op = some r) : r.2.Aliased := by
  cases op with
  | setOption key value =>
    cases h
    cases key with
    | autocommit => exact ha
    | readOnly => exact ha
    | other key =>
      simp only [setOption]
      cases K.setConnectionOption key value w.config.settings with
      | error e => exact ha
      | ok settings => exact ha
  | newStatement =>
    cases h
    intro self hself
    rcases List.mem_append.mp hself with hself | hself
    · exact ha self hself
    · rw [List.mem_singleton.mp hself]
      rfl
  | commit => cases h; exact ha
  | rollback => cases h; exact ha
  | getTableSchema catalog dbSchema table => cases h; exact ha
  | getObjects depth catalog filters => cases h; exact ha
  | getStatistics catalog dbSchema tableName => cases h; exact ha
  | readPartition descriptor => cases h; exact ha
  | onStatement i op =>
    simp only [apply, onStatement] at h
    cases hself : w.statements[i]? with
    | none => rw [hself] at h; cases h
    | some self =>
      rw [hself] at h
      cases h
      have href := ha self (List.mem_of_getElem? hself)
      intro self' hself'
      rcases List.mem_or_eq_of_mem_set hself' with hself' | rfl
      · exact ha self' hself'
      · exact (op.keeps_run (self, w.shared) href).1

theorem reads_readPartition {descriptor : List UInt8}
    (ht : (Op.readPartition descriptor : Op K).Trusted) :
    Keeps Reads (Connection.readPartition R descriptor) := by
  unfold Connection.readPartition
  cases hp : K.decodePartition descriptor with
  | error e => exact .throw e
  | ok partition =>
    refine .bind (reads_perform ?_ _) fun _ => .pure _
    simp [Call.canWrite, ht partition hp]

theorem behaves_apply (ha : w.Aliased) (hset : w.readOnly = true) (ht : op.Trusted)
    (h : w.apply R op = some r) :
    (w.record op r).Behaves := by
  cases op with
  | setOption key value =>
    cases h
    cases key with
    | autocommit => exact behaves_autocommit hset value
    | readOnly => exact behaves_setReadOnly value
    | other key => exact behaves_setOther key value
  | newStatement =>
    cases h
    exact Record.behaves_of_silent (.of_log rfl fun _ => rfl) id
  | commit => cases h; exact behaves_commit hset
  | rollback => cases h; exact behaves_rollback
  | getTableSchema catalog dbSchema table =>
    cases h
    exact behaves_onShared hset id (keeps_reads (Connection.reads_getTableSchema _ _ _ _ _)) _
  | getObjects depth catalog filters =>
    cases h
    exact behaves_onShared hset id (keeps_reads (Connection.reads_getObjects _ _ _ _ _)) _
  | getStatistics catalog dbSchema tableName =>
    cases h
    exact behaves_onShared hset id (keeps_reads (Connection.reads_getStatistics _ _ _ _ _)) _
  | readPartition descriptor =>
    cases h
    exact behaves_onShared hset id (keeps_reads (reads_readPartition ht)) _
  | onStatement i op =>
    simp only [apply, onStatement] at h
    cases hself : w.statements[i]? with
    | none => rw [hself] at h; cases h
    | some self =>
      rw [hself] at h
      cases h
      have href := ha self (List.mem_of_getElem? hself)
      have hq := (op.keeps_run (R := R) (self, w.shared) href).2 hset
      exact Record.behaves_of_silent hq.toSilent id

end World

/-! ## Whole runs -/

/-- The invariant of a run: the flag is aliased, and so far every operation on a read-only
connection has behaved. -/
def ReadOnlySoFar (tr : List (Record K)) (w : World K) : Prop :=
  w.Aliased ∧ ∀ r ∈ tr, r.before.readOnly = true → r.Behaves

theorem readOnlySoFar_step {tr rs : List (Record K)} {w w' : World K} {op : Op K}
    (h : ReadOnlySoFar tr w) (ht : op.Trusted) (hs : (machine R).step w op = some (w', rs)) :
    ReadOnlySoFar (tr ++ rs) w' := by
  obtain ⟨r, hr, e⟩ := Option.map_eq_some_iff.mp hs
  cases e
  refine ⟨World.aliased_apply h.1 hr, fun r' hr' hset => ?_⟩
  rcases List.mem_append.mp hr' with hr' | hr'
  · exact h.2 r' hr' hset
  · obtain rfl := List.mem_singleton.mp hr'
    exact World.behaves_apply h.1 hset ht hr

/-- Whatever is done with a connection and its statements, in any order and from the moment the
connection is opened: an operation that starts while the read-only flag is set makes no call that
can write, and leaves buffered work pending unless it rolls it back; a transaction without buffered
work can still be ended. -/
theorem read_only_never_writes (R : Replies K) (catalog : List Char) (settings : K.Settings)
    {ops : List (Op K)} {w : World K} {tr : List (Record K)} (ht : ∀ op ∈ ops, op.Trusted)
    (hr : (machine R).run (World.new catalog settings) ops = some (w, tr)) :
    ∀ r ∈ tr, r.before.readOnly = true → r.Behaves := by
  have hmeets : (machine R).Meets (fun _ op => op.Trusted) (World.new catalog settings) ops :=
    Machine.meets_of_invariant (I := fun _ => True) (fun _ h => h) (fun _ _ _ => trivial) trivial ht
  have h₀ : ReadOnlySoFar [] (World.new catalog settings) :=
    ⟨fun _ h => absurd h List.not_mem_nil, fun _ h => absurd h List.not_mem_nil⟩
  have h : ReadOnlySoFar ([] ++ tr) w := Machine.guarded_induction readOnlySoFar_step h₀ hmeets hr
  exact h.2

/-- Two rows are buffered by an ingest, then the flag is set, then the transaction is to be committed
and at last rolled back. -/
def bufferedThenReadOnly : List (Op plainClient) :=
  [.newStatement, .setOption .autocommit (.string "false".toList),
    .onStatement 0 (.bind { numRows := 2, numColumns := 1, arrayMemorySize := 16, columns := () }),
    .onStatement 0 (.setOption .targetTable (.string "t".toList)),
    .onStatement 0 (.setOption .ingestMode (.string "append".toList)),
    .onStatement 0 .executeUpdate, .setOption .readOnly (.string "true".toList),
    .onStatement 0 .executeUpdate, .commit, .setOption .autocommit (.string "true".toList),
    .rollback, .commit]

def bufferedRun : Option (World plainClient × List (Record plainClient)) :=
  (machine plainReplies).run (World.new [] ()) bufferedThenReadOnly

theorem read_only_never_writes_buffered : ∃ w tr, bufferedRun = some (w, tr) ∧
    (tr.map fun r => (r.before.readOnly, r.before.shared.txn.txn.work.rows.length)) =
      [(false, 0), (false, 0), (false, 0), (false, 0), (false, 0), (false, 0), (false, 2),
        (true, 2), (true, 2), (true, 2), (true, 2), (true, 0)] ∧
    ∀ r ∈ tr, r.before.readOnly = true → r.Behaves := by
  have hsome : bufferedRun.isSome = true := rfl
  have hr := (Option.some_get hsome).symm
  refine ⟨_, _, hr, rfl, ?_⟩
  refine read_only_never_writes plainReplies [] () ?_ hr
  intro op hop
  simp only [bufferedThenReadOnly, List.mem_cons, List.not_mem_nil, or_false] at hop
  rcases hop with rfl | rfl | rfl | rfl | rfl | rfl | rfl | rfl | rfl | rfl | rfl | rfl <;> trivial

end Session
end SpannerAdbc
