import SpannerAdbc.Lib.Result
import SpannerAdbc.Lib.Trace
import SpannerAdbc.Session.Reads

/-!
# SpannerAdbc.Session.Texts

Which SQL texts reach a write path.

`ExecuteBatchDml`, partitioned DML and the buffer of a manual transaction take one DML statement a
text, a schema change one DDL statement a text (`Single`). The unbound DML path splits the text and
checks every piece (`Statement.built_of_unbound`), but a text with bound rows is sent as it is, and the
pieces of a text that begins with DDL are not checked.

`textsKept_iff` says when one execution of a text writes single statements only and refuses the rest
before it has done anything; `Session.Driver` has the result for whole runs.
-/

namespace SpannerAdbc
namespace Session

open Lib Ingest Txn Lib.Prog

/-! ## Texts with one statement -/

/-- Exactly one statement, of a class, and no top-level semicolon. -/
structure Single (cls : List Char → Bool) (text : List Char) : Prop where
  one : (Sql.splitStatements text).length = 1
  free : Sql.Lexeme.other ';' ∉ Sql.lex text
  cls : cls text = true

/-- The text is made of statements of the class of its first keyword. A query has no such class. -/
def Breaks (sql : List Char) : Prop :=
  if Sql.isDdl sql then ∀ text ∈ Sql.splitStatements sql, Sql.isDdl text = true
  else Sql.isDml sql = true → ∀ text ∈ Sql.splitStatements sql, Sql.isDml text = true

variable {sql : List Char}

theorem single_of_mem_split {cls : List Char → Bool} {text : List Char}
    (h : text ∈ Sql.splitStatements sql) (hc : cls text = true) : Single cls text := by
  have hst := Sql.statement_of_mem_split sql text h
  exact ⟨by rw [hst.split]; rfl, hst.free, hc⟩

theorem isDml_of_split {text : List Char} (h : Sql.splitStatements sql = [text])
    (hd : Sql.isDml sql = true) : Sql.isDml text = true := by
  have hkw := Sql.firstKeyword_of_split h
  unfold Sql.isDml at hd ⊢
  split at hkw
  · rw [hkw] at hd
    cases hd
  · rwa [hkw] at hd

/-- A text with a keyword has a statement. -/
theorem hasStatement_of_isDml (hd : Sql.isDml sql = true) :
    Sql.hasStatement sql = true := by
  unfold Sql.isDml Sql.firstKeyword Sql.significantLexemes at hd
  unfold Sql.hasStatement
  rw [List.any_eq_true]
  cases hl : (Sql.lex sql).filter Sql.Lexeme.isSignificant with
  | nil =>
    rw [hl] at hd
    cases hd
  | cons l ls =>
    have hm : l ∈ (Sql.lex sql).filter Sql.Lexeme.isSignificant := by
      rw [hl]
      exact List.mem_cons_self
    exact ⟨l, List.mem_of_mem_filter hm, List.of_mem_filter hm⟩

/-- Without a top-level semicolon the text has one piece. -/
theorem split_of_free (hf : Sql.Lexeme.other ';' ∉ Sql.lex sql) (hd : Sql.isDml sql = true) :
    Sql.splitStatements sql = [Sql.trim sql] := by
  have hseg : Sql.Segment sql (Sql.lex sql) [] := ⟨Scanner.scans_tokens sql, hf, .inl rfl⟩
  have hflat : Sql.lexer.flat (Sql.lex sql) = sql := Scanner.flat_tokens sql
  rw [hseg.splitStatements_last, hflat]
  rcases Sql.pushStatement_cases hf with ⟨-, hns⟩ | ⟨e, -⟩
  · rw [hasStatement_of_isDml hd] at hns
    cases hns
  · exact e

theorem single_of_free (hf : Sql.Lexeme.other ';' ∉ Sql.lex sql) (hd : Sql.isDml sql = true) :
    Single Sql.isDml sql :=
  ⟨by rw [split_of_free hf hd]; rfl, hf, hd⟩

/-! ## The statements that are built -/

variable {K : Client} {R : Replies K}

theorem checkAllDmlBatch_ok {statements : List (List Char)} :
    checkAllDmlBatch K statements = .ok () ↔
      (statements.length > 1 → ∀ text ∈ statements, Sql.isDml text = true) := by
  unfold checkAllDmlBatch
  split
  · rename_i hlen
    cases hf : statements.find? fun s => !Sql.isDml s with
    | none =>
      rw [List.find?_eq_none] at hf
      exact iff_of_true rfl fun _ text ht => by simpa using hf text ht
    | some other =>
      have hm := List.mem_of_find?_eq_some hf
      have hn := List.find?_some hf
      refine iff_of_false (by simp) fun h => ?_
      rw [h hlen other hm] at hn
      cases hn
  · rename_i hlen
    exact iff_of_true rfl fun h => absurd h hlen

namespace Statement

variable {self : Statement K} {sql : List Char} {statements : List (SpannerSql K)}
  {names : List (List Char)} {batch : Batch K.Data} {base : SpannerSql K}

theorem rows_of_bindRows {row n : Nat} (h : bindRows base names batch row n = .ok statements) :
    statements.length = n ∧ ∀ statement ∈ statements, ∃ params, statement = { base with params } := by
  induction n generalizing row statements with
  | zero =>
    cases h
    simp
  | succ n ih =>
    obtain ⟨params, -, h⟩ := bind_eq_ok.mp h
    obtain ⟨rest, hr, h⟩ := bind_eq_ok.mp h
    cases h
    obtain ⟨hlen, hall⟩ := ih hr
    exact ⟨by rw [List.length_cons, hlen], List.forall_mem_cons.mpr ⟨⟨_, rfl⟩, hall⟩⟩

/-- One statement a row, and each of them has the whole text. -/
theorem rows_of_buildBoundLoop {bound : List (Batch K.Data)}
    (h : self.buildBoundLoop sql bound = .ok statements) : statements.length = rowCount bound ∧
      ∀ statement ∈ statements, ∃ params, statement = { self.sqlBuilder sql with params } := by
  induction bound generalizing statements with
  | nil =>
    cases h
    simp [rowCount]
  | cons batch bound ih =>
    rw [rowCount, List.map_cons, List.sum_cons]
    rw [buildBoundLoop] at h
    split at h
    · rename_i hn
      rw [hn, Nat.zero_add]
      exact ih h
    · obtain ⟨names, -, h⟩ := bind_eq_ok.mp h
      obtain ⟨rows, hb, h⟩ := bind_eq_ok.mp h
      obtain ⟨rest, hr, h⟩ := bind_eq_ok.mp h
      cases h
      obtain ⟨hlen, hall⟩ := rows_of_bindRows hb
      obtain ⟨hlen', hall'⟩ := ih hr
      refine ⟨?_, List.forall_mem_append.mpr ⟨hall, hall'⟩⟩
      rw [List.length_append, hlen, hlen']
      rfl

/-- Of one piece the check asks nothing: it has the keyword of the text. -/
theorem pieces_isDml (hd : Sql.isDml sql = true)
    (h : (Sql.splitStatements sql).length > 1 →
      ∀ text ∈ Sql.splitStatements sql, Sql.isDml text = true) :
    ∀ text ∈ Sql.splitStatements sql, Sql.isDml text = true := by
  intro text ht
  by_cases hlen : (Sql.splitStatements sql).length > 1
  · exact h hlen text ht
  · have hone : Sql.splitStatements sql = [text] := by
      match hs : Sql.splitStatements sql with
      | [] =>
        rw [hs] at ht
        cases ht
      | [other] =>
        rw [hs, List.mem_singleton] at ht
        rw [ht]
      | _ :: _ :: _ =>
        rw [hs] at hlen
        simp at hlen
    exact isDml_of_split hone hd

/-- The statements of DML, as its path builds them. -/
def built (self : Statement K) (sql : List Char) : Except Error (List (SpannerSql K)) :=
  if !self.dmlPartitioned && Sql.isDmlReturning sql then self.buildReturningStatements sql
  else self.buildDmlStatements sql

/-- With bound data the text is taken as it is. -/
theorem built_of_bound (hb : self.bound ≠ []) : self.built sql = self.buildBoundStatements sql := by
  have hempty : self.bound.isEmpty = false := List.isEmpty_eq_false_iff.mpr hb
  simp [built, buildDmlStatements, buildReturningStatements, hempty]

/-- Without bound data the text is split, and its pieces are checked. -/
theorem built_of_unbound (hd : Sql.isDml sql = true) (hb : self.bound = [])
    (h : self.built sql = .ok statements) :
    (∀ text ∈ Sql.splitStatements sql, Sql.isDml text = true) ∧
      statements = (Sql.splitStatements sql).map self.sqlBuilder := by
  unfold built buildReturningStatements buildDmlStatements at h
  simp only [hb, List.isEmpty_nil, if_true, Bool.not_true, Bool.false_eq_true, if_false] at h
  split at h
  · split at h
    · cases h
    · rename_i hlen
      cases h
      exact ⟨pieces_isDml hd fun h => absurd h hlen, rfl⟩
  · obtain ⟨u, hc, h⟩ := bind_eq_ok.mp h
    cases h
    exact ⟨pieces_isDml hd (checkAllDmlBatch_ok.mp hc), rfl⟩

/-! ## Bound rows -/

/-- The names and the values of every bound row can be worked out. -/
def Bindable (self : Statement K) (sql : List Char) : Prop :=
  ∀ batch ∈ self.bound, batch.numRows ≠ 0 → ∃ names,
    K.resolveParameterNames sql batch self.bindByName = .ok names ∧
      ∀ row < batch.numRows, ∃ params, K.bindParams names batch row = .ok params

theorem bindRows_ok {row n : Nat} :
    (∃ statements, bindRows base names batch row n = .ok statements) ↔
      ∀ i < n, ∃ params, K.bindParams names batch (row + i) = .ok params := by
  induction n generalizing row with
  | zero => exact iff_of_true ⟨[], rfl⟩ (by simp)
  | succ n ih =>
    rw [Nat.forall_lt_succ_left]
    simp only [← Nat.add_assoc, Nat.add_right_comm row _ 1, ← ih]
    constructor
    · rintro ⟨statements, h⟩
      obtain ⟨params, hp, h⟩ := bind_eq_ok.mp h
      obtain ⟨rest, hr, -⟩ := bind_eq_ok.mp h
      exact ⟨⟨params, hp⟩, rest, hr⟩
    · rintro ⟨⟨params, hp⟩, rest, hr⟩
      exact ⟨_, bind_eq_ok.mpr ⟨params, hp, bind_eq_ok.mpr ⟨rest, hr, rfl⟩⟩⟩

theorem bindable_iff : self.Bindable sql ↔
    ∃ statements, self.buildBoundStatements sql = .ok statements := by
  unfold Bindable buildBoundStatements
  induction self.bound with
  | nil => exact iff_of_true (by simp) ⟨[], rfl⟩
  | cons batch bound ih =>
    rw [List.forall_mem_cons, ih, buildBoundLoop]
    split
    · rename_i hn
      exact and_iff_right fun h => absurd hn h
    · rename_i hn
      have hrows : ∀ names,
          (∃ statements, bindRows (self.sqlBuilder sql) names batch 0 batch.numRows = .ok statements) ↔
            ∀ i < batch.numRows, ∃ params, K.bindParams names batch (0 + i) = .ok params :=
        fun names => bindRows_ok
      simp only [Nat.zero_add] at hrows
      constructor
      · rintro ⟨hbatch, rest, hr⟩
        obtain ⟨names, hnames, hall⟩ := hbatch hn
        obtain ⟨rows, hb⟩ := (hrows names).mpr hall
        exact ⟨_, bind_eq_ok.mpr ⟨names, hnames, bind_eq_ok.mpr ⟨rows, hb, bind_eq_ok.mpr
          ⟨rest, hr, rfl⟩⟩⟩⟩
      · rintro ⟨statements, h⟩
        obtain ⟨names, hnames, h⟩ := bind_eq_ok.mp h
        obtain ⟨rows, hb, h⟩ := bind_eq_ok.mp h
        obtain ⟨rest, hr, -⟩ := bind_eq_ok.mp h
        exact ⟨fun _ => ⟨names, hnames, (hrows names).mp ⟨rows, hb⟩⟩, rest, hr⟩

end Statement

/-! ## Programs that write single statements -/

theorem isOk_map {α β : Type} (r : Except Error α) (g : α → β) : (r.map g).isOk = r.isOk := by
  cases r <;> rfl

/-- The texts that a call sends are single statements. -/
def Call.Singly (c : Call K) : Prop :=
  (∀ text ∈ c.dml, Single Sql.isDml text) ∧ ∀ text ∈ c.ddl, Single Sql.isDdl text

/-- The new calls and the newly buffered statements are single statements. -/
structure WritesSingly (s s' : Shared K) : Prop where
  log : Grows Call.Singly s.log s'.log
  buffer : Grows (fun statement => Single Sql.isDml statement.sql)
    s.txn.txn.work.statements s'.txn.txn.work.statements

instance : IsPreorder (Shared K) WritesSingly where
  refl _ := ⟨.refl _, .refl _⟩
  trans _ _ _ h h' := ⟨h.log.trans h'.log, h.buffer.trans h'.buffer⟩

/-- A call that only reads sends no DML and no DDL. -/
theorem Call.texts_of_reads {c : Call K} (h : c.canWrite = false) : c.dml = [] ∧ c.ddl = [] := by
  cases c with
  | readWrite | writeOnly | batchWrite | partitionedDml | updateDatabaseDdl => cases h
  | _ => exact ⟨rfl, rfl⟩

theorem Reads.writesSingly {s s' : Shared K} (h : Reads s s') : WritesSingly s s' := by
  obtain ⟨calls, hlog, hcalls⟩ := h.log
  refine ⟨⟨calls, hlog, fun c hc => ?_⟩, .of_eq (by rw [h.work])⟩
  obtain ⟨h1, h2⟩ := Call.texts_of_reads (hcalls c hc)
  simp [Call.Singly, h1, h2]

theorem singly_perform {α : Type} {call : Call K} (h : call.Singly)
    (reply : List (Call K) → Except Error α) : Keeps WritesSingly (perform call reply) := by
  intro s
  rw [exec_perform]
  refine ⟨.append fun c hc => ?_, .refl _⟩
  rwa [List.mem_singleton.mp hc]

namespace Statement

variable {self : Statement K} {sql : List Char} {statements : List (SpannerSql K)}

theorem singly_runDdl {texts : List (List Char)} (h : ∀ text ∈ texts, Single Sql.isDdl text) :
    Keeps WritesSingly (self.runDdl R texts) := by
  refine .bind (.of_unchanged fun s => by rw [self.config.exec_ensureWritable]) fun _ => ?_
  refine singly_perform ?_ _
  exact ⟨by simp [Call.dml], h⟩

/-! ## What DML writes -/

/-- What DML does with its statements: one call with texts of theirs, or it buffers them. -/
inductive Sends {α : Type} (statements : List (SpannerSql K)) (s : Shared K)
    (r : Except Error α × Shared K) : Prop
  | called {call : Call K} (log : r.2.log = s.log ++ [call]) (txn : r.2.txn = s.txn)
      (ddl : call.ddl = []) (dml : ∀ text ∈ call.dml, ∃ statement ∈ statements, statement.sql = text)
      (sent : statements ≠ [] → call.dml ≠ [])
  | buffered (ok : r.1.isOk = true) (log : r.2.log = s.log)
      (buffer : r.2.txn.txn.work.statements = s.txn.txn.work.statements ++ statements)

namespace Sends

variable {α β : Type} {s : Shared K} {r : Except Error α × Shared K}

theorem map (g : α → β) (h : Sends statements s r) : Sends statements s (r.1.map g, r.2) := by
  cases h with
  | called log txn ddl dml sent => exact .called log txn ddl dml sent
  | buffered ok log buffer => exact .buffered (by rwa [isOk_map]) log buffer

theorem singly (h : Sends statements s r)
    (hall : ∀ statement ∈ statements, Single Sql.isDml statement.sql) : WritesSingly s r.2 := by
  cases h with
  | called log txn ddl dml sent =>
    refine ⟨⟨_, log, fun c hc => ?_⟩, .of_eq (by rw [txn])⟩
    obtain rfl := List.mem_singleton.mp hc
    refine ⟨fun text ht => ?_, by simp [ddl]⟩
    obtain ⟨statement, hst, rfl⟩ := dml text ht
    exact hall statement hst
  | buffered ok log buffer => exact ⟨.of_eq log, ⟨statements, buffer, hall⟩⟩

/-- It is not refused with nothing done. -/
theorem not_refused (h : Sends statements s r) : ¬ (r.1.isOk = false ∧ r.2 = s) := by
  rintro ⟨hfailed, hsame⟩
  cases h with
  | called log txn ddl dml sent => simpa [hsame] using congrArg List.length log
  | buffered ok log buffer => simp [hfailed] at ok

/-- What all statements have is written as it is. -/
theorem single (h : Sends statements s r) (hne : statements ≠ [])
    (hall : ∀ statement ∈ statements, statement.sql = sql) (hs : WritesSingly s r.2) :
    Single Sql.isDml sql := by
  cases h with
  | called log txn ddl dml sent =>
    obtain ⟨text, ht⟩ := List.exists_mem_of_ne_nil _ (sent hne)
    obtain ⟨statement, hst, rfl⟩ := dml text ht
    rw [← hall statement hst]
    exact (hs.log.of_mem_drop _ (by simp [log])).1 _ ht
  | buffered ok log buffer =>
    obtain ⟨statement, hst⟩ := List.exists_mem_of_ne_nil _ hne
    rw [← hall statement hst]
    exact hs.buffer.of_mem_drop statement (by simpa [buffer] using hst)

end Sends

theorem checkPartitionedDml_ok {autocommit : Bool} {boundRows : Nat} :
    checkPartitionedDml sql autocommit boundRows = .ok () ↔ autocommit = true ∧
      Sql.isDmlReturning sql = false ∧ (Sql.splitStatements sql).length ≤ 1 ∧ boundRows ≤ 1 := by
  unfold checkPartitionedDml
  split
  · rename_i hm
    exact iff_of_false (by rintro ⟨⟩) fun h => by simp [h.1] at hm
  · rename_i hm
    split
    · rename_i hr
      exact iff_of_false (by rintro ⟨⟩) fun h => by simp [h.2.1] at hr
    · rename_i hr
      dsimp only
      split
      · rename_i hlen
        exact iff_of_false (by rintro ⟨⟩) fun h => absurd h.2.2.1 (Nat.not_le.mpr hlen)
      · rename_i hlen
        split
        · rename_i hrows
          exact iff_of_false (by rintro ⟨⟩) fun h => absurd h.2.2.2 (Nat.not_le.mpr hrows)
        · rename_i hrows
          exact iff_of_true rfl ⟨by simpa using hm, by simpa using hr, Nat.le_of_not_lt hlen,
            Nat.le_of_not_lt hrows⟩

/-- DML of the statement is not refused for its options, the mode or the kind of the transaction. -/
def Admits (self : Statement K) (sql : List Char)
    (st : TxnState (SpannerSql K) K.Mutation K.Handle) : Prop :=
  if self.dmlPartitioned then st.autocommit = true ∧ Sql.isDmlReturning sql = false ∧
    (Sql.splitStatements sql).length ≤ 1 ∧ rowCount self.bound ≤ 1
  else if Sql.isDmlReturning sql then st.autocommit = true
  else st.autocommit = true ∨ ∀ txn, st.txn ≠ .read txn

/-- DML that can be built is sent where the path admits it, and is refused with nothing done
otherwise. -/
def Settles {α : Type} (build : Except Error (List (SpannerSql K))) (admits : Prop) (s : Shared K)
    (r : Except Error α × Shared K) : Prop :=
  (admits ∧ ∃ statements, build = .ok statements ∧ Sends statements s r) ∨
    ¬ (admits ∧ ∃ statements, build = .ok statements) ∧ ∃ e, r = (.error e, s)

namespace Settles

variable {α β : Type} {build : Except Error (List (SpannerSql K))} {admits : Prop} {s : Shared K}
  {r : Except Error α × Shared K}

theorem map (g : α → β) (h : Settles build admits s r) :
    Settles build admits s (r.1.map g, r.2) := by
  rcases h with ⟨hadmits, statements, hbuild, hsends⟩ | ⟨hnot, e, rfl⟩
  · exact .inl ⟨hadmits, statements, hbuild, hsends.map g⟩
  · exact .inr ⟨hnot, e, rfl⟩

theorem refused (h : ¬ admits) {e : Error} : Settles (α := α) build admits s (.error e, s) :=
  .inr ⟨fun h' => h h'.1, e, rfl⟩

/-- The statements are built first. -/
theorem built {f : List (SpannerSql K) → Prog Error (Shared K) α}
    (h : ∀ statements, admits ∧ Sends statements s ((f statements).exec s) ∨
      ¬ admits ∧ ∃ e, (f statements).exec s = (.error e, s)) :
    Settles build admits s ((MonadExcept.ofExcept build >>= f).exec s) := by
  cases build with
  | error e => exact .inr ⟨by simp, e, rfl⟩
  | ok statements =>
    rw [exec_bind_ok (exec_ofExcept s _)]
    rcases h statements with ⟨hadmits, hsends⟩ | ⟨hnot, e, he⟩
    · exact .inl ⟨hadmits, statements, rfl, hsends⟩
    · exact .inr ⟨fun h => hnot h.1, e, he⟩

end Settles

theorem bufferDml_eq {st : TxnState (SpannerSql K) K.Mutation K.Handle} (hm : st.autocommit = false)
    (statements : List (SpannerSql K)) : (∃ st', st.bufferDml statements = .ok st') ↔
      ∀ txn, st.txn ≠ .read txn := by
  unfold TxnState.bufferDml TxnState.checkKindAllowed
  rw [hm]
  cases ht : st.txn with
  | read txn => exact iff_of_false (by rintro ⟨st', h⟩; cases h) fun h => h txn rfl
  | unset => exact iff_of_true (by cases statements <;> exact ⟨_, rfl⟩) (by simp)
  | dml buffered mutations => exact iff_of_true (by cases statements <;> exact ⟨_, rfl⟩) (by simp)

theorem sends_runOrBuffer (self : Statement K) (statements : List (SpannerSql K)) (s : Shared K) :
    (s.txn.autocommit = true ∨ ∀ txn, s.txn.txn ≠ .read txn) ∧
        Sends statements s ((self.runOrBuffer R statements).exec s) ∨
      ¬ (s.txn.autocommit = true ∨ ∀ txn, s.txn.txn ≠ .read txn) ∧
        ∃ e, (self.runOrBuffer R statements).exec s = (.error e, s) := by
  unfold runOrBuffer runBatchTxn
  rw [exec_bind, exec_withTxn]
  cases hm : s.txn.autocommit with
  | true =>
    refine .inl ⟨.inl rfl, ?_⟩
    simp only [if_true, Bool.false_eq_true, if_false, exec_bind_pure]
    cases statements with
    | nil => exact .buffered rfl rfl (List.append_nil _).symm
    | cons statement statements =>
      rw [if_neg (by simp), exec_perform]
      exact .called rfl rfl rfl (fun text ht => List.mem_map.mp ht) fun _ => by simp [Call.dml]
  | false =>
    simp only [Bool.false_eq_true, if_false, false_or]
    cases hb : s.txn.bufferDml statements with
    | error e =>
      refine .inr ⟨fun h => ?_, e, rfl⟩
      obtain ⟨st', hst'⟩ := (bufferDml_eq hm statements).mpr h
      rw [hst'] at hb
      cases hb
    | ok st' =>
      refine .inl ⟨(bufferDml_eq hm statements).mp ⟨st', hb⟩, .buffered rfl rfl ?_⟩
      exact congrArg Work.statements (TxnState.bufferDml_ok hm hb).2.work

theorem exec_isAutocommit_self (s : Shared K) :
    (isAutocommit : Prog Error (Shared K) Bool).exec s = (.ok s.txn.autocommit, s) :=
  exec_withTxn _ s

theorem settles_runPartitionedDml (s : Shared K) :
    Settles (self.buildDmlStatements sql) (s.txn.autocommit = true ∧ Sql.isDmlReturning sql = false ∧
      (Sql.splitStatements sql).length ≤ 1 ∧ rowCount self.bound ≤ 1) s
      ((self.runPartitionedDml R sql).exec s) := by
  rw [runPartitionedDml, exec_bind_ok (exec_isAutocommit_self s)]
  cases hc : checkPartitionedDml sql s.txn.autocommit (rowCount self.bound) with
  | error e =>
    refine .refused fun h => ?_
    rw [checkPartitionedDml_ok.mpr h] at hc
    cases hc
  | ok u =>
    rw [exec_bind_ok (exec_ofExcept _ _)]
    refine .built fun statements => .inl ⟨checkPartitionedDml_ok.mp hc, ?_⟩
    cases hl : statements.getLast? with
    | none =>
      obtain rfl := List.getLast?_eq_none_iff.mp hl
      exact .buffered rfl rfl (List.append_nil _).symm
    | some statement =>
      dsimp only
      rw [exec_perform]
      refine .called rfl rfl rfl (fun text ht => ⟨statement, List.mem_of_getLast? hl, ?_⟩)
        fun _ => by simp [Call.dml]
      exact (List.mem_singleton.mp ht).symm

theorem sends_executeReturningDml (statements : List (SpannerSql K)) (s : Shared K) :
    Sends statements s ((self.executeReturningDml R statements).exec s) := by
  unfold executeReturningDml
  rw [exec_bind, exec_perform]
  cases R.rows (s.log ++ [.readWrite self.config.settings (.returning statements)]) with
  | error e => exact .called rfl rfl rfl (fun text ht => List.mem_map.mp ht) (by simp [Call.dml])
  | ok results =>
    dsimp only
    rw [exec_ofExcept]
    exact .called rfl rfl rfl (fun text ht => List.mem_map.mp ht) (by simp [Call.dml])

theorem settles_runDml (sql : List Char) {s : Shared K} (hw : s.flags self.config.readOnly = false) :
    Settles (self.built sql) (self.Admits sql s.txn) s ((self.runDml R sql).exec s) := by
  unfold runDml Admits built
  rw [exec_bind, self.config.exec_ensureWritable, hw]
  simp only [Bool.false_eq_true, if_false]
  cases self.dmlPartitioned with
  | true =>
    simp only [Bool.not_true, Bool.false_and, Bool.false_eq_true, if_false, if_true]
    rw [exec_bind_pure]
    exact (settles_runPartitionedDml s).map _
  | false =>
    cases hr : Sql.isDmlReturning sql with
    | false =>
      refine .built fun statements => ?_
      rw [exec_bind_pure]
      rcases self.sends_runOrBuffer (R := R) statements s with
        ⟨hadmits, hsends⟩ | ⟨hnot, e, he⟩
      · exact .inl ⟨hadmits, hsends.map _⟩
      · exact .inr ⟨hnot, e, by rw [he]; rfl⟩
    | true =>
      simp only [Bool.not_true, Bool.false_eq_true, if_false, if_true]
      rw [exec_bind_ok (exec_isAutocommit_self s)]
      cases hm : s.txn.autocommit with
      | false => exact .refused Bool.false_ne_true
      | true =>
        refine .built fun statements => .inl ⟨rfl, ?_⟩
        rw [exec_bind_pure]
        exact (sends_executeReturningDml statements s).map _

end Statement

/-! ## Executions -/

/-- The two entry points that execute a text. -/
def StatementOp.rows (update : Bool) : StatementOp K := bif update then .executeUpdate else .execute

/-- The execution writes single statements only, and a text that does not break up into them is
refused with nothing done. -/
structure TextsKept (R : Replies K) (update : Bool) (sql : List Char) (statement : Statement K)
    (s : Shared K) : Prop where
  singly : WritesSingly s (((StatementOp.rows update).run R).exec (statement, s)).2.2
  refuses : ¬ Breaks sql → (((StatementOp.rows update).run R).exec (statement, s)).1.isOk = false ∧
    (((StatementOp.rows update).run R).exec (statement, s)).2.2 = s

section Routes

variable {self : Statement K} {sql : List Char} {s : Shared K}

theorem run_rows_ddl (update : Bool) (hsql : self.sql = some sql) (hd : Sql.isDdl sql = true) :
    (((StatementOp.rows update).run R).exec (self, s)).1.isOk =
        ((self.runDdl R (Sql.splitStatements sql)).exec s).1.isOk ∧
      (((StatementOp.rows update).run R).exec (self, s)).2.2 =
        ((self.runDdl R (Sql.splitStatements sql)).exec s).2 := by
  have hcons : ((Statement.runDdlConsuming R sql).exec (self, s)).1.isOk =
        ((self.runDdl R (Sql.splitStatements sql)).exec s).1.isOk ∧
      ((Statement.runDdlConsuming R sql).exec (self, s)).2.2 =
        ((self.runDdl R (Sql.splitStatements sql)).exec s).2 := by
    unfold Statement.runDdlConsuming
    rw [exec_bind_ok Statement.exec_getSelf, exec_bind, exec_inSnd]
    cases ((self.runDdl R (Sql.splitStatements sql)).exec s).1 <;> exact ⟨rfl, rfl⟩
  cases update with
  | false =>
    rw [StatementOp.rows, cond_false, StatementOp.run, exec_bind_pure,
      Statement.exec_execute_sql hsql, if_pos hd, exec_bind_pure, isOk_map, isOk_map]
    exact hcons
  | true =>
    rw [StatementOp.rows, cond_true, StatementOp.run, exec_bind_pure,
      Statement.exec_executeUpdate_sql hsql, if_pos hd, exec_bind_pure, isOk_map, isOk_map]
    exact hcons

theorem run_rows_dml (update : Bool) (hsql : self.sql = some sql) (hn : Sql.isDdl sql = false)
    (hd : Sql.isDml sql = true) :
    (((StatementOp.rows update).run R).exec (self, s)).1.isOk = ((self.runDml R sql).exec s).1.isOk ∧
    (((StatementOp.rows update).run R).exec (self, s)).2.2 = ((self.runDml R sql).exec s).2 := by
  cases update with
  | false =>
    rw [StatementOp.rows, cond_false, StatementOp.run, exec_bind_pure,
      Statement.exec_execute_sql hsql, hn, if_neg Bool.false_ne_true, if_pos hd, exec_bind_pure,
      Statement.exec_runDmlConsuming, isOk_map, isOk_map]
    exact ⟨rfl, rfl⟩
  | true =>
    rw [StatementOp.rows, cond_true, StatementOp.run, exec_bind_pure,
      Statement.exec_executeUpdate_sql hsql, hn, if_neg Bool.false_ne_true, if_pos hd, exec_bind_pure,
      Statement.exec_runDmlConsuming, isOk_map, isOk_map]
    exact ⟨rfl, rfl⟩

/-- A text that is neither goes to the query path, whatever its other statements are. -/
theorem run_rows_query (update : Bool) (hsql : self.sql = some sql) (hn : Sql.isDdl sql = false)
    (hd : Sql.isDml sql = false) :
    Reads s (((StatementOp.rows update).run R).exec (self, s)).2.2 := by
  cases update with
  | false =>
    rw [StatementOp.rows, cond_false, StatementOp.run, exec_bind_pure,
      Statement.exec_execute_sql hsql, hn, hd, if_neg Bool.false_ne_true, if_neg Bool.false_ne_true]
    exact Statement.reads_executeQueryReader sql (self, s)
  | true =>
    rw [StatementOp.rows, cond_true, StatementOp.run, exec_bind_pure,
      Statement.exec_executeUpdate_sql hsql, hn, hd, if_neg Bool.false_ne_true,
      if_neg Bool.false_ne_true]
    refine (Keeps.bind (.ofExcept _) fun _ => ?_ : Keeps Statement.MethodReads _) (self, s)
    refine .bind (Statement.reads_executeQueryReader sql) fun reader => ?_
    exact .bind (Statement.reads_inSnd (Statement.reads_drainDiscardingRows reader)) fun _ => .pure _

end Routes

/-! ## Which executions keep to single statements -/

/-- On a writable connection a text that begins with DDL is all DDL, and DML that gets to its bound
rows has no top-level semicolon, or breaks up into DML if there are no rows. -/
def Statement.SentSingly (self : Statement K) (sql : List Char) (s : Shared K) : Prop :=
  s.flags self.config.readOnly = false →
    if Sql.isDdl sql then ∀ text ∈ Sql.splitStatements sql, Sql.isDdl text = true
    else Sql.isDml sql = true → self.bound ≠ [] → self.Admits sql s.txn → self.Bindable sql →
      if rowCount self.bound = 0 then Breaks sql else Sql.Lexeme.other ';' ∉ Sql.lex sql

section Executions

variable {update : Bool} {self : Statement K} {sql : List Char} {s : Shared K}

theorem textsKept_of_refused {r : Except Error (Value K) × Statement K × Shared K}
    (hr : ((StatementOp.rows update).run R).exec (self, s) = r) (hok : r.1.isOk = false)
    (hs : r.2.2 = s) : TextsKept R update sql self s := by
  subst hr
  exact ⟨by rw [hs]; exact Std.Refl.refl s, fun _ => ⟨hok, hs⟩⟩

theorem textsKept_ddl (hsql : self.sql = some sql) (hd : Sql.isDdl sql = true) :
    TextsKept R update sql self s ↔ self.SentSingly sql s := by
  obtain ⟨hok, hshared⟩ := run_rows_ddl (R := R) (s := s) update hsql hd
  unfold Statement.runDdl at hok hshared
  rw [exec_bind, self.config.exec_ensureWritable] at hok hshared
  unfold Statement.SentSingly
  cases hw : s.flags self.config.readOnly with
  | true =>
    rw [hw] at hok hshared
    exact iff_of_true (textsKept_of_refused rfl hok hshared) fun h => Bool.noConfusion h
  | false =>
    rw [hw] at hshared
    simp only [Bool.false_eq_true, if_false, exec_perform] at hshared
    rw [if_pos hd]
    constructor
    · intro h _ text ht
      have hlog := h.singly.log.of_mem_drop (.updateDatabaseDdl (Sql.splitStatements sql))
      rw [hshared] at hlog
      exact ((hlog (by simp)).2 text ht).cls
    · intro h
      refine ⟨?_, fun hn => absurd (h rfl) (by simpa [Breaks, hd] using hn)⟩
      rw [(run_rows_ddl update hsql hd).2]
      exact Statement.singly_runDdl (fun text ht => single_of_mem_split ht (h rfl text ht)) s

theorem breaks_of_free (hn : Sql.isDdl sql = false) (hd : Sql.isDml sql = true)
    (hf : Sql.Lexeme.other ';' ∉ Sql.lex sql) : Breaks sql := by
  rw [Breaks, hn, if_neg Bool.false_ne_true]
  refine fun _ => Statement.pieces_isDml hd fun hlen => ?_
  rw [split_of_free hf hd] at hlen
  exact absurd hlen (by simp)

/-- DML without a top-level semicolon is sent singly in any state. -/
theorem sentSingly_of_free (hn : Sql.isDdl sql = false) (hd : Sql.isDml sql = true)
    (hf : Sql.Lexeme.other ';' ∉ Sql.lex sql) : self.SentSingly sql s := by
  intro _
  rw [hn]
  intro _ _ _ _
  split
  · exact breaks_of_free hn hd hf
  · exact hf

/-- DML that gets to its bound rows. -/
theorem textsKept_of_sends (hsql : self.sql = some sql) (hn : Sql.isDdl sql = false)
    (hd : Sql.isDml sql = true) {statements : List (SpannerSql K)}
    (hbuild : self.buildBoundStatements sql = .ok statements)
    (hsends : Statement.Sends statements s ((self.runDml R sql).exec s)) :
    TextsKept R update sql self s ↔
      if rowCount self.bound = 0 then Breaks sql else Sql.Lexeme.other ';' ∉ Sql.lex sql := by
  obtain ⟨hok, hshared⟩ := run_rows_dml (R := R) (s := s) update hsql hn hd
  obtain ⟨hlen, hrows⟩ := Statement.rows_of_buildBoundLoop hbuild
  have htext : ∀ statement ∈ statements, statement.sql = sql := by
    intro statement hst
    obtain ⟨params, rfl⟩ := hrows statement hst
    rfl
  have hkept : (∀ statement ∈ statements, Single Sql.isDml statement.sql) → Breaks sql →
      TextsKept R update sql self s := fun hall hbreaks =>
    ⟨by rw [hshared]; exact hsends.singly hall, fun h => absurd hbreaks h⟩
  split
  · rename_i hzero
    obtain rfl := List.eq_nil_of_length_eq_zero (hlen.trans hzero)
    refine ⟨fun h => ?_, hkept (by simp)⟩
    by_contra hbreaks
    obtain ⟨hfailed, hsame⟩ := h.refuses hbreaks
    exact hsends.not_refused ⟨hok ▸ hfailed, hshared ▸ hsame⟩
  · rename_i hsome
    have hne : statements ≠ [] := by
      rintro rfl
      exact hsome hlen.symm
    refine ⟨fun h => (hsends.single hne htext (hshared ▸ h.singly)).free, fun hf => ?_⟩
    refine hkept (fun statement hst => ?_) (breaks_of_free hn hd hf)
    rw [htext statement hst]
    exact single_of_free hf hd

theorem textsKept_dml (hsql : self.sql = some sql) (hn : Sql.isDdl sql = false)
    (hd : Sql.isDml sql = true) : TextsKept R update sql self s ↔ self.SentSingly sql s := by
  obtain ⟨hok, hshared⟩ := run_rows_dml (R := R) (s := s) update hsql hn hd
  have hrefused : (∃ e, (self.runDml R sql).exec s = (.error e, s)) →
      TextsKept R update sql self s := by
    rintro ⟨e, he⟩
    exact textsKept_of_refused rfl (by rw [hok, he]; rfl) (by rw [hshared, he])
  unfold Statement.SentSingly
  rw [hn, if_neg Bool.false_ne_true]
  cases hw : s.flags self.config.readOnly with
  | true =>
    refine iff_of_true (hrefused ⟨dmlReadOnly, ?_⟩) fun h => Bool.noConfusion h
    unfold Statement.runDml
    rw [exec_bind, self.config.exec_ensureWritable, hw]
    rfl
  | false =>
    rcases Statement.settles_runDml (R := R) sql hw with
      ⟨hadmits, statements, hbuild, hsends⟩ | ⟨hnot, he⟩
    · by_cases hb : self.bound = []
      · obtain ⟨hall, rfl⟩ := Statement.built_of_unbound hd hb hbuild
        refine iff_of_true ⟨?_, fun hn' => absurd ?_ hn'⟩ fun _ _ hne => absurd hb hne
        · rw [hshared]
          refine hsends.singly (List.forall_mem_map.mpr fun text ht => ?_)
          exact single_of_mem_split ht (hall text ht)
        · simpa [Breaks, hn, hd] using hall
      · rw [Statement.built_of_bound hb] at hbuild
        rw [textsKept_of_sends hsql hn hd hbuild hsends]
        have hbindable := Statement.bindable_iff.mpr ⟨statements, hbuild⟩
        exact ⟨fun h _ _ _ _ _ => h, fun h => h rfl hd hb hadmits hbindable⟩
    · refine iff_of_true (hrefused he) fun _ _ hb hadmits hbindable => absurd ⟨hadmits, ?_⟩ hnot
      rw [Statement.built_of_bound hb]
      exact Statement.bindable_iff.mp hbindable

/-- Whatever the client, the server, the options and the state of the connection are. -/
theorem textsKept_iff (hsql : self.sql = some sql) :
    TextsKept R update sql self s ↔ self.SentSingly sql s := by
  cases hn : Sql.isDdl sql with
  | true => exact textsKept_ddl hsql hn
  | false =>
    cases hd : Sql.isDml sql with
    | true => exact textsKept_dml hsql hn hd
    | false =>
      refine iff_of_true ⟨(run_rows_query update hsql hn hd).writesSingly, fun h => absurd ?_ h⟩ ?_
      · simp [Breaks, hn, hd]
      · simp [Statement.SentSingly, hn, hd]

end Executions

/-- In a manual transaction an `INSERT` and a query are executed as one text with a bound row and
committed; then a text of a `CREATE TABLE` and a `DELETE` is executed. -/
def mixedTexts : List (Op plainClient) :=
  [.setOption .autocommit (.string "false".toList), .newStatement,
    .onStatement 0 (.bind { numRows := 1, numColumns := 1, arrayMemorySize := 8, columns := () }),
    .onStatement 0 (.setSqlQuery "INSERT INTO t (id) VALUES (@p1); SELECT 1".toList),
    .onStatement 0 .executeUpdate, .commit,
    .onStatement 0 (.setSqlQuery "CREATE TABLE u (id INT64) PRIMARY KEY (id); DELETE FROM t".toList),
    .onStatement 0 .executeUpdate]

def mixedRun : Option (List (Record plainClient)) :=
  ((machine plainReplies).run (World.new [] ()) mixedTexts).map fun r => r.2.drop 4

/-- Every operation succeeds: the first text is buffered whole and sent whole, the second is sent as
a schema change. -/
theorem mixed_texts_written :
    (mixedRun.map fun rs => rs.map fun r => (r.outcome.isOk,
      r.after.shared.txn.txn.work.statements.map (·.sql), r.calls.flatMap Call.dml)) =
        some [(true, ["INSERT INTO t (id) VALUES (@p1); SELECT 1".toList], []),
          (true, [], ["INSERT INTO t (id) VALUES (@p1); SELECT 1".toList]),
          (true, [], []), (true, [], [])] ∧
    (mixedRun.map fun rs => rs.flatMap fun r => r.calls.flatMap Call.ddl) =
      some ["CREATE TABLE u (id INT64) PRIMARY KEY (id)".toList, "DELETE FROM t".toList] := by
  decide +kernel

end Session
end SpannerAdbc
