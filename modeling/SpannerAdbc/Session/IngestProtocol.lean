import SpannerAdbc.Session.Protocol

/-!
# SpannerAdbc.Session.IngestProtocol

Which calls a bulk ingest makes, in which order: the schema change of its mode first, then the rows,
in any number of commits, and probes for the table behind an empty append and behind some failures.
A manual transaction sends no row (`Statement.emits_runBoundIngest`).
-/

namespace SpannerAdbc
namespace Session

open Lib Ingest Txn Lib.Prog Lib.Trace
open scoped Computability

variable {K : Client} {R : Replies K}

namespace Statement

/-! ## The walk over the rows -/

section Walk

variable {σ δ μ E κ : Type} {O : Observer σ E κ} {k : κ} {L : Language E} {env : Env σ δ μ}
  {commit : Nat → Nat → Nat → Prog Error σ Nat}

theorem emits_writeMutationsTxn {write : List μ → Prog Error σ Unit}
    (h : ∀ mutations, O.Emits k L (write mutations)) (mutations : List μ) :
    O.Emits k L∗ (writeMutationsTxn write mutations) := by
  unfold writeMutationsTxn
  split
  · exact .pure_of (Language.nil_mem_kstar L)
  · exact (h mutations).mono le_kstar

theorem emits_buildNoted (bound : List (Batch δ)) (target : List Char)
    (start stop priorTotal : Nat) :
    O.Emits k L∗ (buildNoted env bound target start stop priorTotal) :=
  (Observer.Emits.ofExcept _).of_nil (Language.nil_mem_kstar L)

/-- A bisected range is a sequence of commits. -/
theorem emits_writeMutationRange (h : ∀ mutations, O.Emits k L (env.write mutations))
    (bound : List (Batch δ)) (target : List Char) (start stop priorTotal : Nat) :
    O.Emits k L∗ (writeMutationRange env bound target start stop priorTotal) := by
  induction hn : stop - start using Nat.strongRecOn generalizing start stop priorTotal with
  | ind n ih =>
    rw [writeMutationRange]
    refine .star_bind (emits_buildNoted _ _ _ _ _) fun mutations => ?_
    refine .star_bind (emits_writeMutationsTxn h mutations).attempt fun result => ?_
    cases result with
    | ok u => exact .pure_of (Language.nil_mem_kstar L)
    | error error =>
      dsimp only
      split
      · rename_i hsplit
        obtain ⟨hlen, -⟩ := hsplit
        refine .star_bind (ih _ ?_ _ _ _ rfl) fun left => ?_
        · omega
        · refine .star_bind (ih _ ?_ _ _ _ rfl) fun right => ?_
          · omega
          · exact .pure_of (Language.nil_mem_kstar L)
      · exact (Observer.Emits.throw _).of_nil (Language.nil_mem_kstar L)

theorem emits_batchWriteChunk (h : ∀ groups, O.Emits k L (env.executeStreaming groups))
    (mutations : List μ) (priorTotal : Nat) :
    O.Emits k L∗ (batchWriteChunk env mutations priorTotal) := by
  unfold batchWriteChunk
  split
  · exact .pure_of (Language.nil_mem_kstar L)
  · refine .bind_silent ((h _).mono le_kstar) fun stream => ?_
    cases stream with
    | refused error => exact .throw _
    | interrupted cause => exact .throw _
    | opened responses tail => exact .ofExcept _

theorem emits_ingestRows (h : ∀ start stop total, O.Emits k L∗ (commit start stop total))
    (columns rowBytes n : Nat) (w : Walk) :
    O.Emits k L∗ (ingestRows commit columns rowBytes n w) := by
  induction n generalizing w with
  | zero => exact .pure_of (Language.nil_mem_kstar L)
  | succ n ih =>
    refine .star_bind ?_ ih
    unfold ingestRow
    dsimp only
    split
    · exact .pure_of (Language.nil_mem_kstar L)
    · exact .bind_silent (h _ _ _) fun _ => .bind_silent (.pure _) fun _ => .pure _

theorem emits_ingestWalk (h : ∀ start stop total, O.Emits k L∗ (commit start stop total))
    (bound : List (Batch δ)) :
    O.Emits k L∗ (ingestWalk commit bound) := by
  have hbatches : ∀ w, O.Emits k L∗ (ingestBatches commit bound w) := by
    induction bound with
    | nil => exact fun w => .pure_of (Language.nil_mem_kstar L)
    | cons batch bound ih => exact fun w => .star_bind (emits_ingestRows h _ _ _ w) ih
  exact .star_bind (hbatches _) fun w => .bind_silent (h _ _ _) fun _ => .pure _

end Walk

/-! ## The rows -/

section Ingest

variable (self : Statement K) {autocommit : Bool} {table : List Char} {issuer : Issuer K}
  {ddl : Option (List (List Char))}

def rowCall : CallKind := if self.ingestBatchWrite then .batchWrite else .writeOnly

/-- The probe for the table, in some modes of the ingest. -/
def probeIn (modes : List (Option IngestMode)) : Language CallKind :=
  if modes.contains self.ingestMode then may .tableExists else 1

theorem nil_mem_probeIn (modes : List (Option IngestMode)) : [] ∈ self.probeIn modes := by
  unfold probeIn
  split
  · exact nil_mem_may _
  · exact Language.nil_mem_one

theorem emits_tableExists (dbSchema table : List Char) :
    Emits issuer autocommit (may .tableExists) (tableExists R dbSchema table) :=
  emits_may_perform trivial rfl

theorem emits_commitIngestRange (table target : List Char) (start stop priorTotal : Nat) :
    Emits self.issuer autocommit (one self.rowCall)∗
      (commitIngestRange (self.ingestEnv R table) (self.job table) target start stop priorTotal) := by
  unfold commitIngestRange
  split
  · exact .pure_of (Language.nil_mem_kstar _)
  · unfold rowCall
    cases hb : self.ingestBatchWrite with
    | true =>
      have hjob : (self.job table).ingestBatchWrite = true := hb
      rw [hjob]
      refine .star_bind (emits_buildNoted _ _ _ _ _) fun mutations => ?_
      refine emits_batchWriteChunk (fun groups => ?_) _ _
      exact emits_perform rfl rfl
    | false =>
      have hjob : (self.job table).ingestBatchWrite = false := hb
      rw [hjob]
      refine emits_writeMutationRange (fun mutations => ?_) _ _ _ _ _
      exact emits_perform rfl rfl

theorem emits_checkEmptyAppendTarget (table : List Char) (n : Nat) :
    Emits self.issuer autocommit (self.probeIn [some .append])
      (checkEmptyAppendTarget (self.ingestEnv R table) (self.job table) n) := by
  unfold checkEmptyAppendTarget
  split
  · rename_i h
    have hmode : self.ingestMode = some .append := h.2
    have hprobe : self.probeIn [some .append] = may .tableExists := by simp [probeIn, hmode]
    rw [hprobe]
    refine .bind_silent (emits_tableExists _ _).attempt fun found => ?_
    rcases found with e | _ | _
    · exact .pure _
    · exact .throw _
    · exact .pure _
  · exact .pure_of (self.nil_mem_probeIn _)

/-- The rows of an ingest, in autocommit mode, and the probe for the table of an empty one. -/
def ingestRowCalls (autocommit : Bool) : Language CallKind :=
  (if autocommit then (one self.rowCall)∗ else 1) * self.probeIn [some .append]

theorem nil_mem_ingestRowCalls (autocommit : Bool) : [] ∈ self.ingestRowCalls autocommit := by
  refine nil_mem_mul ?_ (self.nil_mem_probeIn _)
  split
  · exact Language.nil_mem_kstar _
  · exact Language.nil_mem_one

theorem emits_ingestAutocommit (table : List Char) :
    Emits self.issuer autocommit ((one self.rowCall)∗ * self.probeIn [some .append])
      (ingestAutocommit (self.ingestEnv R table) (self.job table)) := by
  unfold ingestAutocommit
  refine .bind ?_ (self.nil_mem_probeIn _) fun total => ?_
  · exact emits_ingestWalk (self.emits_commitIngestRange table _) _
  · exact .bind_silent (self.emits_checkEmptyAppendTarget table total) fun _ => .pure _

/-- A manual transaction buffers the rows, or refuses them. -/
theorem emits_bufferMutations (mutations : List K.Mutation) :
    Emits issuer false 1 (withTxn fun st =>
      if st.autocommit then (.ok false, st)
      else ((st.bufferMutations mutations).1.map fun _ => true,
        (st.bufferMutations mutations).2)) := by
  refine emits_withTxn ?_ ?_
  · intro st hm
    rw [hm]
    rcases TxnState.bufferMutations_cases hm mutations with ⟨st', h, hm', -⟩ | ⟨e, h⟩
    · simp only [h]
      exact hm'
    · simp only [h]
      exact hm
  · intro st hm
    rw [hm]
    rcases TxnState.bufferMutations_cases hm mutations with ⟨st', h, -, hb⟩ | ⟨e, h⟩
    · simp only [h]
      exact .of_eq ((congrArg Work.statements hb.work).trans (List.append_nil _))
    · simp only [h]
      exact .refl _

/-- In a manual transaction a look at the state that succeeds says so. -/
theorem returns_manual {f : TxnState (SpannerSql K) K.Mutation K.Handle → Except Error Unit}
    {g : TxnState (SpannerSql K) K.Mutation K.Handle → TxnState (SpannerSql K) K.Mutation K.Handle} :
    (observer issuer).Returns false (· = true) (withTxn fun st =>
      if st.autocommit then (.ok false, st) else ((f st).map fun _ => true, g st)) := by
  intro s manual hs h
  have hm : s.txn.autocommit = false := hs
  rw [exec_withTxn, hm] at h
  cases hf : f s.txn with
  | error e => simp [hf, Except.map] at h
  | ok u => simpa [hf, Except.map] using h.symm

theorem emits_runIngestMutations (table : List Char) : Emits self.issuer autocommit
    (self.ingestRowCalls autocommit) (self.runIngestMutations R table) := by
  unfold runIngestMutations ingestRowCalls
  dsimp only
  cases autocommit with
  | true =>
    refine .known_bind (a := false) (fun s hs => ?_) ?_
    · rw [exec_withTxn, show s.txn.autocommit = true from hs]
      rfl
    · simp only [Bool.false_eq_true, if_false, pure_bind]
      exact .bind_silent (self.emits_ingestAutocommit table) fun _ => .pure _
  | false =>
    have hnil := self.nil_mem_probeIn [some .append]
    simp only [Bool.false_eq_true, if_false]
    refine .bind_of (emits_look fun st => by split <;> rfl) returns_manual hnil ?_
    rintro manual rfl
    simp only [if_true]
    refine .ofExcept_bind hnil fun mutations _ => ?_
    refine .bind_silent (self.emits_checkEmptyAppendTarget table _) fun _ => ?_
    refine (Observer.Emits.bind_of (emits_bufferMutations mutations) returns_manual
      Language.nil_mem_one ?_).mono (one_mul (1 : Language CallKind)).le
    rintro buffered rfl
    exact .pure _

/-! ## The modes -/

theorem emits_remapIngestAppendError (table : List Char) (error : Error) :
    Emits self.issuer autocommit (self.probeIn [some .append, some .createAppend])
      (self.remapIngestAppendError R table error) := by
  unfold remapIngestAppendError
  split
  · exact .pure_of (self.nil_mem_probeIn _)
  split
  · exact .pure_of (self.nil_mem_probeIn _)
  split
  · exact .pure_of (self.nil_mem_probeIn _)
  · rename_i hmode _ _
    have hprobe : self.probeIn [some .append, some .createAppend] = may .tableExists := by
      rw [not_and_or, not_not, not_not] at hmode
      rcases hmode with h | h <;> simp [probeIn, h]
    rw [hprobe]
    refine .bind_silent (emits_tableExists _ _).attempt fun found => ?_
    rcases found with e | _ | _ <;> exact .pure _

theorem emits_remapIngestCreateError (table : List Char) (error : Error) :
    Emits self.issuer autocommit (self.probeIn [none, some .create])
      (self.remapIngestCreateError R table error) := by
  unfold remapIngestCreateError
  split
  · exact .pure_of (self.nil_mem_probeIn _)
  · rename_i hmode
    have hprobe : self.probeIn [none, some .create] = may .tableExists := by
      rw [not_and_or, not_not, not_not] at hmode
      rcases hmode with h | h <;> simp [probeIn, h]
    rw [hprobe]
    refine .bind_silent (emits_tableExists _ _).attempt fun found => ?_
    rcases found with e | _ | _ <;> exact .pure _

/-- The rows, and the probe for the table behind a failure. -/
def ingestBodyCalls (autocommit : Bool) : Language CallKind :=
  self.ingestRowCalls autocommit * self.probeIn [some .append, some .createAppend]

theorem emits_ingestBody (table : List Char) : Emits self.issuer autocommit
    (self.ingestBodyCalls autocommit) (do
      match ← (self.runIngestMutations R table).attempt with
      | .ok count => return count
      | .error error => throw (← self.remapIngestAppendError R table error) :
        Prog Error (Shared K) (Option Int)) := by
  refine .bind (self.emits_runIngestMutations table).attempt (self.nil_mem_probeIn _) fun r => ?_
  cases r with
  | ok count => exact .pure_of (self.nil_mem_probeIn _)
  | error error =>
    exact .bind_silent (self.emits_remapIngestAppendError table error) fun _ => .throw _

/-- The calls of a bulk ingest. Only an append goes without a schema change, and no row is sent
in front of it. -/
def ingestCalls (autocommit : Bool) : Language CallKind :=
  if self.ingestMode = some .append then self.ingestBodyCalls autocommit
  else one .updateDatabaseDdl * self.ingestBodyCalls autocommit +
    may .updateDatabaseDdl * self.probeIn [none, some .create]

theorem nil_mem_ingestBodyCalls (autocommit : Bool) : [] ∈ self.ingestBodyCalls autocommit :=
  nil_mem_mul (self.nil_mem_ingestRowCalls autocommit) (self.nil_mem_probeIn _)

theorem nil_mem_ingestCalls (autocommit : Bool) : [] ∈ self.ingestCalls autocommit := by
  unfold ingestCalls
  split
  · exact self.nil_mem_ingestBodyCalls autocommit
  · exact .inr (nil_mem_mul (nil_mem_may _) (self.nil_mem_probeIn _))

/-- The schema change has been sent when it succeeds. -/
theorem runDdl_cases {statements : List (List Char)}
    (h : ∀ text ∈ statements, self.issuer.ddl text) (s : Shared K) :
    Footprint self.issuer s ((self.runDdl R statements).exec s).2 ∧
      ∃ w ∈ (bif ((self.runDdl R statements).exec s).1.isOk then one .updateDatabaseDdl
          else may .updateDatabaseDdl),
        (observer self.issuer).log ((self.runDdl R statements).exec s).2 =
          (observer self.issuer).log s ++ w := by
  obtain ⟨hfoot, w, hw, hlog⟩ := self.emits_runDdl (R := R) h s rfl
  refine ⟨hfoot, ?_⟩
  cases hr : ((self.runDdl R statements).exec s).1 with
  | error e => exact ⟨w, hw, hlog⟩
  | ok u =>
    refine ⟨[.updateDatabaseDdl], rfl, ?_⟩
    unfold runDdl at hr ⊢
    rw [exec_bind, self.config.exec_ensureWritable] at hr ⊢
    cases hflag : s.flags self.config.readOnly with
    | true =>
      rw [hflag] at hr
      cases hr
    | false =>
      simp only [Bool.false_eq_true, if_false, exec_perform, observer, List.map_append]
      rfl

theorem buildIngestTableDdl_build {ifNotExists dropFirst : Bool}
    (h : buildIngestTableDdl.build self table ifNotExists dropFirst = .ok ddl) :
    ∃ texts, ddl = some texts ∧ ∀ text ∈ texts, self.IngestDdl table text := by
  unfold buildIngestTableDdl.build at h
  split at h
  · cases h
  · rename_i schema _
    cases dropFirst with
    | false =>
      obtain ⟨drop, hdrop, h⟩ := bind_eq_ok.mp h
      obtain ⟨create, hcreate, h⟩ := bind_eq_ok.mp h
      cases hdrop
      cases h
      exact ⟨_, rfl, List.forall_mem_singleton.mpr (.inr ⟨schema, ifNotExists, hcreate⟩)⟩
    | true =>
      obtain ⟨name, hname, h⟩ := bind_eq_ok.mp h
      obtain ⟨drop, hdrop, h⟩ := bind_eq_ok.mp h
      obtain ⟨create, hcreate, h⟩ := bind_eq_ok.mp h
      cases hdrop
      cases h
      refine ⟨_, rfl, List.forall_mem_cons.mpr ⟨.inl ⟨name, hname, rfl⟩, ?_⟩⟩
      exact List.forall_mem_singleton.mpr (.inr ⟨schema, ifNotExists, hcreate⟩)

/-- Every mode but append has a schema change. -/
theorem buildIngestTableDdl_ok (h : self.buildIngestTableDdl table = .ok ddl) :
    ddl = none ∧ self.ingestMode = some .append ∨ self.ingestMode ≠ some .append ∧
      ∃ texts, ddl = some texts ∧ ∀ text ∈ texts, self.IngestDdl table text := by
  unfold buildIngestTableDdl at h
  split at h
  · rename_i hm
    cases h
    exact .inl ⟨rfl, hm⟩
  all_goals
    rename_i hm
    exact .inr ⟨by simp [hm], self.buildIngestTableDdl_build h⟩

theorem emits_runBoundIngest (hsql : self.sql = none) (htable : self.targetTable = some table) :
    Emits self.issuer autocommit
    (self.ingestCalls autocommit) (self.runBoundIngest R table) := by
  have hnil := self.nil_mem_ingestCalls autocommit
  unfold runBoundIngest
  refine .silent_bind (emits_look fun _ => rfl) hnil fun _ => .ofExcept_bind hnil fun ddl hddl => ?_
  unfold ingestCalls
  rcases self.buildIngestTableDdl_ok hddl with ⟨rfl, hmode⟩ | ⟨hmode, texts, rfl, htexts⟩
  · rw [if_pos hmode]
    exact self.emits_ingestBody table
  · rw [if_neg hmode]
    have hddl : ∀ text ∈ texts, self.issuer.ddl text := by
      intro text ht
      simp only [issuer, hsql]
      exact ⟨table, htable, htexts text ht⟩
    refine .attempt_bind (fun s _ => self.runDdl_cases hddl s) (fun _ => ?_) fun error => ?_
    · exact self.emits_ingestBody table
    · exact .bind_silent (self.emits_remapIngestCreateError table error) fun _ => .throw _

end Ingest

end Statement
end Session
end SpannerAdbc
