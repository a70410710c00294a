import SpannerAdbc.Session.Connection

/-!
# SpannerAdbc.Session.Reads

What the queries and probes of a statement do to the shared state, whatever their text: they make
calls that only read, and at most pin the snapshot of a manual transaction that has not begun
(`Reads`). What a read-only connection keeps and what reaches a write path both rest on it.
-/

namespace SpannerAdbc
namespace Session

open Lib Ingest Txn Lib.Prog

variable {K : Client} {R : Replies K}

/-- The transaction stays, or an open one is pinned to a snapshot. -/
def TxnReads (st st' : TxnState (SpannerSql K) K.Mutation K.Handle) : Prop :=
  st' = st ∨ st.autocommit = false ∧ st.txn = .unset ∧ ∃ h, st' = { st with txn := .read h }

structure Reads (s s' : Shared K) : Prop where
  log : ∃ calls, s'.log = s.log ++ calls ∧ ∀ c ∈ calls, c.canWrite = false
  txn : TxnReads s.txn s'.txn
  flags : s'.flags = s.flags

namespace Reads

theorem refl (s : Shared K) : Reads s s := ⟨⟨[], by simp, by simp⟩, .inl rfl, rfl⟩

theorem trans {s s' s'' : Shared K} (h : Reads s s') (h' : Reads s' s'') : Reads s s'' := by
  obtain ⟨calls, hlog, hcalls⟩ := h.log
  obtain ⟨calls', hlog', hcalls'⟩ := h'.log
  refine ⟨⟨calls ++ calls', ?_, ?_⟩, ?_, h'.flags.trans h.flags⟩
  · rw [hlog', hlog, List.append_assoc]
  · intro c hc
    rcases List.mem_append.mp hc with hc | hc
    · exact hcalls c hc
    · exact hcalls' c hc
  · rcases h.txn with e | ⟨hm, hu, txn, e⟩
    · rw [← e]
      exact h'.txn
    · rcases h'.txn with e' | ⟨-, hu', -⟩
      · exact .inr ⟨hm, hu, txn, e'.trans e⟩
      · rw [e] at hu'
        cases hu'

instance : IsPreorder (Shared K) Reads where
  refl := .refl
  trans _ _ _ := .trans

/-- No work is buffered and none is dropped. -/
theorem work {s s' : Shared K} (h : Reads s s') : s'.txn.txn.work = s.txn.txn.work := by
  rcases h.txn with e | ⟨-, hu, txn, e⟩
  · rw [e]
  · rw [e, hu]
    rfl

end Reads

section Parts

variable {α : Type}

theorem reads_perform {call : Call K} (h : call.canWrite = false)
    (reply : List (Call K) → Except Error α) : Keeps Reads (perform call reply) := by
  intro s
  rw [exec_perform]
  refine ⟨⟨[call], rfl, ?_⟩, .inl rfl, rfl⟩
  intro c hc
  rw [List.mem_singleton] at hc
  rw [hc, h]

theorem reads_withTxn {f : TxnState (SpannerSql K) K.Mutation K.Handle →
      Except Error α × TxnState (SpannerSql K) K.Mutation K.Handle}
    (h : ∀ st, TxnReads st (f st).2) : Keeps Reads (withTxn f) := by
  intro s
  rw [exec_withTxn]
  exact ⟨⟨[], by simp, by simp⟩, h s.txn, rfl⟩

end Parts

namespace Statement

variable (self : Statement K)

theorem reads_ensureQueryAllowed : Keeps Reads (ensureQueryAllowed (K := K)) :=
  reads_withTxn fun _ => .inl rfl

theorem reads_planQuerySchema (sql : List Char) : Keeps Reads (self.planQuerySchema R sql) := by
  unfold planQuerySchema
  refine .bind (.ofExcept _) fun _ => .bind (.ofExcept _) fun _ => ?_
  exact reads_perform rfl _

/-- A query does not start in a transaction with buffered work. -/
theorem reads_manualReadTransaction : Keeps Reads (self.manualReadTransaction R) := by
  unfold manualReadTransaction
  refine .bind (reads_withTxn fun _ => .inl rfl) fun found => ?_
  match found with
  | (true, _) => exact .pure _
  | (false, some txn) => exact .pure _
  | (false, none) =>
    refine .bind (.ofExcept _) fun bound => .bind (reads_perform rfl _) fun built => ?_
    refine reads_withTxn fun st => ?_
    cases hm : st.autocommit with
    | true => exact .inl rfl
    | false =>
      cases hs : st.startReadTxn built with
      | error e => exact .inl rfl
      | ok r =>
        obtain ⟨txn, st'⟩ := r
        obtain ⟨hm', ht', ht⟩ := TxnState.startReadTxn_ok hm hs
        obtain ⟨autocommit, txn⟩ := st
        obtain ⟨autocommit', txn'⟩ := st'
        cases hm
        cases hm'
        cases ht'
        rcases ht with ht | ht
        · exact .inr ⟨rfl, ht, _, rfl⟩
        · cases ht
          exact .inl rfl

theorem reads_queryStream (manualTxn : Option K.Handle) (bound : Option K.TimestampBound)
    (statement : SpannerSql K) : Keeps Reads (queryStream R manualTxn bound statement) := by
  cases manualTxn with
  | none => exact reads_perform rfl _
  | some txn => exact reads_perform rfl _

theorem reads_querySnapshot (manualTxn : Option K.Handle) (bound : Option K.TimestampBound) :
    Keeps Reads (querySnapshot R manualTxn bound) := by
  cases manualTxn with
  | none => exact reads_perform rfl _
  | some txn => exact .pure _

theorem reads_executeBoundQuery (sql : List Char) :
    Keeps Reads (self.executeBoundQuery R sql) := by
  unfold executeBoundQuery
  refine .bind (.ofExcept _) fun groups => .bind self.reads_manualReadTransaction fun txn => ?_
  split
  · cases groups with
    | nil => exact .bind (self.reads_planQuerySchema sql) fun _ => .pure _
    | cons group groups =>
      refine .bind (.ofExcept _) fun _ => .bind (.ofExcept _) fun _ => ?_
      exact .bind (reads_queryStream _ _ _) fun _ => .pure _
  · refine .bind (.ofExcept _) fun _ => .bind (reads_querySnapshot _ _) fun _ => ?_
    exact .bind (reads_perform rfl _) fun _ => .pure _

theorem reads_executeQuery (sql : List Char) : Keeps Reads (self.executeQuery R sql) := by
  unfold executeQuery
  refine .bind self.reads_manualReadTransaction fun txn => .bind (.ofExcept _) fun _ => ?_
  exact .bind (reads_queryStream _ _ _) fun _ => .pure _

theorem reads_runPartitionQuery (sql : List Char) :
    Keeps Reads (self.runPartitionQuery R sql) := by
  unfold runPartitionQuery
  refine .bind (.ofExcept _) fun _ => .bind (.ofExcept _) fun _ => .bind (.ofExcept _) fun _ => ?_
  refine .bind (.ofExcept _) fun _ => .bind (reads_perform rfl _) fun _ => ?_
  exact .bind (reads_perform rfl _) fun _ => .bind (.ofExcept _) fun _ => .pure _

/-- `Reads` on the shared part of the state of a method. -/
def MethodReads (a b : Statement K × Shared K) : Prop := Reads a.2 b.2

instance : IsPreorder (Statement K × Shared K) MethodReads where
  refl a := .refl a.2
  trans _ _ _ := .trans

theorem reads_inSnd {α : Type} {x : Prog Error (Shared K) α} (h : Keeps Reads x) :
    Keeps MethodReads (x.inSnd : Method K α) := fun a => h a.2

theorem reads_executeQueryReader (sql : List Char) :
    Keeps MethodReads (executeQueryReader R sql) := by
  unfold executeQueryReader
  refine .bind (.of_unchanged fun _ => rfl) fun self => ?_
  refine .bind (reads_inSnd reads_ensureQueryAllowed) fun _ => ?_
  split
  · refine .bind (.attempt (reads_inSnd (self.reads_executeBoundQuery _))) fun _ => ?_
    exact .bind (fun a => .refl a.2) fun _ => .ofExcept _
  · exact reads_inSnd (self.reads_executeQuery _)

theorem reads_executeSchema : Keeps MethodReads (executeSchema R) := by
  refine .bind (.of_unchanged fun _ => rfl) fun self => .bind (.ofExcept _) fun sql => ?_
  exact .bind (.ofExcept _) fun _ => reads_inSnd (self.reads_planQuerySchema _)

theorem reads_executePartitions : Keeps MethodReads (executePartitions R) := by
  refine .bind (.of_unchanged fun _ => rfl) fun self => .bind (.ofExcept _) fun sql => ?_
  refine .bind (.ofExcept _) fun _ => .bind (reads_inSnd reads_ensureQueryAllowed) fun _ => ?_
  refine .bind (.attempt (reads_inSnd (self.reads_runPartitionQuery _))) fun _ => ?_
  exact .bind (fun a => .refl a.2) fun _ => .ofExcept _

theorem reads_drainDiscardingRows (reader : Reader K) :
    Keeps Reads (drainDiscardingRows R reader) := by
  cases reader with
  | batches batches schema => exact .pure _
  | stream stream => exact reads_perform rfl _

end Statement

namespace Connection

variable (config : SharedConfig K) (reported : List Char) (catalog : Option (List Char))

theorem reads_getTableSchema (dbSchema : Option (List Char)) (table : List Char) :
    Keeps Reads (getTableSchema R config reported catalog dbSchema table) := by
  unfold getTableSchema
  refine .bind (.ofExcept _) fun _ => .bind (.ofExcept _) fun _ => .bind (.ofExcept _) fun _ => ?_
  refine .bind (.attempt (reads_perform rfl _)) fun result => ?_
  cases result with
  | ok schema => exact .pure _
  | error error =>
    refine .bind (.attempt (reads_perform rfl _)) fun found => ?_
    rcases found with e | found
    · exact .throw _
    · cases found with
      | false => exact .throw _
      | true => exact .throw _

theorem reads_metadataSnapshot : Keeps Reads (metadataSnapshot R config) :=
  .bind (.ofExcept _) fun _ => reads_perform rfl _

theorem reads_getObjects (depth : Objects.ObjectDepth) (filters : Objects.ObjectFilters) :
    Keeps Reads (getObjects R config reported depth catalog filters) := by
  unfold getObjects collectObjects
  split
  · exact .pure _
  · refine .bind ?_ fun _ => .bind (.ofExcept _) fun _ => .pure _
    split
    · exact .pure _
    · refine .bind (reads_metadataSnapshot config) fun _ => ?_
      exact .bind (reads_perform rfl _) fun _ => .ofExcept _

theorem reads_getStatistics (dbSchema tableName : Option (List Char)) :
    Keeps Reads (getStatistics R config reported catalog dbSchema tableName) := by
  unfold getStatistics collectStatistics
  split
  · exact .pure _
  · refine .bind ?_ fun _ => .bind (.ofExcept _) fun _ => .pure _
    refine .bind (reads_metadataSnapshot config) fun _ => .bind (reads_perform rfl _) fun _ => ?_
    refine .bind (reads_perform rfl _) fun _ => .bind (.ofExcept _) fun _ => ?_
    exact .bind (reads_perform rfl _) fun _ => .bind (.ofExcept _) fun _ => .pure _

end Connection

end Session
end SpannerAdbc
