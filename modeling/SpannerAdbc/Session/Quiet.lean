import SpannerAdbc.Lib.Result
import SpannerAdbc.Session.Reads

/-!
# SpannerAdbc.Session.Quiet

What the programs of a statement do while the read-only flag is set: they make no call that can
write, and leave a manual transaction with buffered work as it is (`Quiet`).

Every program on a statement keeps `WhenReadOnly`, that is, `Quiet` from any state in which the flag
is set. The programs that can write look at the flag first (`keeps_ensureWritable`); all others only
read (`Reads.quiet`). `StatementOp.keeps_run` is the result for the entry points.
-/

namespace SpannerAdbc
namespace Session

open Lib Ingest Txn Lib.Prog

variable {K : Client} {R : Replies K}

/-- A manual transaction with buffered work. -/
def Shared.Pending (s : Shared K) : Prop :=
  s.txn.autocommit = false ∧ s.txn.txn.hasPendingWork = true

/-- No call that can write is made, and buffered work stays. -/
structure Silent (s s' : Shared K) : Prop where
  log : ∃ calls, s'.log = s.log ++ calls ∧ ∀ c ∈ calls, c.canWrite = false
  txn : s.Pending → s'.txn = s.txn

theorem Silent.of_log {s s' : Shared K} (hlog : s'.log = s.log) (htxn : s.Pending → s'.txn = s.txn) :
    Silent s s' := ⟨⟨[], by simp [hlog], by simp⟩, htxn⟩

structure Quiet (s s' : Shared K) : Prop extends Silent s s' where
  flags : s'.flags = s.flags

namespace Quiet

theorem refl (s : Shared K) : Quiet s s := ⟨.of_log rfl fun _ => rfl, rfl⟩

theorem trans {s s' s'' : Shared K} (h : Quiet s s') (h' : Quiet s' s'') : Quiet s s'' := by
  obtain ⟨calls, hlog, hcalls⟩ := h.log
  obtain ⟨calls', hlog', hcalls'⟩ := h'.log
  refine ⟨⟨⟨calls ++ calls', ?_, ?_⟩, ?_⟩, h'.flags.trans h.flags⟩
  · rw [hlog', hlog, List.append_assoc]
  · intro c hc
    rcases List.mem_append.mp hc with hc | hc
    · exact hcalls c hc
    · exact hcalls' c hc
  · intro hp
    have e := h.txn hp
    rw [h'.txn (by rwa [Shared.Pending, e]), e]

end Quiet

def WhenReadOnly (ref : FlagRef) (s s' : Shared K) : Prop := s.flags ref = true → Quiet s s'

instance (ref : FlagRef) : IsPreorder (Shared K) (WhenReadOnly ref) where
  refl s _ := .refl s
  trans _ _ _ h h' hset := (h hset).trans (h' (by rw [(h hset).flags]; exact hset))

variable {ref : FlagRef}

/-! ## The parts of a program -/

/-- What only reads leaves buffered work as it is. -/
theorem Reads.quiet {s s' : Shared K} (h : Reads s s') : Quiet s s' := by
  refine ⟨⟨h.log, fun hp => ?_⟩, h.flags⟩
  rcases h.txn with e | ⟨-, hu, -⟩
  · exact e
  · have hpending := hp.2
    rw [hu] at hpending
    cases hpending

theorem keeps_reads {α : Type} {x : Prog Error (Shared K) α} (h : Keeps Reads x) :
    Keeps (WhenReadOnly ref) x := h.mono fun _ _ h _ => h.quiet

section Parts

variable {β : Type}

theorem SharedConfig.exec_ensureWritable_set (config : SharedConfig K) (error : Error)
    {s : Shared K} (hset : s.flags config.readOnly = true) :
    (config.ensureWritable error).exec s = (.error error, s) := by
  rw [config.exec_ensureWritable, hset, if_pos rfl]

/-- Behind the check of the flag anything may come. -/
theorem keeps_ensureWritable (config : SharedConfig K) (error : Error)
    (f : Unit → Prog Error (Shared K) β) :
    Keeps (WhenReadOnly config.readOnly) (config.ensureWritable error >>= f) := by
  intro s hset
  rw [exec_bind_error (config.exec_ensureWritable_set error hset)]
  exact .refl s

end Parts

/-! ## The programs that look at the flag -/

namespace Statement

variable (self : Statement K)

/-- The probe of a DML statement needs a read/write transaction, and looks at the flag for it. -/
theorem keeps_planParameterTypes (sql : List Char) :
    Keeps (WhenReadOnly self.config.readOnly) (self.planParameterTypes R sql) := by
  unfold planParameterTypes
  dsimp only
  split
  · exact .pure _
  split
  · intro s hset
    rw [exec_bind_ok (self.config.exec_isReadOnly s), hset]
    exact .refl s
  · exact keeps_reads (reads_perform rfl _)

theorem keeps_getParameterSchema {rel : Shared K → Shared K → Prop} [IsPreorder (Shared K) rel]
    (h : ∀ sql, Keeps rel (self.planParameterTypes R sql)) :
    Keeps rel (self.getParameterSchema R) := by
  unfold getParameterSchema
  cases self.bound.head? with
  | some batch => exact .pure _
  | none =>
    refine .bind (.ofExcept _) fun sql => ?_
    dsimp only
    split
    · exact .pure _
    · exact .bind (.attempt (h sql)) fun _ => .ofExcept _

theorem keeps_runDml (sql : List Char) :
    Keeps (WhenReadOnly self.config.readOnly) (self.runDml R sql) :=
  keeps_ensureWritable self.config dmlReadOnly _

theorem keeps_runDdl (statements : List (List Char)) :
    Keeps (WhenReadOnly self.config.readOnly) (self.runDdl R statements) :=
  keeps_ensureWritable self.config ddlReadOnly _

/-! ## Entry points of a statement -/

/-- The same for methods on a statement whose flag is at `ref`: it stays there. -/
def MethodReadOnly (ref : FlagRef) (a b : Statement K × Shared K) : Prop :=
  a.1.config.readOnly = ref → b.1.config.readOnly = ref ∧ WhenReadOnly ref a.2 b.2

instance (ref : FlagRef) : IsPreorder (Statement K × Shared K) (MethodReadOnly ref) where
  refl a ha := ⟨ha, Std.Refl.refl a.2⟩
  trans a b c h h' ha := ⟨(h' (h ha).1).1, IsTrans.trans a.2 b.2 c.2 (h ha).2 (h' (h ha).1).2⟩

/-- The statement's flag stays where it is. -/
def SameFlag (a b : Statement K × Shared K) : Prop := b.1.config.readOnly = a.1.config.readOnly

instance : IsPreorder (Statement K × Shared K) SameFlag where
  refl _ := rfl
  trans _ _ _ h h' := h'.trans h

section Methods

variable {α : Type} {x : Prog Error (Shared K) α} {self' : Statement K}

theorem keeps_reads_inSnd (h : Keeps Reads x) :
    Keeps (MethodReadOnly ref) (x.inSnd : Method K α) := fun a ha => ⟨ha, keeps_reads h a.2⟩

theorem keeps_inSnd (h : Keeps (WhenReadOnly ref) x) :
    Keeps (MethodReadOnly ref) (x.inSnd : Method K α) :=
  fun a ha => ⟨ha, h a.2⟩

theorem keeps_getSelf {f : Statement K → Method K α}
    (h : ∀ self, self.config.readOnly = ref → Keeps (MethodReadOnly ref) (f self)) :
    Keeps (MethodReadOnly ref) (getSelf >>= f) :=
  fun a ha => h a.1 ha a ha

theorem keeps_clearBound : Keeps (MethodReadOnly ref) (clearBound (K := K)) :=
  fun a ha => ⟨ha, Std.Refl.refl a.2⟩

theorem sameFlag_inSnd (x : Prog Error (Shared K) α) :
    Keeps SameFlag (x.inSnd : Method K α) := fun _ => rfl

theorem sameFlag_clearBound : Keeps SameFlag (clearBound (K := K)) := fun _ => rfl

/-- An attempt that consumes the bound data. -/
theorem keeps_consuming (h : Keeps (WhenReadOnly ref) x) :
    Keeps (MethodReadOnly ref) (do
      let result ← (x.inSnd : Method K α).attempt
      clearBound
      MonadExcept.ofExcept result) :=
  .bind (.attempt (keeps_inSnd h)) fun _ => .bind keeps_clearBound fun _ => .ofExcept _

theorem keeps_ensureWritable_inSnd (config : SharedConfig K) (error : Error) {f : Unit → Method K α}
    (h : ∀ u, Keeps SameFlag (f u)) : Keeps (MethodReadOnly config.readOnly)
      ((config.ensureWritable error).inSnd >>= f) := by
  rintro ⟨t, s⟩ ht
  refine ⟨?_, fun hset => ?_⟩
  · exact (Keeps.bind (sameFlag_inSnd (config.ensureWritable error)) h (t, s)).trans ht
  · have herror : ((config.ensureWritable error).inSnd : Method K Unit).exec (t, s) =
        (.error error, (t, s)) := by
      rw [exec_inSnd, config.exec_ensureWritable_set error hset]
    rw [exec_bind_error herror]
    exact .refl s

theorem keeps_runIngest (table : List Char) :
    Keeps (MethodReadOnly ref) (runIngest R table) := by
  refine keeps_getSelf fun self hself => ?_
  subst hself
  refine keeps_ensureWritable_inSnd self.config ingestReadOnly fun _ => ?_
  split
  · exact .throw _
  · refine .bind (.attempt (sameFlag_inSnd _)) fun _ => ?_
    exact .bind sameFlag_clearBound fun _ => .ofExcept _

theorem keeps_executeQueryReader (sql : List Char) :
    Keeps (MethodReadOnly ref) (executeQueryReader R sql) := by
  refine keeps_getSelf fun self _ => .bind (keeps_reads_inSnd reads_ensureQueryAllowed) fun _ => ?_
  split
  · exact keeps_consuming (keeps_reads (self.reads_executeBoundQuery _))
  · exact keeps_reads_inSnd (self.reads_executeQuery _)

theorem keeps_runDmlConsuming (sql : List Char) :
    Keeps (MethodReadOnly ref) (runDmlConsuming R sql) := by
  refine keeps_getSelf fun self hself => ?_
  subst hself
  exact keeps_consuming (self.keeps_runDml sql)

theorem keeps_runDdlConsuming (sql : List Char) :
    Keeps (MethodReadOnly ref) (runDdlConsuming R sql) := by
  refine keeps_getSelf fun self hself => ?_
  subst hself
  exact .bind (keeps_inSnd (self.keeps_runDdl _)) fun _ => keeps_clearBound

theorem keeps_execute : Keeps (MethodReadOnly ref) (execute R) := by
  refine keeps_getSelf fun self _ => ?_
  split
  · exact .bind (keeps_runIngest _) fun _ => .pure _
  · refine .bind (.ofExcept _) fun _ => .bind (.ofExcept _) fun sql => ?_
    split
    · exact .bind (keeps_runDdlConsuming sql) fun _ => .pure _
    split
    · refine .bind (keeps_runDmlConsuming sql) fun outcome => ?_
      cases outcome with
      | plain count => exact .pure _
      | returning batches schema affected => exact .pure _
    · exact keeps_executeQueryReader sql

theorem keeps_executeUpdate : Keeps (MethodReadOnly ref) (executeUpdate R) := by
  refine keeps_getSelf fun self _ => ?_
  split
  · exact keeps_runIngest _
  · refine .bind (.ofExcept _) fun _ => .bind (.ofExcept _) fun sql => ?_
    split
    · exact .bind (keeps_runDdlConsuming sql) fun _ => .pure _
    split
    · refine .bind (.ofExcept _) fun _ => .bind (keeps_executeQueryReader sql) fun reader => ?_
      exact .bind (keeps_reads_inSnd (reads_drainDiscardingRows reader)) fun _ => .pure _
    · refine .bind (keeps_runDmlConsuming sql) fun outcome => ?_
      cases outcome with
      | plain count => exact .pure _
      | returning batches schema affected => exact .pure _

theorem keeps_executeSchema : Keeps (MethodReadOnly ref) (executeSchema R) := by
  refine keeps_getSelf fun self _ => .bind (.ofExcept _) fun sql => .bind (.ofExcept _) fun _ => ?_
  exact keeps_reads_inSnd (self.reads_planQuerySchema _)

theorem keeps_executePartitions : Keeps (MethodReadOnly ref) (executePartitions R) := by
  refine keeps_getSelf fun self _ => .bind (.ofExcept _) fun sql => .bind (.ofExcept _) fun _ => ?_
  refine .bind (keeps_reads_inSnd reads_ensureQueryAllowed) fun _ => ?_
  exact keeps_consuming (keeps_reads (self.reads_runPartitionQuery _))

theorem setOption_readOnly {self : Statement K} {key : StatementOption} {value : OptionValue}
    (h : self.setOption key value = .ok self') : self'.config.readOnly = self.config.readOnly := by
  cases key <;> obtain ⟨_, -, h⟩ := bind_eq_ok.mp h <;> cases h <;> rfl

theorem bindStream_readOnly {self : Statement K} {reader : BoundStream K}
    (h : self.bindStream reader = .ok self') : self'.config.readOnly = self.config.readOnly := by
  unfold bindStream at h
  split at h
  · cases h
  · cases h
    rfl

end Methods

end Statement

theorem StatementOp.keeps_update {f : Statement K → Except Error (Statement K)}
    (h : ∀ {self self'}, f self = .ok self' → self'.config.readOnly = self.config.readOnly) :
    Keeps (Statement.MethodReadOnly ref) (StatementOp.update f) := by
  rintro ⟨t, s⟩ ht
  unfold StatementOp.update
  rw [exec_bind_ok (exec_get _), exec_bind, exec_ofExcept]
  cases hf : f t with
  | error e => exact ⟨ht, Std.Refl.refl s⟩
  | ok t' => exact ⟨(h hf).trans ht, Std.Refl.refl s⟩

theorem StatementOp.keeps_run (op : StatementOp K) :
    Keeps (Statement.MethodReadOnly ref) (op.run R) := by
  cases op with
  | setOption key value => exact .bind (keeps_update Statement.setOption_readOnly) fun _ => .pure _
  | setSqlQuery query => exact .bind (keeps_update fun h => by cases h; rfl) fun _ => .pure _
  | bind batch => exact .bind (keeps_update fun h => by cases h; rfl) fun _ => .pure _
  | bindStream reader => exact .bind (keeps_update Statement.bindStream_readOnly) fun _ => .pure _
  | prepare =>
    refine .bind (keeps_update fun {self self'} h => ?_) fun _ => .pure _
    cases hp : self.prepare with
    | error e => rw [hp] at h; cases h
    | ok _ => rw [hp] at h; cases h; rfl
  | execute => exact .bind Statement.keeps_execute fun _ => .pure _
  | executeUpdate => exact .bind Statement.keeps_executeUpdate fun _ => .pure _
  | executeSchema => exact .bind Statement.keeps_executeSchema fun _ => .pure _
  | executePartitions => exact .bind Statement.keeps_executePartitions fun _ => .pure _
  | getParameterSchema =>
    refine Statement.keeps_getSelf fun self hself => ?_
    subst hself
    exact .bind (Statement.keeps_inSnd (self.keeps_getParameterSchema self.keeps_planParameterTypes))
      fun _ => .pure _

end Session
end SpannerAdbc
