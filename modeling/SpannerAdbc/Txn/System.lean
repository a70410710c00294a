import SpannerAdbc.Txn.State
import SpannerAdbc.Lib.Machine
import Mathlib.Logic.Function.Basic

/-!
# SpannerAdbc.Txn.System

A connection and any number of statements on one shared `TxnState`. Each action is one acquisition
of the mutex, or one thing that happens outside it; between any two actions every other party can
act.

* `commit` and `set_option(autocommit)` take three or more actions: the lock under which the work
  is cloned or taken, `apply_manual_txn` with its request, and the lock under which the work is
  removed or restored. Connection operations are serialised against each other, so the connection
  has one phase.
* A query looks at the state, builds its snapshot unlocked and installs it; an ingest looks, builds
  its mutations unlocked and buffers them. Each statement has a phase of its own.

`Trans` says what an action can do to the shared state and the connection. All invariants are
proved from it.
-/

namespace SpannerAdbc
namespace Txn

/-- The operations that apply the buffered work. -/
inductive EndOp where
  | commit
  | switch
  deriving DecidableEq, Repr

/-- Where the connection is in `commit` or `set_option(autocommit)`. -/
inductive ConnPhase (S R H : Type) where
  | idle
  | applying (op : EndOp) (work : ManualTxn S R H)
  | inFlight (op : EndOp) (work : ManualTxn S R H)
  | finishing (work : ManualTxn S R H)
  | restoring (work : ManualTxn S R H) (e : Error)
  deriving DecidableEq, Repr

/-- Where a statement is in `execute_query_reader` or `run_ingest_mutations`. -/
inductive StmtPhase (R H : Type) where
  | idle
  | queryAllowed
  | queryBuilding
  | queryBuilt (txn : H)
  | ingestBuilding
  | ingestBuilt (mutations : List R)
  deriving DecidableEq, Repr

/-- The shared state, the read-only flag and the connection. -/
structure Core (S R H : Type) where
  shared : TxnState S R H
  readOnly : Bool
  conn : ConnPhase S R H
  deriving DecidableEq, Repr

structure Sys (S R H : Type) where
  core : Core S R H
  stmts : Nat → StmtPhase R H

/-- What is observed of a run: the work the buffer accepts, the operations of the connection with
their requests, and the handles queries run on. `detached` is work that runs in a transaction of
its own and `rejected` a call that fails without touching the state. -/
inductive Event (S R H : Type) where
  | accepted (work : Work S R)
  | began (op : EndOp)
  | request (op : EndOp) (work : Work S R)
  | applied (op : EndOp) (work : Work S R)
  | opFailed (op : EndOp) (e : Error)
  | discarded (work : Work S R)
  | ended
  | admitted (txn : H)
  | rejected (e : Error)
  | detached
  deriving DecidableEq, Repr

inductive Action (S R H : Type) where
  | commit
  | rollback
  | setAutocommit (enable : Bool)
  | setReadOnly (value : Bool)
  | applyManualTxn
  | respond (result : Except Error Unit)
  | finishCommit
  | restoreManual
  | runOrBuffer (i : Nat) (statements : List S)
  | ensureQueryAllowed (i : Nat)
  | partitionQuery (i : Nat)
  | queryLook (i : Nat)
  | queryBuild (i : Nat) (result : Except Error H)
  | queryInstall (i : Nat)
  | ingestLook (i : Nat)
  | ingestBuild (i : Nat) (result : Except Error (List R))
  | ingestBuffer (i : Nat)

variable {S R H : Type} {es : List (Event S R H)} {c : Core S R H} {s s' : Sys S R H}
  {work : ManualTxn S R H} {r : Core S R H × List (Event S R H)} {a : Action S R H} {op : EndOp}

def noActiveTransaction (operation : List Char) : Error :=
  invalidState (operation ++ " invoked with autocommit enabled; no active transaction".toList)

namespace Core

/-- The first lock of `commit`. -/
def commit (c : Core S R H) : Core S R H × List (Event S R H) :=
  if c.shared.autocommit then (c, [.rejected (noActiveTransaction "commit".toList)])
  else ({ c with conn := .applying .commit c.shared.txn }, [.began .commit])

def rollback (c : Core S R H) : Core S R H × List (Event S R H) :=
  if c.shared.autocommit then (c, [.rejected (noActiveTransaction "rollback".toList)])
  else
    ({ c with shared := { c.shared with txn := .unset } },
      [.discarded c.shared.txn.work, .ended])

/-- The first lock of `set_option(autocommit)`. -/
def setAutocommit (c : Core S R H) (enable : Bool) : Core S R H × List (Event S R H) :=
  if enable && !c.shared.autocommit then
    let (work, shared) := c.shared.enterAutocommit
    ({ c with shared, conn := .applying .switch work }, [.began .switch])
  else ({ c with shared := { c.shared with autocommit := enable } }, [])

/-- `apply_manual_txn` has returned `Ok`: `commit` goes on to `finish_commit`, the switch is done. -/
def applyOk (c : Core S R H) (op : EndOp) (work : ManualTxn S R H) :
    Core S R H × List (Event S R H) :=
  match op with
  | .commit => ({ c with conn := .finishing work }, [.applied .commit work.work])
  | .switch => ({ c with conn := .idle }, [.applied .switch work.work, .ended])

/-- `apply_manual_txn` has failed: `commit` returns the error, the switch goes on to
`restore_manual`. -/
def applyErr (c : Core S R H) (op : EndOp) (work : ManualTxn S R H) (e : Error) :
    Core S R H × List (Event S R H) :=
  match op with
  | .commit => ({ c with conn := .idle }, [.opFailed .commit e])
  | .switch => ({ c with conn := .restoring work e }, [])

/-- `apply_manual_txn` up to the request. -/
def applyManualTxn (c : Core S R H) (op : EndOp) (work : ManualTxn S R H) :
    Core S R H × List (Event S R H) :=
  match checkCommitWritable c.readOnly work with
  | .error e => c.applyErr op work e
  | .ok () =>
    match work with
    | .unset | .read _ => c.applyOk op work
    | .dml _ _ => ({ c with conn := .inFlight op work }, [.request op work.work])

/-- The second lock of `commit`; `none` is a panic. -/
def finishCommit (c : Core S R H) (work : ManualTxn S R H) :
    Option (Core S R H × List (Event S R H)) :=
  match c.shared.finishCommit work with
  | none => none
  | some shared => some ({ c with shared, conn := .idle }, [.ended])

def restoreManual (c : Core S R H) (work : ManualTxn S R H) (e : Error) :
    Core S R H × List (Event S R H) :=
  ({ c with shared := c.shared.restoreManual work, conn := .idle }, [.opFailed .switch e])

def runOrBuffer (c : Core S R H) (statements : List S) : Core S R H × List (Event S R H) :=
  if !c.shared.autocommit then
    match c.shared.bufferDml statements with
    | .error e => (c, [.rejected e])
    | .ok shared => ({ c with shared }, [.accepted ⟨statements, []⟩])
  else (c, [.detached])

/-- The last lock of `run_ingest_mutations` in manual mode. -/
def ingestBuffer (c : Core S R H) (mutations : List R) : Core S R H × List (Event S R H) :=
  if !c.shared.autocommit then
    match c.shared.bufferMutations mutations with
    | (.error e, shared) => ({ c with shared }, [.rejected e])
    | (.ok (), shared) => ({ c with shared }, [.accepted ⟨[], mutations⟩])
  else (c, [.detached])

/-- The last lock of `manual_read_transaction`. -/
def queryInstall (c : Core S R H) (txn : H) : Core S R H × List (Event S R H) :=
  if c.shared.autocommit then (c, [.detached])
  else
    match c.shared.startReadTxn txn with
    | .error e => (c, [.rejected e])
    | .ok (txn, shared) => ({ c with shared }, [.admitted txn])

end Core

namespace Sys

/-- Statement `i` is in phase `p` after an action with this outcome. -/
def after (s : Sys S R H) (i : Nat) (p : StmtPhase R H) (r : Core S R H × List (Event S R H)) :
    Option (Sys S R H × List (Event S R H)) :=
  some (⟨r.1, Function.update s.stmts i p⟩, r.2)

def onConn (s : Sys S R H) (r : Core S R H × List (Event S R H)) :
    Option (Sys S R H × List (Event S R H)) :=
  some (⟨r.1, s.stmts⟩, r.2)

/-- The actions of the connection. -/
def connStep (s : Sys S R H) :
    Action S R H → Option (Sys S R H × List (Event S R H))
  | .commit =>
    match s.core.conn with
    | .idle => s.onConn s.core.commit
    | _ => none
  | .rollback =>
    match s.core.conn with
    | .idle => s.onConn s.core.rollback
    | _ => none
  | .setAutocommit enable =>
    match s.core.conn with
    | .idle => s.onConn (s.core.setAutocommit enable)
    | _ => none
  | .setReadOnly value =>
    match s.core.conn with
    | .idle => s.onConn ({ s.core with readOnly := value }, [])
    | _ => none
  | .applyManualTxn =>
    match s.core.conn with
    | .applying op work => s.onConn (s.core.applyManualTxn op work)
    | _ => none
  | .respond result =>
    match s.core.conn, result with
    | .inFlight op work, .ok () => s.onConn (s.core.applyOk op work)
    | .inFlight op work, .error e => s.onConn (s.core.applyErr op work e)
    | _, _ => none
  | .finishCommit =>
    match s.core.conn with
    | .finishing work => (s.core.finishCommit work).bind s.onConn
    | _ => none
  | .restoreManual =>
    match s.core.conn with
    | .restoring work e => s.onConn (s.core.restoreManual work e)
    | _ => none
  | _ => none

/-- The actions of the statements. -/
def stmtStep (s : Sys S R H) :
    Action S R H → Option (Sys S R H × List (Event S R H))
  | .runOrBuffer i statements =>
    match s.stmts i with
    | .idle => s.after i .idle (s.core.runOrBuffer statements)
    | _ => none
  | .ensureQueryAllowed i =>
    match s.stmts i, s.core.shared.checkKindAllowed .read with
    | .idle, .ok () => s.after i .queryAllowed (s.core, [])
    | .idle, .error e => s.after i .idle (s.core, [.rejected e])
    | _, _ => none
  | .partitionQuery i =>
    match s.stmts i with
    | .queryAllowed => s.after i .idle (s.core, [.detached])
    | _ => none
  | .queryLook i =>
    match s.stmts i with
    | .queryAllowed =>
      if s.core.shared.autocommit then s.after i .idle (s.core, [.detached])
      else
        match s.core.shared.readTxn with
        | some txn => s.after i .idle (s.core, [.admitted txn])
        | none => s.after i .queryBuilding (s.core, [])
    | _ => none
  | .queryBuild i result =>
    match s.stmts i, result with
    | .queryBuilding, .ok txn => s.after i (.queryBuilt txn) (s.core, [])
    | .queryBuilding, .error e => s.after i .idle (s.core, [.rejected e])
    | _, _ => none
  | .queryInstall i =>
    match s.stmts i with
    | .queryBuilt txn => s.after i .idle (s.core.queryInstall txn)
    | _ => none
  | .ingestLook i =>
    match s.stmts i with
    | .idle =>
      if s.core.shared.autocommit then s.after i .idle (s.core, [.detached])
      else
        match s.core.shared.checkKindAllowed .dml with
        | .error e => s.after i .idle (s.core, [.rejected e])
        | .ok () => s.after i .ingestBuilding (s.core, [])
    | _ => none
  | .ingestBuild i result =>
    match s.stmts i, result with
    | .ingestBuilding, .ok mutations => s.after i (.ingestBuilt mutations) (s.core, [])
    | .ingestBuilding, .error e => s.after i .idle (s.core, [.rejected e])
    | _, _ => none
  | .ingestBuffer i =>
    match s.stmts i with
    | .ingestBuilt mutations => s.after i .idle (s.core.ingestBuffer mutations)
    | _ => none
  | _ => none

def step (s : Sys S R H) (a : Action S R H) : Option (Sys S R H × List (Event S R H)) :=
  (s.connStep a).or (s.stmtStep a)

/-- A new connection with idle statements. -/
def init (readOnly : Bool) : Sys S R H :=
  { core := { shared := .new, readOnly, conn := .idle }, stmts := fun _ => .idle }

end Sys

def system (S R H : Type) : Lib.Machine (Sys S R H) (Action S R H) (Event S R H) where
  step := Sys.step

/-! ## What an action can do -/

/-- Events that leave the shared state and the connection as they are. -/
def Event.Local : Event S R H → Prop
  | .rejected _ | .detached => True
  | _ => False

/-- One action, as the shared state and the connection see it. -/
inductive Trans : Core S R H → List (Event S R H) → Core S R H → Prop where
  | quiet {c : Core S R H} {es : List (Event S R H)} : (∀ e ∈ es, e.Local) → Trans c es c
  | flag {c : Core S R H} (value : Bool) : c.conn = .idle → Trans c [] { c with readOnly := value }
  | mode {c : Core S R H} {enable : Bool} : c.conn = .idle →
      (enable = true → c.shared.autocommit = true) →
      Trans c [] { c with shared := { c.shared with autocommit := enable } }
  | buffer {c : Core S R H} {w : Work S R} {txn : ManualTxn S R H} :
      c.shared.autocommit = false → Buffered c.shared.txn w txn →
      Trans c [.accepted w] { c with shared := { autocommit := false, txn } }
  | query {c : Core S R H} {h : H} : c.shared.autocommit = false →
      (c.shared.txn = .unset ∨ c.shared.txn = .read h) →
      Trans c [.admitted h] { c with shared := { autocommit := false, txn := .read h } }
  | beginCommit {c : Core S R H} : c.conn = .idle → c.shared.autocommit = false →
      Trans c [.began .commit] { c with conn := .applying .commit c.shared.txn }
  | beginSwitch {c : Core S R H} : c.conn = .idle → c.shared.autocommit = false →
      Trans c [.began .switch] { c with
        shared := { autocommit := true, txn := .unset }, conn := .applying .switch c.shared.txn }
  | rollback {c : Core S R H} : c.conn = .idle → c.shared.autocommit = false →
      Trans c [.discarded c.shared.txn.work, .ended]
        { c with shared := { autocommit := false, txn := .unset } }
  | send {c : Core S R H} {op : EndOp} {work : ManualTxn S R H} : c.conn = .applying op work →
      work.kind = some .dml →
      Trans c [.request op work.work] { c with conn := .inFlight op work }
  | okCommit {c : Core S R H} {work : ManualTxn S R H} :
      ((c.conn = .applying .commit work ∧ work.work = 1) ∨ c.conn = .inFlight .commit work) →
      Trans c [.applied .commit work.work] { c with conn := .finishing work }
  | okSwitch {c : Core S R H} {work : ManualTxn S R H} :
      ((c.conn = .applying .switch work ∧ work.work = 1) ∨ c.conn = .inFlight .switch work) →
      Trans c [.applied .switch work.work, .ended] { c with conn := .idle }
  | errCommit {c : Core S R H} {work : ManualTxn S R H} {e : Error} :
      ((c.conn = .applying .commit work ∧ work.work ≠ 1) ∨ c.conn = .inFlight .commit work) →
      Trans c [.opFailed .commit e] { c with conn := .idle }
  | errSwitch {c : Core S R H} {work : ManualTxn S R H} {e : Error} :
      ((c.conn = .applying .switch work ∧ work.work ≠ 1) ∨ c.conn = .inFlight .switch work) →
      Trans c [] { c with conn := .restoring work e }
  | finish {c : Core S R H} {work : ManualTxn S R H} {shared : TxnState S R H} :
      c.conn = .finishing work → c.shared.finishCommit work = some shared →
      Trans c [.ended] { c with shared, conn := .idle }
  | restore {c : Core S R H} {work : ManualTxn S R H} {e : Error} : c.conn = .restoring work e →
      Trans c [.opFailed .switch e]
        { c with shared := { autocommit := false, txn := work }, conn := .idle }

theorem trans_commit (h : c.conn = .idle) :
    Trans c c.commit.2 c.commit.1 := by
  unfold Core.commit
  split
  · exact .quiet (by simp [Event.Local])
  · rename_i hm
    exact .beginCommit h (by simpa using hm)

theorem trans_rollback (h : c.conn = .idle) :
    Trans c c.rollback.2 c.rollback.1 := by
  unfold Core.rollback
  split
  · exact .quiet (by simp [Event.Local])
  · rename_i hm
    have hm' : c.shared.autocommit = false := by simpa using hm
    have ht := Trans.rollback h hm'
    rwa [← hm'] at ht

theorem trans_setAutocommit (h : c.conn = .idle) (enable : Bool) :
    Trans c (c.setAutocommit enable).2 (c.setAutocommit enable).1 := by
  unfold Core.setAutocommit
  split
  · rename_i hm
    simp only [Bool.and_eq_true, Bool.not_eq_true'] at hm
    exact .beginSwitch h hm.2
  · rename_i hm
    refine .mode h ?_
    intro he
    simpa [he] using hm

theorem trans_applyOk
    (h : (c.conn = .applying op work ∧ work.work = 1) ∨ c.conn = .inFlight op work) :
    Trans c (c.applyOk op work).2 (c.applyOk op work).1 := by
  cases op with
  | commit => exact .okCommit h
  | switch => exact .okSwitch h

theorem trans_applyErr (e : Error)
    (h : (c.conn = .applying op work ∧ work.work ≠ 1) ∨ c.conn = .inFlight op work) :
    Trans c (c.applyErr op work e).2 (c.applyErr op work e).1 := by
  cases op with
  | commit => exact .errCommit h
  | switch => exact .errSwitch h

theorem trans_applyManualTxn (h : c.conn = .applying op work) :
    Trans c (c.applyManualTxn op work).2 (c.applyManualTxn op work).1 := by
  unfold Core.applyManualTxn
  split
  · rename_i e he
    refine trans_applyErr e (.inl ⟨h, ?_⟩)
    intro hw
    rw [checkCommitWritable_ok.mpr (.inr hw)] at he
    cases he
  · cases work with
    | unset => exact trans_applyOk (.inl ⟨h, rfl⟩)
    | read txn => exact trans_applyOk (.inl ⟨h, rfl⟩)
    | dml statements mutations => exact .send h rfl

theorem trans_runOrBuffer (c : Core S R H) (statements : List S) :
    Trans c (c.runOrBuffer statements).2 (c.runOrBuffer statements).1 := by
  unfold Core.runOrBuffer
  split
  · rename_i hm
    have hm' : c.shared.autocommit = false := by simpa using hm
    split
    · exact .quiet (by simp [Event.Local])
    · rename_i shared hb
      obtain ⟨hs, hb'⟩ := TxnState.bufferDml_ok hm' hb
      have ht := Trans.buffer hm' hb'
      rwa [← hs] at ht
  · exact .quiet (by simp [Event.Local])

theorem trans_ingestBuffer (c : Core S R H) (mutations : List R) :
    Trans c (c.ingestBuffer mutations).2 (c.ingestBuffer mutations).1 := by
  unfold Core.ingestBuffer
  split
  · rename_i hm
    have hm' : c.shared.autocommit = false := by simpa using hm
    rcases TxnState.bufferMutations_cases hm' mutations with ⟨shared, hb, hs, hb'⟩ | ⟨e, hb⟩
    · rw [hb]
      have ht := Trans.buffer hm' hb'
      rwa [← hs] at ht
    · rw [hb]
      exact .quiet (by simp [Event.Local])
  · exact .quiet (by simp [Event.Local])

theorem trans_queryInstall (c : Core S R H) (txn : H) :
    Trans c (c.queryInstall txn).2 (c.queryInstall txn).1 := by
  unfold Core.queryInstall
  split
  · exact .quiet (by simp [Event.Local])
  · rename_i hm
    have hm' : c.shared.autocommit = false := by simpa using hm
    split
    · exact .quiet (by simp [Event.Local])
    · rename_i txn' shared hb
      obtain ⟨hs, ht, ho⟩ := TxnState.startReadTxn_ok hm' hb
      have h := Trans.query hm' ho
      rwa [← ht, ← hs] at h

theorem Trans.of_onConn (h : s.onConn r = some (s', es)) (hr : Trans s.core r.2 r.1) :
    Trans s.core es s'.core := by
  cases h
  exact hr

theorem Trans.of_after {i : Nat} {p : StmtPhase R H} (h : s.after i p r = some (s', es))
    (hr : Trans s.core r.2 r.1) : Trans s.core es s'.core := by
  cases h
  exact hr

/-- The query runs on the handle it finds. -/
theorem trans_readTxn {txn : H} (hm : c.shared.autocommit = false)
    (h : c.shared.readTxn = some txn) : Trans c [.admitted txn] c := by
  have ht : c.shared.txn = .read txn := by
    simp only [TxnState.readTxn] at h
    split at h
    · rename_i hr
      cases h
      exact hr
    · cases h
  have h' := Trans.query hm (.inr ht)
  rwa [← ht, ← hm] at h'

theorem trans_connStep (h : s.connStep a = some (s', es)) : Trans s.core es s'.core := by
  cases a with
  | commit =>
    simp only [Sys.connStep] at h
    split at h
    · rename_i hc
      exact .of_onConn h (trans_commit hc)
    · cases h
  | rollback =>
    simp only [Sys.connStep] at h
    split at h
    · rename_i hc
      exact .of_onConn h (trans_rollback hc)
    · cases h
  | setAutocommit enable =>
    simp only [Sys.connStep] at h
    split at h
    · rename_i hc
      exact .of_onConn h (trans_setAutocommit hc enable)
    · cases h
  | setReadOnly value =>
    simp only [Sys.connStep] at h
    split at h
    · rename_i hc
      exact .of_onConn h (.flag value hc)
    · cases h
  | applyManualTxn =>
    simp only [Sys.connStep] at h
    split at h
    · rename_i hc
      exact .of_onConn h (trans_applyManualTxn hc)
    · cases h
  | respond result =>
    simp only [Sys.connStep] at h
    split at h
    · rename_i hc
      exact .of_onConn h (trans_applyOk (.inr hc))
    · rename_i e hc
      exact .of_onConn h (trans_applyErr e (.inr hc))
    · cases h
  | finishCommit =>
    simp only [Sys.connStep] at h
    split at h
    · rename_i work hc
      simp only [Core.finishCommit] at h
      split at h
      · cases h
      · rename_i shared hf
        exact .of_onConn h (.finish hc hf)
    · cases h
  | restoreManual =>
    simp only [Sys.connStep] at h
    split at h
    · rename_i hc
      exact .of_onConn h (.restore hc)
    · cases h
  | _ => cases h

theorem trans_stmtStep (h : s.stmtStep a = some (s', es)) : Trans s.core es s'.core := by
  have hnone : ∀ {i p}, s.after i p (s.core, []) = some (s', es) → Trans s.core es s'.core :=
    fun h => .of_after h (.quiet (by simp))
  have hrej : ∀ {i p e}, s.after i p (s.core, [.rejected e]) = some (s', es) →
      Trans s.core es s'.core :=
    fun h => .of_after h (.quiet (by simp [Event.Local]))
  have hdet : ∀ {i p}, s.after i p (s.core, [.detached]) = some (s', es) →
      Trans s.core es s'.core :=
    fun h => .of_after h (.quiet (by simp [Event.Local]))
  cases a with
  | runOrBuffer i statements =>
    simp only [Sys.stmtStep] at h
    split at h
    · exact .of_after h (trans_runOrBuffer _ _)
    · cases h
  | ensureQueryAllowed i =>
    simp only [Sys.stmtStep] at h
    split at h
    · exact hnone h
    · exact hrej h
    · cases h
  | partitionQuery i =>
    simp only [Sys.stmtStep] at h
    split at h
    · exact hdet h
    · cases h
  | queryLook i =>
    simp only [Sys.stmtStep] at h
    split at h
    · split at h
      · exact hdet h
      · rename_i hm
        split at h
        · rename_i txn ht
          exact .of_after h (trans_readTxn (by simpa using hm) ht)
        · exact hnone h
    · cases h
  | queryBuild i result =>
    simp only [Sys.stmtStep] at h
    split at h
    · exact hnone h
    · exact hrej h
    · cases h
  | queryInstall i =>
    simp only [Sys.stmtStep] at h
    split at h
    · exact .of_after h (trans_queryInstall _ _)
    · cases h
  | ingestLook i =>
    simp only [Sys.stmtStep] at h
    split at h
    · split at h
      · exact hdet h
      · split at h
        · exact hrej h
        · exact hnone h
    · cases h
  | ingestBuild i result =>
    simp only [Sys.stmtStep] at h
    split at h
    · exact hnone h
    · exact hrej h
    · cases h
  | ingestBuffer i =>
    simp only [Sys.stmtStep] at h
    split at h
    · exact .of_after h (trans_ingestBuffer _ _)
    · cases h
  | _ => cases h

theorem trans_step (h : (system S R H).step s a = some (s', es)) : Trans s.core es s'.core := by
  have h' : (s.connStep a).or (s.stmtStep a) = some (s', es) := h
  cases hc : s.connStep a with
  | none =>
    rw [hc] at h'
    exact trans_stmtStep h'
  | some r =>
    rw [hc] at h'
    cases h'
    exact trans_connStep hc

end Txn
end SpannerAdbc
