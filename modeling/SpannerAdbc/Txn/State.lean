import SpannerAdbc.Basic
import Mathlib.Algebra.Group.Defs

/-!
# SpannerAdbc.Txn.State

`TxnState`, the manual-transaction state a connection shares with its statements. `S` are built DML
statements, `R` ingest mutations (one for each row) and `H` read-only transaction handles. Every
method runs under the connection's mutex, so it is a function on the state: a method that returns
`Result` is an `Except` whose error leaves the state as it was, and `finish_commit`, which panics
when it drains more than is there, is an `Option`.

The buffered work of a transaction is `ManualTxn.work`; the lemmas of the second half say what each
method does to it.
-/

namespace SpannerAdbc
namespace Txn

inductive TxnKind where
  | read
  | dml
  deriving DecidableEq, Repr

def TxnKind.what : TxnKind → List Char
  | .read => "a query".toList
  | .dml => "DML".toList

def TxnKind.rationale : TxnKind → List Char
  | .read => "the transaction is pinned to a multi-use read-only snapshot".toList
  | .dml => "the buffered DML is applied at commit, so a query would not observe the ".toList ++
      "pending writes (no read-your-writes)".toList

/-- The rejection of work of the other kind. -/
def kindsMixed (attempted active : TxnKind) : Error :=
  invalidState ("cannot run ".toList ++ attempted.what ++
    " in a manual transaction that began with ".toList ++ active.what ++ ": ".toList ++
    active.rationale ++ ". A manual transaction is either queries or DML — its kind is ".toList ++
    "fixed by its first statement. Commit or roll back the transaction first.".toList)

inductive ManualTxn (S R H : Type) where
  | unset
  | read (txn : H)
  | dml (statements : List S) (mutations : List R)
  deriving DecidableEq, Repr

variable {S R H : Type}

namespace ManualTxn

def kind : ManualTxn S R H → Option TxnKind
  | .unset => none
  | .read _ => some .read
  | .dml _ _ => some .dml

def hasPendingWork : ManualTxn S R H → Bool
  | .unset | .read _ => false
  | .dml statements mutations => !statements.isEmpty || !mutations.isEmpty

end ManualTxn

structure TxnState (S R H : Type) where
  autocommit : Bool
  txn : ManualTxn S R H
  deriving DecidableEq, Repr

namespace TxnState

def new : TxnState S R H := { autocommit := true, txn := .unset }

def checkKindAllowed (st : TxnState S R H) (attempted : TxnKind) : Except Error Unit :=
  if st.autocommit then .ok ()
  else
    match st.txn.kind with
    | none => .ok ()
    | some active =>
      if active = attempted then .ok ()
      else .error (kindsMixed attempted active)

def readTxn (st : TxnState S R H) : Option H :=
  match st.txn with
  | .read txn => some txn
  | _ => none

/-- The handle the caller has to use, and the state with a handle installed. -/
def startReadTxn (st : TxnState S R H) (txn : H) : Except Error (H × TxnState S R H) := do
  st.checkKindAllowed .read
  match st.txn with
  | .read existing => return (existing, st)
  | _ => return (txn, { st with txn := .read txn })

def bufferDml (st : TxnState S R H) (new : List S) : Except Error (TxnState S R H) := do
  st.checkKindAllowed .dml
  if new.isEmpty then return st
  match st.txn with
  | .dml statements mutations => return { st with txn := .dml (statements ++ new) mutations }
  | _ => return { st with txn := .dml new [] }

def bufferMutation (st : TxnState S R H) (mutation : R) : Except Error (TxnState S R H) := do
  st.checkKindAllowed .dml
  match st.txn with
  | .dml statements mutations =>
    return { st with txn := .dml statements (mutations ++ [mutation]) }
  | _ => return { st with txn := .dml [] [mutation] }

/-- The loop of `run_ingest_mutations` over the built mutations, under one lock. On an error the
mutations before the failing one would stay buffered. -/
def bufferMutations (st : TxnState S R H) : List R → Except Error Unit × TxnState S R H
  | [] => (.ok (), st)
  | mutation :: mutations =>
    match st.bufferMutation mutation with
    | .error e => (.error e, st)
    | .ok st' => st'.bufferMutations mutations

def enterAutocommit (st : TxnState S R H) : ManualTxn S R H × TxnState S R H :=
  (st.txn, { autocommit := true, txn := .unset })

def restoreManual (_ : TxnState S R H) (work : ManualTxn S R H) : TxnState S R H :=
  { autocommit := false, txn := work }

/-- `Vec::drain(..n)` on a vector whose elements are dropped: a panic when there are fewer. -/
def drain {X : Type} (n : Nat) (xs : List X) : Option (List X) :=
  if n ≤ xs.length then some (xs.drop n) else none

def finishCommit (st : TxnState S R H) (applied : ManualTxn S R H) : Option (TxnState S R H) := do
  let txn ← match st.txn, applied with
    | .dml statements mutations, .dml appliedStatements appliedMutations => do
      let statements ← drain appliedStatements.length statements
      let mutations ← drain appliedMutations.length mutations
      pure (.dml statements mutations)
    | txn, _ => pure txn
  if txn.hasPendingWork then return { st with txn } else return { st with txn := .unset }

end TxnState

def commitReadOnly : Error :=
  invalidState ("cannot commit buffered DML: the connection is read-only. The buffered ".toList ++
    "work is kept and stays replayable: clear adbc.connection.readonly and commit again ".toList ++
    "to apply it, or roll back to discard it.".toList)

def checkCommitWritable (readOnly : Bool) (work : ManualTxn S R H) : Except Error Unit :=
  if readOnly && work.hasPendingWork then .error commitReadOnly else .ok ()

/-! ## Buffered work -/

/-- Statements and ingest rows, each in buffering order. -/
@[ext] structure Work (S R : Type) where
  statements : List S
  rows : List R
  deriving DecidableEq, Repr

namespace Work

/-- Work behind work: statements behind statements and rows behind rows. -/
instance : Monoid (Work S R) where
  mul a b := ⟨a.statements ++ b.statements, a.rows ++ b.rows⟩
  one := ⟨[], []⟩
  mul_assoc a b c := Work.ext (List.append_assoc ..) (List.append_assoc ..)
  one_mul _ := rfl
  mul_one a := Work.ext (List.append_nil _) (List.append_nil _)

@[simp] theorem statements_mul (a b : Work S R) :
    (a * b).statements = a.statements ++ b.statements := rfl

@[simp] theorem rows_mul (a b : Work S R) : (a * b).rows = a.rows ++ b.rows := rfl

@[simp] theorem statements_one : (1 : Work S R).statements = [] := rfl

@[simp] theorem rows_one : (1 : Work S R).rows = [] := rfl

theorem mul_eq_one {a b : Work S R} (h : a * b = 1) : a = 1 ∧ b = 1 := by
  have h1 := List.append_eq_nil_iff.mp (congrArg statements h)
  have h2 := List.append_eq_nil_iff.mp (congrArg rows h)
  exact ⟨Work.ext h1.1 h2.1, Work.ext h1.2 h2.2⟩

end Work

namespace ManualTxn

def work : ManualTxn S R H → Work S R
  | .unset | .read _ => 1
  | .dml statements mutations => ⟨statements, mutations⟩

/-- A DML transaction holds work. -/
def Proper (txn : ManualTxn S R H) : Prop := txn.kind = some .dml → txn.work ≠ 1

theorem hasPendingWork_iff (txn : ManualTxn S R H) : txn.hasPendingWork = true ↔ txn.work ≠ 1 := by
  cases txn with
  | unset => simp [hasPendingWork, work]
  | read h => simp [hasPendingWork, work]
  | dml statements mutations =>
    simp [hasPendingWork, work, Work.ext_iff, imp_iff_not_or]

variable {txn : ManualTxn S R H}

theorem kind_of_work (h : txn.work ≠ 1) : txn.kind = some .dml := by
  cases txn with
  | unset => exact absurd rfl h
  | read h' => exact absurd rfl h
  | dml statements mutations => rfl

theorem work_of_kind (h : txn.kind ≠ some .dml) : txn.work = 1 := by
  by_contra hw
  exact h (kind_of_work hw)

end ManualTxn

/-- What buffering `w` does to a transaction: nothing when there is nothing to buffer, and otherwise
the transaction, which was no query transaction, is a DML transaction with `w` at the end. -/
structure Buffered (txn : ManualTxn S R H) (w : Work S R) (txn' : ManualTxn S R H) : Prop where
  work : txn'.work = txn.work * w
  same : w = 1 → txn' = txn
  before : w ≠ 1 → txn.kind ≠ some .read
  after : w ≠ 1 → txn'.kind = some .dml

namespace Buffered

theorem refl (txn : ManualTxn S R H) : Buffered txn 1 txn :=
  ⟨(mul_one _).symm, fun _ => rfl, fun h => absurd rfl h, fun h => absurd rfl h⟩

variable {txn : ManualTxn S R H}

theorem trans {txn₁ txn₂ : ManualTxn S R H} {w₁ w₂ : Work S R} (h₁ : Buffered txn w₁ txn₁)
    (h₂ : Buffered txn₁ w₂ txn₂) : Buffered txn (w₁ * w₂) txn₂ := by
  by_cases h : w₁ = 1
  · obtain rfl := h₁.same h
    rwa [h, one_mul]
  · have hne : w₁ * w₂ ≠ 1 := fun e => h (Work.mul_eq_one e).1
    refine ⟨?_, fun e => absurd e hne, fun _ => h₁.before h, fun _ => ?_⟩
    · rw [h₂.work, h₁.work, mul_assoc]
    · by_cases h' : w₂ = 1
      · rw [h₂.same h']
        exact h₁.after h
      · exact h₂.after h'

theorem proper {txn' : ManualTxn S R H} {w : Work S R} (h : Buffered txn w txn') (hp : txn.Proper) :
    txn'.Proper := by
  intro hk
  by_cases hw : w = 1
  · rw [h.same hw] at hk ⊢
    exact hp hk
  · rw [h.work]
    intro e
    exact hw (Work.mul_eq_one e).2

/-- A transaction that is no query transaction becomes a DML transaction with more work. -/
theorem of_kind {w : Work S R} (hk : txn.kind = none ∨ txn.kind = some .dml) (hw : w ≠ 1) :
    Buffered txn w (.dml (txn.work * w).statements (txn.work * w).rows) := by
  refine ⟨rfl, fun e => absurd e hw, fun _ e => ?_, fun _ => rfl⟩
  rw [e] at hk
  simp at hk

end Buffered

namespace TxnState

variable {st st' : TxnState S R H}

/-- In manual mode a kind is allowed unless the transaction is of the other kind. -/
theorem checkKindAllowed_ok (hm : st.autocommit = false) (k : TxnKind) :
    st.checkKindAllowed k = .ok () ↔ st.txn.kind = none ∨ st.txn.kind = some k := by
  simp only [checkKindAllowed, hm, Bool.false_eq_true, if_false]
  cases st.txn.kind with
  | none => simp
  | some active =>
    by_cases h : active = k
    · simp [h]
    · simp [h]

theorem bufferDml_ok {new : List S} (hm : st.autocommit = false) (h : st.bufferDml new = .ok st') :
    st'.autocommit = false ∧ Buffered st.txn ⟨new, []⟩ st'.txn := by
  simp only [bufferDml] at h
  cases hc : st.checkKindAllowed .dml with
  | error e =>
    rw [hc] at h
    cases h
  | ok _ =>
    rw [hc] at h
    have hk := (checkKindAllowed_ok hm .dml).mp hc
    cases new with
    | nil =>
      cases h
      exact ⟨hm, .refl _⟩
    | cons s new =>
      have hw : (⟨s :: new, []⟩ : Work S R) ≠ 1 := fun e => by cases congrArg Work.statements e
      have hb := Buffered.of_kind hk hw
      cases ht : st.txn with
      | unset =>
        rw [ht] at hb
        simp only [ht] at h
        cases h
        exact ⟨hm, hb⟩
      | read txn =>
        rw [ht] at hk
        simp [ManualTxn.kind] at hk
      | dml statements mutations =>
        rw [ht] at hb
        simp only [ht] at h
        cases h
        simp only [ManualTxn.work, Work.statements_mul, Work.rows_mul, List.append_nil] at hb
        exact ⟨hm, hb⟩

theorem bufferMutation_ok {m : R} (hm : st.autocommit = false) (h : st.bufferMutation m = .ok st') :
    st'.autocommit = false ∧ Buffered st.txn ⟨[], [m]⟩ st'.txn := by
  simp only [bufferMutation] at h
  cases hc : st.checkKindAllowed .dml with
  | error e =>
    rw [hc] at h
    cases h
  | ok _ =>
    rw [hc] at h
    have hk := (checkKindAllowed_ok hm .dml).mp hc
    have hw : (⟨[], [m]⟩ : Work S R) ≠ 1 := fun e => by cases congrArg Work.rows e
    have hb := Buffered.of_kind hk hw
    cases ht : st.txn with
    | unset =>
      rw [ht] at hb
      simp only [ht] at h
      cases h
      exact ⟨hm, hb⟩
    | read txn =>
      rw [ht] at hk
      simp [ManualTxn.kind] at hk
    | dml statements mutations =>
      rw [ht] at hb
      simp only [ht] at h
      cases h
      simp only [ManualTxn.work, Work.statements_mul, Work.rows_mul, List.append_nil] at hb
      exact ⟨hm, hb⟩

theorem bufferMutation_of_dml (hm : st.autocommit = false) (hk : st.txn.kind = some .dml) (m : R) :
    ∃ st', st.bufferMutation m = .ok st' := by
  have hc := (checkKindAllowed_ok hm .dml).mpr (.inr hk)
  cases ht : st.txn with
  | unset => exact ⟨{ st with txn := .dml [] [m] }, by simp only [bufferMutation, hc, ht]; rfl⟩
  | read txn => rw [ht] at hk; cases hk
  | dml statements mutations =>
    exact ⟨{ st with txn := .dml statements (mutations ++ [m]) }, by
      simp only [bufferMutation, hc, ht]; rfl⟩

/-- In a DML transaction every mutation is buffered. -/
theorem bufferMutations_of_dml (hm : st.autocommit = false) (hk : st.txn.kind = some .dml)
    (ms : List R) : ∃ st', st.bufferMutations ms = (.ok (), st') ∧
      st'.autocommit = false ∧ Buffered st.txn ⟨[], ms⟩ st'.txn := by
  induction ms generalizing st with
  | nil => exact ⟨st, rfl, hm, .refl _⟩
  | cons m ms ih =>
    obtain ⟨st₁, h₁⟩ := bufferMutation_of_dml hm hk m
    obtain ⟨hm₁, hb₁⟩ := bufferMutation_ok hm h₁
    have hk₁ : st₁.txn.kind = some .dml := hb₁.after fun e => by cases congrArg Work.rows e
    obtain ⟨st', h', hm', hb'⟩ := ih hm₁ hk₁
    refine ⟨st', ?_, hm', hb₁.trans hb'⟩
    simp only [bufferMutations, h₁, h']

/-- All or nothing: the mutations are all buffered, or the first is rejected. -/
theorem bufferMutations_cases (hm : st.autocommit = false) (ms : List R) :
    (∃ st', st.bufferMutations ms = (.ok (), st') ∧ st'.autocommit = false ∧
      Buffered st.txn ⟨[], ms⟩ st'.txn) ∨ ∃ e, st.bufferMutations ms = (.error e, st) := by
  cases ms with
  | nil => exact .inl ⟨st, rfl, hm, .refl _⟩
  | cons m ms =>
    cases h : st.bufferMutation m with
    | error e => exact .inr ⟨e, by simp only [bufferMutations, h]⟩
    | ok st₁ =>
      obtain ⟨hm₁, hb₁⟩ := bufferMutation_ok hm h
      have hk₁ : st₁.txn.kind = some .dml := hb₁.after fun e => by cases congrArg Work.rows e
      obtain ⟨st', h', hm', hb'⟩ := bufferMutations_of_dml hm₁ hk₁ ms
      exact .inl ⟨st', by simp only [bufferMutations, h, h'], hm', hb₁.trans hb'⟩

/-- The query runs on the handle that is installed then, and it was installed before or there was
no transaction. -/
theorem startReadTxn_ok {txn txn' : H} (hm : st.autocommit = false)
    (h : st.startReadTxn txn = .ok (txn', st')) : st'.autocommit = false ∧
      st'.txn = .read txn' ∧ (st.txn = .unset ∨ st.txn = .read txn') := by
  simp only [startReadTxn] at h
  cases hc : st.checkKindAllowed .read with
  | error e =>
    rw [hc] at h
    cases h
  | ok _ =>
    rw [hc] at h
    have hk := (checkKindAllowed_ok hm .read).mp hc
    cases ht : st.txn with
    | unset =>
      simp only [ht] at h
      cases h
      exact ⟨hm, rfl, .inl rfl⟩
    | read existing =>
      simp only [ht] at h
      cases h
      exact ⟨hm, ht, .inr rfl⟩
    | dml statements mutations =>
      rw [ht] at hk
      simp [ManualTxn.kind] at hk

theorem drain_append {X : Type} (xs ys : List X) : drain xs.length (xs ++ ys) = some ys := by
  rw [drain, if_pos (by simp), List.drop_left]

/-- With nothing buffered since, the transaction ends. -/
theorem finishCommit_self (st : TxnState S R H) :
    st.finishCommit st.txn = some { st with txn := .unset } := by
  obtain ⟨autocommit, txn⟩ := st
  cases txn with
  | unset => rfl
  | read txn => rfl
  | dml statements mutations =>
    have hs := drain_append statements []
    have hm := drain_append mutations []
    rw [List.append_nil] at hs hm
    simp only [finishCommit, hs, hm]
    rfl

/-- With the applied work at the front of the buffer, `finish_commit` does not panic and leaves the
work behind it. -/
theorem finishCommit_of_work {applied : ManualTxn S R H} {w : Work S R} (hp : applied.Proper)
    (h : st.txn.work = applied.work * w) :
    ∃ txn, st.finishCommit applied = some { st with txn } ∧ txn.work = w ∧ txn.Proper ∧
      txn.kind ≠ some .read := by
  -- what is left after draining
  have hrest : ∀ txn : ManualTxn S R H, txn.work = w → ∃ txn',
      (if txn.hasPendingWork then some { st with txn } else some { st with txn := .unset })
        = some { st with txn := txn' } ∧ txn'.work = w ∧ txn'.Proper ∧ txn'.kind ≠ some .read := by
    intro txn ht
    by_cases hw : txn.work = 1
    · have hn : ¬ txn.hasPendingWork = true := by rw [txn.hasPendingWork_iff]; exact not_not.mpr hw
      refine ⟨.unset, by rw [if_neg hn], by rw [← ht, hw]; rfl, ?_, ?_⟩
      · intro e
        cases e
      · intro e
        cases e
    · have hy := txn.hasPendingWork_iff.mpr hw
      have hk := ManualTxn.kind_of_work hw
      exact ⟨txn, by rw [if_pos hy], ht, fun _ => hw, by rw [hk]; decide⟩
  by_cases ha : applied.kind = some .dml
  · have hne : st.txn.work ≠ 1 := fun e => hp ha (Work.mul_eq_one (h ▸ e)).1
    have hk := ManualTxn.kind_of_work hne
    cases applied with
    | unset => cases ha
    | read _ => cases ha
    | dml a b =>
      cases ht : st.txn with
      | unset => rw [ht] at hk; cases hk
      | read _ => rw [ht] at hk; cases hk
      | dml statements mutations =>
        rw [ht] at h
        obtain ⟨rfl, rfl⟩ : statements = a ++ w.statements ∧ mutations = b ++ w.rows :=
          ⟨congrArg Work.statements h, congrArg Work.rows h⟩
        simp only [finishCommit, ht, drain_append]
        exact hrest (.dml w.statements w.rows) rfl
  · have hw : st.txn.work = w := by rw [h, ManualTxn.work_of_kind ha, one_mul]
    have he : st.finishCommit applied =
        if st.txn.hasPendingWork then some { st with txn := st.txn }
        else some { st with txn := .unset } := by
      obtain ⟨autocommit, txn⟩ := st
      cases applied with
      | unset => cases txn <;> rfl
      | read _ => cases txn <;> rfl
      | dml a b => exact absurd rfl ha
    rw [he]
    exact hrest st.txn hw

end TxnState

theorem checkCommitWritable_ok {readOnly : Bool} {work : ManualTxn S R H} :
    checkCommitWritable readOnly work = .ok () ↔ readOnly = false ∨ work.work = 1 := by
  have h := work.hasPendingWork_iff
  simp only [checkCommitWritable]
  cases readOnly with
  | false => simp
  | true =>
    by_cases hw : work.work = 1
    · simp [hw, h]
    · simp [hw, h]

end Txn
end SpannerAdbc
