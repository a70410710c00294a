import SpannerAdbc.Txn.System
import Mathlib.Data.List.Induction

/-!
# SpannerAdbc.Txn.Invariant

What holds in every state that any interleaving can reach, and what every trace of queries looks
like.

* `Inv`: in autocommit mode there is no transaction, a DML transaction is never empty, and each
  phase of the connection fits the shared state: while a commit runs the work it applies stays at
  the front of the buffer, and while the mode is being switched it stays autocommit, so that nothing
  is buffered behind the back of `restore_manual`.
* `Snap`: between two ends of a transaction all queries run on one handle.
-/

namespace SpannerAdbc
namespace Txn

open Lib Machine

variable {S R H : Type} {es tr : List (Event S R H)} {c c' : Core S R H} {w : ManualTxn S R H}
  {as : List (Action S R H)} {st : TxnState S R H}

/-- The work `w` of a running commit is at the front of the buffer. -/
def Ahead (w : ManualTxn S R H) (st : TxnState S R H) : Prop :=
  st.autocommit = false ∧ w.Proper ∧ ∃ rest, st.txn.work = w.work * rest

/-- The work `w` of a running switch has been taken. -/
def Taken (w : ManualTxn S R H) (st : TxnState S R H) : Prop := st.autocommit = true ∧ w.Proper

def ConnPhase.Fits : ConnPhase S R H → TxnState S R H → Prop
  | .idle, _ => True
  | .applying .commit w, st => Ahead w st
  | .applying .switch w, st => Taken w st
  | .inFlight .commit w, st => w.kind = some .dml ∧ Ahead w st
  | .inFlight .switch w, st => w.kind = some .dml ∧ Taken w st
  | .finishing w, st => Ahead w st
  | .restoring w _, st => w.work ≠ 1 ∧ Taken w st

structure Inv (c : Core S R H) : Prop where
  unset : c.shared.autocommit = true → c.shared.txn = .unset
  proper : c.shared.txn.Proper
  fits : c.conn.Fits c.shared

theorem Proper.unset : (ManualTxn.unset : ManualTxn S R H).Proper := by
  intro h
  cases h

theorem Ahead.self (hm : st.autocommit = false) (hp : st.txn.Proper) :
    Ahead st.txn st := ⟨hm, hp, 1, (mul_one _).symm⟩

/-- A phase that fits a state in manual mode still fits when work is buffered. -/
theorem ConnPhase.Fits.mono {p : ConnPhase S R H} {st' : TxnState S R H} {w : Work S R}
    (h : p.Fits st) (hm : st.autocommit = false) (hm' : st'.autocommit = false)
    (hw : st'.txn.work = st.txn.work * w) : p.Fits st' := by
  have hahead : ∀ {v : ManualTxn S R H}, Ahead v st → Ahead v st' := by
    rintro v ⟨-, hp, rest, hr⟩
    exact ⟨hm', hp, rest * w, by rw [hw, hr, mul_assoc]⟩
  have htaken : ∀ {v : ManualTxn S R H}, Taken v st → Taken v st' := by
    rintro v ⟨ha, -⟩
    rw [hm] at ha
    cases ha
  cases p with
  | idle => trivial
  | applying op v => cases op with
    | commit => exact hahead h
    | switch => exact htaken h
  | inFlight op v => cases op with
    | commit => exact ⟨h.1, hahead h.2⟩
    | switch => exact ⟨h.1, htaken h.2⟩
  | finishing v => exact hahead h
  | restoring v e => exact ⟨h.1, htaken h.2⟩

/-- Before `apply_manual_txn` succeeds or fails, and after: the same work is ahead or taken. -/
theorem Inv.ahead (hi : Inv c) {q : Prop}
    (h : (c.conn = .applying .commit w ∧ q) ∨ c.conn = .inFlight .commit w) :
    Ahead w c.shared := by
  have hf := hi.fits
  rcases h with ⟨h, -⟩ | h
  · rw [h] at hf
    exact hf
  · rw [h] at hf
    exact hf.2

theorem Inv.taken (hi : Inv c) {q : Prop}
    (h : (c.conn = .applying .switch w ∧ q) ∨ c.conn = .inFlight .switch w) :
    Taken w c.shared := by
  have hf := hi.fits
  rcases h with ⟨h, -⟩ | h
  · rw [h] at hf
    exact hf
  · rw [h] at hf
    exact hf.2

/-- A switch fails only with work to restore. -/
theorem Inv.work_ne_one (hi : Inv c)
    (h : (c.conn = .applying .switch w ∧ w.work ≠ 1) ∨ c.conn = .inFlight .switch w) :
    w.work ≠ 1 := by
  rcases h with ⟨-, h⟩ | h
  · exact h
  · have hf := hi.fits
    rw [h] at hf
    exact hf.2.2 hf.1

/-- Every action keeps the invariant. -/
theorem Inv.trans (hi : Inv c) (h : Trans c es c') : Inv c' := by
  cases h with
  | quiet _ => exact hi
  | flag value _ => exact ⟨hi.unset, hi.proper, hi.fits⟩
  | mode hc he => exact ⟨fun ha => hi.unset (he ha), hi.proper, by rw [hc]; trivial⟩
  | buffer hm hb =>
    refine ⟨fun ha => (by cases ha), hb.proper hi.proper, ?_⟩
    exact hi.fits.mono hm rfl hb.work
  | query hm ho =>
    refine ⟨fun ha => (by cases ha), fun hk => (by cases hk), ?_⟩
    refine hi.fits.mono (w := 1) hm rfl ?_
    rcases ho with ho | ho
    · rw [ho]; rfl
    · rw [ho]; rfl
  | beginCommit hc hm =>
    exact ⟨hi.unset, hi.proper, Ahead.self hm hi.proper⟩
  | beginSwitch hc hm =>
    exact ⟨fun _ => rfl, Proper.unset, rfl, hi.proper⟩
  | rollback hc hm => exact ⟨fun _ => rfl, Proper.unset, by rw [hc]; trivial⟩
  | @send op work hc hk =>
    have hf := hi.fits
    rw [hc] at hf
    refine ⟨hi.unset, hi.proper, ?_⟩
    cases op with
    | commit => exact ⟨hk, hf⟩
    | switch => exact ⟨hk, hf⟩
  | okCommit hc => exact ⟨hi.unset, hi.proper, hi.ahead hc⟩
  | okSwitch hc => exact ⟨hi.unset, hi.proper, trivial⟩
  | errCommit hc => exact ⟨hi.unset, hi.proper, trivial⟩
  | errSwitch hc => exact ⟨hi.unset, hi.proper, hi.work_ne_one hc, hi.taken hc⟩
  | @finish work shared hc hf =>
    have hfits := hi.fits
    rw [hc] at hfits
    obtain ⟨hm, hp, rest, hw⟩ := hfits
    obtain ⟨txn, hf', -, hp', -⟩ := TxnState.finishCommit_of_work hp hw
    rw [hf'] at hf
    cases hf
    refine ⟨?_, hp', trivial⟩
    intro ha
    rw [hm] at ha
    cases ha
  | restore hc =>
    have hf := hi.fits
    rw [hc] at hf
    exact ⟨fun ha => (by cases ha), hf.2.2, trivial⟩

theorem Inv.init (readOnly : Bool) : Inv (Sys.init readOnly : Sys S R H).core :=
  ⟨fun _ => rfl, Proper.unset, trivial⟩

/-- Every run keeps the invariant. -/
theorem Inv.run {readOnly : Bool} {s : Sys S R H}
    (h : (system S R H).run (.init readOnly) as = some (s, tr)) :
    Inv s.core :=
  run_invariant (I := fun s => Inv s.core) (fun hi hs => hi.trans (trans_step hs))
    (Inv.init readOnly) h

/-- The transaction state is well-formed in every reachable state. -/
theorem txnState_invariant {readOnly : Bool} {as : List (Action S R H)} {s : Sys S R H}
    {tr : List (Event S R H)} (h : (system S R H).run (.init readOnly) as = some (s, tr)) :
    (s.core.shared.autocommit = true → s.core.shared.txn = .unset) ∧
    (∀ work e, s.core.conn = .restoring work e → s.core.shared.txn = .unset) ∧
    (∀ statements mutations, s.core.shared.txn = .dml statements mutations →
      statements ≠ [] ∨ mutations ≠ []) ∧
    (∀ work, s.core.conn = .finishing work → s.core.shared.finishCommit work ≠ none) := by
  have hi := Inv.run h
  have hf := hi.fits
  refine ⟨hi.unset, ?_, ?_, ?_⟩
  · intro work e hc
    rw [hc] at hf
    exact hi.unset hf.2.1
  · intro statements mutations ht
    have hp := hi.proper
    rw [ht] at hp
    by_contra hne
    rw [not_or, not_not, not_not] at hne
    exact hp rfl (Work.ext hne.1 hne.2)
  · intro work hc hn
    rw [hc] at hf
    obtain ⟨-, hp, rest, hw⟩ := hf
    obtain ⟨txn, hs, -⟩ := TxnState.finishCommit_of_work hp hw
    rw [hn] at hs
    cases hs

/-- A switch whose request fails, up to `restore_manual`, with DML running meanwhile. -/
def failedSwitch : List (Action Nat Nat Nat) :=
  [.setAutocommit false, .runOrBuffer 0 [1], .setAutocommit true, .runOrBuffer 1 [2],
    .applyManualTxn, .respond (.error (err [] .io))]

theorem txnState_invariant_failedSwitch : ∃ s tr,
    (system Nat Nat Nat).run (.init false) failedSwitch = some (s, tr) ∧
    (s.core.shared.autocommit = true → s.core.shared.txn = .unset) ∧
    (∀ work e, s.core.conn = .restoring work e → s.core.shared.txn = .unset) ∧
    (∀ statements mutations, s.core.shared.txn = .dml statements mutations →
      statements ≠ [] ∨ mutations ≠ []) ∧
    (∀ work, s.core.conn = .finishing work → s.core.shared.finishCommit work ≠ none) := by
  obtain ⟨s, tr, h⟩ : ∃ s tr, (system Nat Nat Nat).run (.init false) failedSwitch = some (s, tr) :=
    ⟨_, _, rfl⟩
  exact ⟨s, tr, h, txnState_invariant h⟩

/-! ## One snapshot for each transaction -/

/-- The handle of the last admitted query, forgotten when the transaction ends. -/
def Event.snapshot : Option H → Event S R H → Option H
  | _, .admitted h => some h
  | _, .ended => none
  | cur, _ => cur

def current (tr : List (Event S R H)) : Option H := tr.foldl Event.snapshot none

theorem current_append (tr es : List (Event S R H)) :
    current (tr ++ es) = es.foldl Event.snapshot (current tr) := by
  rw [current, List.foldl_append]
  rfl

theorem foldl_snapshot_local (h : ∀ e ∈ es, e.Local) (cur : Option H) :
    es.foldl Event.snapshot cur = cur := by
  induction es with
  | nil => rfl
  | cons e es ih =>
    have he := h e List.mem_cons_self
    rw [List.foldl_cons, show Event.snapshot cur e = cur by cases e <;> first | rfl | cases he]
    exact ih fun e' he' => h e' (List.mem_cons_of_mem _ he')

/-- A query runs on the handle of the query before it. -/
def SameHandle (l : List (Event S R H)) (e : Event S R H) : Prop :=
  ∀ h', e = .admitted h' → ∀ h, current l = some h → h = h'

/-- The handle of the queries so far is installed, or is being dropped by a switch. -/
structure Snap (tr : List (Event S R H)) (c : Core S R H) : Prop where
  same : Everywhere SameHandle tr
  installed : ∀ h, current tr = some h →
    c.shared.txn = .read h ∨ c.conn = .applying .switch (.read h)

theorem everywhere_sameHandle (ht : Everywhere SameHandle tr)
    (hes : ∀ e ∈ es, ∀ h, e ≠ .admitted h) : Everywhere SameHandle (tr ++ es) :=
  ht.append (.of_forall fun _ e he h' e' => absurd e' (hes e he h'))

/-- In autocommit mode no snapshot is installed. -/
theorem Inv.not_read (hi : Inv c) (ha : c.shared.autocommit = true) (h : H) :
    c.shared.txn ≠ .read h := by
  rw [hi.unset ha]
  intro e
  cases e

/-- A step without an end or a query keeps the handle where it is. -/
theorem Snap.keep (hs : Snap tr c) (hes : ∀ e ∈ es, ∀ h, e ≠ .admitted h)
    (hcur : es.foldl Event.snapshot (current tr) = current tr)
    (hc : ∀ h, c.shared.txn = .read h ∨ c.conn = .applying .switch (.read h) →
      c'.shared.txn = .read h ∨ c'.conn = .applying .switch (.read h)) : Snap (tr ++ es) c' := by
  refine ⟨everywhere_sameHandle hs.same hes, ?_⟩
  intro h hh
  rw [current_append, hcur] at hh
  exact hc h (hs.installed h hh)

/-- In particular one that leaves the transaction alone while no query transaction is dropped. -/
theorem Snap.keep_txn (hs : Snap tr c) (hes : ∀ e ∈ es, ∀ h, e ≠ .admitted h)
    (hcur : es.foldl Event.snapshot (current tr) = current tr)
    (htxn : c'.shared.txn = c.shared.txn) (hconn : ∀ h, c.conn ≠ .applying .switch (.read h)) :
    Snap (tr ++ es) c' := by
  refine hs.keep hes hcur ?_
  rintro h (hh | hh)
  · exact .inl (htxn.trans hh)
  · exact absurd hh (hconn h)

/-- In manual mode no switch is under way. -/
theorem Inv.not_switching (hi : Inv c) (hm : c.shared.autocommit = false) (work : ManualTxn S R H) :
    c.conn ≠ .applying .switch work := by
  intro hh
  have hfits := hi.fits
  rw [hh] at hfits
  have ha := hfits.1
  rw [hm] at ha
  cases ha

/-- A step that ends the transaction forgets the handle. -/
theorem Snap.reset (hs : Snap tr c) (hes : ∀ e ∈ es, ∀ h, e ≠ .admitted h)
    (hcur : es.foldl Event.snapshot (current tr) = none) : Snap (tr ++ es) c' := by
  refine ⟨everywhere_sameHandle hs.same hes, ?_⟩
  intro h hh
  rw [current_append, hcur] at hh
  cases hh

theorem Snap.trans (hi : Inv c) (hs : Snap tr c) (h : Trans c es c') : Snap (tr ++ es) c' := by
  have hfits := hi.fits
  cases h with
  | quiet hl =>
    refine hs.keep ?_ (foldl_snapshot_local hl _) fun h hh => hh
    rintro e he h rfl
    exact hl _ he
  | flag value _ => exact hs.keep (by simp) rfl fun h hh => hh
  | mode _ _ => exact hs.keep (by simp) rfl fun h hh => hh
  | @buffer w txn hm hb =>
    refine hs.keep (by simp) rfl ?_
    rintro h (hh | hh)
    · -- a query transaction buffers nothing
      have hw : w = 1 := by
        by_contra hw
        exact hb.before hw (by rw [hh]; rfl)
      exact .inl ((hb.same hw).trans hh)
    · exact absurd hh (hi.not_switching hm _)
  | @query h hm ho =>
    refine ⟨hs.same.append (.cons ?_ .nil), ?_⟩
    · intro h' e h₀ hcur
      cases e
      rw [List.append_nil] at hcur
      rcases hs.installed h₀ hcur with hh | hh
      · rw [hh] at ho
        rcases ho with ho | ho
        · cases ho
        · cases ho
          rfl
      · exact absurd hh (hi.not_switching hm _)
    · intro h' hcur
      rw [current_append] at hcur
      cases hcur
      exact .inl rfl
  | beginCommit hc hm => exact hs.keep_txn (by simp) rfl rfl fun h => hi.not_switching hm _
  | beginSwitch hc hm =>
    refine hs.keep (by simp) rfl ?_
    rintro h (hh | hh)
    · exact .inr (by rw [hh])
    · rw [hc] at hh
      cases hh
  | rollback hc hm => exact hs.reset (by simp) rfl
  | send hc hk =>
    refine hs.keep_txn (by simp) rfl rfl fun h hh => ?_
    rw [hc] at hh
    cases hh
    cases hk
  | okCommit hc =>
    refine hs.keep_txn (by simp) rfl rfl fun h hh => ?_
    rw [hh] at hc
    simp at hc
  | okSwitch hc => exact hs.reset (by simp) rfl
  | errCommit hc =>
    refine hs.keep_txn (by simp) rfl rfl fun h hh => ?_
    rw [hh] at hc
    simp at hc
  | errSwitch hc =>
    refine hs.keep (by simp) rfl ?_
    rintro h (hh | hh)
    · exact absurd hh (hi.not_read (hi.taken hc).1 h)
    · -- only work to apply makes a switch fail, and a query transaction has none
      have hw := hi.work_ne_one hc
      rw [hh] at hc
      rcases hc with ⟨hc, -⟩ | hc
      · cases hc
        exact absurd rfl hw
      · cases hc
  | finish hc hf => exact hs.reset (by simp) rfl
  | restore hc =>
    refine hs.keep (by simp) rfl ?_
    rintro h (hh | hh)
    · rw [hc] at hfits
      exact absurd hh (hi.not_read hfits.2.1 h)
    · rw [hc] at hh
      cases hh

theorem Snap.run {readOnly : Bool} {s : Sys S R H}
    (h : (system S R H).run (.init readOnly) as = some (s, tr)) :
    Snap tr s.core := by
  have hboth : Inv s.core ∧ Snap tr s.core :=
    run_induction (I := fun tr s => Inv s.core ∧ Snap tr s.core)
      (fun hi hs => ⟨hi.1.trans (trans_step hs), hi.2.trans hi.1 (trans_step hs)⟩)
      ⟨Inv.init readOnly, .nil, fun h hh => by cases hh⟩ h
  exact hboth.2

/-- From a query on, through more queries of the same transaction, the handle stays. -/
theorem current_of_admitted {l : List (Event S R H)} {h : H} (m : List (Event S R H)) :
    Everywhere SameHandle (l ++ .admitted h :: m) → Event.ended ∉ m →
      current (l ++ .admitted h :: m) = some h := by
  induction m using List.reverseRecOn with
  | nil =>
    intro _ _
    rw [current_append]
    rfl
  | append_singleton m e ih =>
    intro hsame hend
    rw [List.mem_append, not_or] at hend
    have e₁ : l ++ .admitted h :: (m ++ [e]) = (l ++ .admitted h :: m) ++ [e] := by simp
    rw [e₁] at hsame ⊢
    have hcur := ih hsame.left hend.1
    rw [current_append, hcur]
    have hlast := hsame (l ++ .admitted h :: m) e [] rfl
    cases e with
    | admitted h' =>
      rw [hlast h' rfl h hcur]
      rfl
    | ended => exact absurd (List.mem_singleton.mpr rfl) hend.2
    | _ => rfl

/-- A query is admitted only where no work is buffered. -/
theorem Trans.of_admitted (ht : Trans c es c') {h : H} (hm : .admitted h ∈ es) :
    c.shared.txn.work = 1 ∧ c'.shared.txn = .read h := by
  cases ht with
  | quiet hl => exact absurd (hl _ hm) id
  | query hauto ho =>
    cases List.mem_singleton.mp hm
    refine ⟨?_, rfl⟩
    rcases ho with ho | ho
    · rw [ho]; rfl
    · rw [ho]; rfl
  | _ => simp at hm

/-- Work is buffered only where no snapshot is installed. -/
theorem Trans.of_accepted (ht : Trans c es c') {w : Work S R} (hm : .accepted w ∈ es) (hw : w ≠ 1) :
    (∀ h, c.shared.txn ≠ .read h) ∧ c'.shared.txn.work = c.shared.txn.work * w := by
  cases ht with
  | quiet hl => exact absurd (hl _ hm) id
  | buffer hauto hb =>
    cases List.mem_singleton.mp hm
    refine ⟨?_, hb.work⟩
    intro h hr
    exact hb.before hw (by rw [hr]; rfl)
  | _ => simp at hm

/-- One snapshot and one kind for each manual transaction. -/
theorem one_snapshot_per_transaction {readOnly : Bool} {as : List (Action S R H)} {s : Sys S R H}
    {tr : List (Event S R H)} (hr : (system S R H).run (.init readOnly) as = some (s, tr)) :
    (∀ l m r h h', tr = l ++ .admitted h :: (m ++ .admitted h' :: r) → .ended ∉ m → h = h') ∧
    (∀ a s' es, (system S R H).step s a = some (s', es) →
      (∀ h, .admitted h ∈ es → s.core.shared.txn.work = 1 ∧ s'.core.shared.txn = .read h) ∧
      (∀ w, .accepted w ∈ es → w ≠ 1 → (∀ h, s.core.shared.txn ≠ .read h) ∧
        s'.core.shared.txn.work = s.core.shared.txn.work * w)) := by
  refine ⟨?_, ?_⟩
  · intro l m r h h' htr hend
    have hsame := (Snap.run hr).same
    have e : tr = (l ++ .admitted h :: m) ++ .admitted h' :: r := by rw [htr]; simp
    have hpre : Everywhere SameHandle (l ++ .admitted h :: m) := by
      rw [e] at hsame
      exact hsame.left
    exact hsame _ _ r e h' rfl h (current_of_admitted m hpre hend)
  · intro a s' es hs
    have ht := trans_step hs
    exact ⟨fun h hm => ht.of_admitted hm, fun w hm hw => ht.of_accepted hm hw⟩

/-- Two queries race to be the first: both build a snapshot, and statement 1 installs first. -/
def firstQueryRace : List (Action Nat Nat Nat) :=
  [.setAutocommit false, .ensureQueryAllowed 0, .ensureQueryAllowed 1, .queryLook 0, .queryLook 1,
    .queryBuild 0 (.ok 7), .queryBuild 1 (.ok 8), .queryInstall 1, .queryInstall 0]

theorem one_snapshot_per_transaction_race : ∃ s,
    (system Nat Nat Nat).run (.init false) firstQueryRace
      = some (s, [.admitted 8, .admitted 8]) ∧
    (∀ l m r h h', [.admitted 8, .admitted 8] = l ++ .admitted h :: (m ++ .admitted h' :: r) →
      (.ended : Event Nat Nat Nat) ∉ m → h = h') ∧
    (∀ a s' es, (system Nat Nat Nat).step s a = some (s', es) →
      (∀ h, .admitted h ∈ es → s.core.shared.txn.work = 1 ∧ s'.core.shared.txn = .read h) ∧
      (∀ w, .accepted w ∈ es → w ≠ 1 → (∀ h, s.core.shared.txn ≠ .read h) ∧
        s'.core.shared.txn.work = s.core.shared.txn.work * w)) := by
  obtain ⟨s, h⟩ : ∃ s, (system Nat Nat Nat).run (.init false) firstQueryRace
      = some (s, [.admitted 8, .admitted 8]) := ⟨_, rfl⟩
  exact ⟨s, h, one_snapshot_per_transaction h⟩

end Txn
end SpannerAdbc
