import SpannerAdbc.Txn.Invariant

/-!
# SpannerAdbc.Txn.Accounting

Where the work goes. Work enters with an `accepted` event and leaves with an `applied` event, when
the request of a commit or a switch has succeeded, or with a `discarded` event of a rollback; in
between it is `pending`. `Trans.conserves` balances the three for one action; the order matters, so
the balance says that nothing is lost, duplicated or reordered.

`During` describes the trace from the start of the operation that is running: it is what ties the
request and the result of an operation to the work that was pending when it started.
-/

namespace SpannerAdbc
namespace Txn

open Lib Machine

variable {S R H : Type} {tr es : List (Event S R H)} {c c' : Core S R H} {work : ManualTxn S R H}
  {op : EndOp} {reqs : List (Work S R)} {w : Work S R} {as : List (Action S R H)}

namespace Work

/-- The work behind `a`, which is at the front. -/
def drop (a w : Work S R) : Work S R :=
  ⟨w.statements.drop a.statements.length, w.rows.drop a.rows.length⟩

@[simp] theorem drop_mul (a w : Work S R) : drop a (a * w) = w :=
  Work.ext (List.drop_left ..) (List.drop_left ..)

theorem mul_left_cancel {a b c : Work S R} (h : a * b = a * c) : b = c :=
  Work.ext (List.append_cancel_left (congrArg statements h))
    (List.append_cancel_left (congrArg rows h))

end Work

/-- The work an event adds to the buffer. -/
def Event.taken : Event S R H → Work S R
  | .accepted w => w
  | _ => 1

/-- The work an event settles, as applied or as discarded. -/
def Event.settled : Event S R H → Work S R
  | .applied _ w => w
  | .discarded w => w
  | _ => 1

def accepted (tr : List (Event S R H)) : Work S R := (tr.map Event.taken).prod

def settled (tr : List (Event S R H)) : Work S R := (tr.map Event.settled).prod

/-- The pending work when `buffered` is in the shared state: without the part a finishing commit has
just applied, and with the work a switch has taken out. -/
def ConnPhase.pending : ConnPhase S R H → Work S R → Work S R
  | .finishing work, buffered => work.work.drop buffered
  | .applying .switch work, buffered => work.work * buffered
  | .inFlight .switch work, buffered => work.work * buffered
  | .restoring work _, buffered => work.work * buffered
  | .idle, buffered => buffered
  | .applying .commit _, buffered => buffered
  | .inFlight .commit _, buffered => buffered

/-- The work that is neither applied nor discarded. -/
def pending (c : Core S R H) : Work S R := c.conn.pending c.shared.txn.work

theorem accepted_append (tr es : List (Event S R H)) :
    accepted (tr ++ es) = accepted tr * accepted es := by
  simp [accepted]

theorem settled_append (tr es : List (Event S R H)) :
    settled (tr ++ es) = settled tr * settled es := by
  simp [settled]

@[simp] theorem accepted_cons (e : Event S R H) (es : List (Event S R H)) :
    accepted (e :: es) = e.taken * accepted es := by
  simp [accepted]

@[simp] theorem settled_cons (e : Event S R H) (es : List (Event S R H)) :
    settled (e :: es) = e.settled * settled es := by
  simp [settled]

@[simp] theorem accepted_nil : accepted ([] : List (Event S R H)) = 1 := rfl

@[simp] theorem settled_nil : settled ([] : List (Event S R H)) = 1 := rfl

theorem accepted_local (h : ∀ e ∈ es, e.Local) : accepted es = 1 := by
  induction es with
  | nil => rfl
  | cons e es ih =>
    have he := h e List.mem_cons_self
    rw [accepted_cons, ih fun e' he' => h e' (List.mem_cons_of_mem _ he'), mul_one]
    cases e <;> first | rfl | cases he

theorem settled_local (h : ∀ e ∈ es, e.Local) : settled es = 1 := by
  induction es with
  | nil => rfl
  | cons e es ih =>
    have he := h e List.mem_cons_self
    rw [settled_cons, ih fun e' he' => h e' (List.mem_cons_of_mem _ he'), mul_one]
    cases e <;> first | rfl | cases he

/-! ## What is pending in each phase -/

theorem pending_idle (h : c.conn = .idle) : pending c = c.shared.txn.work := by
  rw [pending, h]
  rfl

theorem pending_commit {q : Prop}
    (h : (c.conn = .applying .commit work ∧ q) ∨ c.conn = .inFlight .commit work) :
    pending c = c.shared.txn.work := by
  rcases h with ⟨h, -⟩ | h
  · rw [pending, h]
    rfl
  · rw [pending, h]
    rfl

theorem Inv.txn_work (hi : Inv c) (ha : c.shared.autocommit = true) :
    c.shared.txn.work = 1 := by
  rw [hi.unset ha]
  rfl

theorem pending_switch (hi : Inv c) {q : Prop}
    (h : (c.conn = .applying .switch work ∧ q) ∨ c.conn = .inFlight .switch work) :
    pending c = work.work := by
  have hw := hi.txn_work (hi.taken h).1
  rcases h with ⟨h, -⟩ | h
  · rw [pending, h, hw]
    exact mul_one _
  · rw [pending, h, hw]
    exact mul_one _

theorem pending_restoring (hi : Inv c) {e : Error} (h : c.conn = .restoring work e) :
    pending c = work.work := by
  have hf := hi.fits
  rw [h] at hf
  rw [pending, h, hi.txn_work hf.2.1]
  exact mul_one _

/-- More work behind the transaction is more pending work. -/
theorem pending_buffer (hi : Inv c) (hm : c.shared.autocommit = false) {st : TxnState S R H}
    (hw : st.txn.work = c.shared.txn.work * w) :
    pending { c with shared := st } = pending c * w := by
  have hf := hi.fits
  have htaken : ∀ {v : ManualTxn S R H}, ¬ Taken v c.shared := by
    rintro v ⟨ha, -⟩
    rw [hm] at ha
    cases ha
  simp only [pending, hw]
  cases hc : c.conn with
  | idle => rfl
  | applying op v =>
    rw [hc] at hf
    cases op with
    | commit => rfl
    | switch => exact absurd hf htaken
  | inFlight op v =>
    rw [hc] at hf
    cases op with
    | commit => rfl
    | switch => exact absurd hf.2 htaken
  | finishing v =>
    rw [hc] at hf
    obtain ⟨-, -, rest, hr⟩ := hf
    simp only [ConnPhase.pending]
    rw [hr, mul_assoc, Work.drop_mul, Work.drop_mul]
  | restoring v e =>
    rw [hc] at hf
    exact absurd hf.2 htaken

/-! ## Balance -/

/-- What was pending and what is accepted is settled or pending, in this order. -/
theorem Trans.conserves (hi : Inv c) (h : Trans c es c') :
    pending c * accepted es = settled es * pending c' := by
  cases h with
  | quiet hl => rw [accepted_local hl, settled_local hl, one_mul, mul_one]
  | flag value _ => exact (mul_one _).trans (one_mul _).symm
  | mode hc _ => exact (mul_one _).trans (one_mul _).symm
  | @buffer w txn hm hb =>
    have hp : pending { c with shared := ⟨false, txn⟩ } = pending c * w :=
      pending_buffer hi hm hb.work
    rw [hp]
    simp [Event.taken, Event.settled]
  | @query h hm ho =>
    have hw : (ManualTxn.read h : ManualTxn S R H).work = c.shared.txn.work * 1 := by
      rcases ho with ho | ho
      · rw [ho]; rfl
      · rw [ho]; rfl
    have hp : pending { c with shared := ⟨false, .read h⟩ } = pending c * 1 :=
      pending_buffer hi hm hw
    rw [hp]
    simp [Event.taken, Event.settled]
  | beginCommit hc hm =>
    rw [pending_idle hc]
    simp [Event.taken, Event.settled, pending, ConnPhase.pending]
  | beginSwitch hc hm =>
    rw [pending_idle hc]
    simp [Event.taken, Event.settled, pending, ConnPhase.pending, ManualTxn.work]
  | rollback hc hm =>
    rw [pending_idle hc]
    simp [Event.taken, Event.settled, pending, ConnPhase.pending, hc, ManualTxn.work]
  | @send op work hc hk =>
    simp only [accepted_cons, settled_cons, accepted_nil, settled_nil, Event.taken, Event.settled,
      mul_one, one_mul, pending, hc]
    cases op with
    | commit => rfl
    | switch => rfl
  | @okCommit work hc =>
    obtain ⟨-, -, rest, hr⟩ := hi.ahead hc
    rw [pending_commit hc, hr]
    simp [Event.taken, Event.settled, pending, ConnPhase.pending, hr]
  | @okSwitch work hc =>
    rw [pending_switch hi hc, pending_idle (c := { c with conn := .idle }) rfl,
      hi.txn_work (hi.taken hc).1]
    simp [Event.taken, Event.settled]
  | errCommit hc =>
    rw [pending_commit hc, pending_idle (c := { c with conn := .idle }) rfl]
    simp [Event.taken, Event.settled]
  | @errSwitch work e hc =>
    have hw := hi.txn_work (hi.taken hc).1
    rw [pending_switch hi hc]
    simp [pending, ConnPhase.pending, hw]
  | @finish work shared hc hf =>
    have hfits := hi.fits
    rw [hc] at hfits
    obtain ⟨-, hp, rest, hr⟩ := hfits
    obtain ⟨txn, hf', hw, -, -⟩ := TxnState.finishCommit_of_work hp hr
    rw [hf'] at hf
    cases hf
    simp [Event.taken, Event.settled, pending, ConnPhase.pending, hc, hr, hw]
  | restore hc =>
    rw [pending_restoring hi hc]
    simp [Event.taken, Event.settled, pending, ConnPhase.pending]

/-- Over every run, what was accepted is what was settled and what is pending. -/
theorem accepted_eq {readOnly : Bool} {s : Sys S R H}
    (h : (system S R H).run (.init readOnly) as = some (s, tr)) :
    accepted tr = settled tr * pending s.core := by
  have hc := run_conserves (I := fun s => Inv s.core) (fun s => pending s.core) Event.taken
    Event.settled (fun hi hs => hi.trans (trans_step hs)) (fun hi hs => (trans_step hs).conserves hi)
    (Inv.init readOnly) h
  exact (one_mul _).symm.trans hc

/-! ## Operations -/

/-- The events that start or end an operation of the connection. -/
def Event.OfConn : Event S R H → Prop
  | .began _ | .applied _ _ | .opFailed _ _ | .discarded _ | .ended => True
  | _ => False

def Event.requested : Event S R H → List (Work S R)
  | .request _ w => [w]
  | _ => []

/-- The work of the requests in a trace. -/
def requests (tr : List (Event S R H)) : List (Work S R) := tr.flatMap Event.requested

/-- `tr` ends in a running operation `op`: when it began exactly the work `w` was pending, since then
no other operation has begun or ended and no work was settled, and its requests sent `reqs`. -/
def During (tr : List (Event S R H)) (op : EndOp) (w : Work S R) (reqs : List (Work S R)) : Prop :=
  ∃ l m, tr = l ++ .began op :: m ∧ (∀ e ∈ m, ¬ e.OfConn) ∧ accepted l = settled l * w ∧
    requests m = reqs

theorem During.append (h : During tr op w reqs) (hes : ∀ e ∈ es, ¬ e.OfConn) :
    During (tr ++ es) op w (reqs ++ requests es) := by
  obtain ⟨l, m, rfl, hm, hw, rfl⟩ := h
  refine ⟨l, m ++ es, by simp, ?_, hw, by simp [requests]⟩
  intro e he
  rcases List.mem_append.mp he with he | he
  · exact hm e he
  · exact hes e he

/-- The events of the other parties do not touch a running operation. -/
theorem During.others (h : During tr op w reqs) (hes : ∀ e ∈ es, ¬ e.OfConn ∧ e.requested = []) :
    During (tr ++ es) op w reqs := by
  have hr : requests es = [] := by
    rw [requests, List.flatMap_eq_nil_iff]
    exact fun e he => (hes e he).2
  have h' := h.append fun e he => (hes e he).1
  rwa [hr, List.append_nil] at h'

theorem settled_eq_one {m : List (Event S R H)} (h : ∀ e ∈ m, ¬ e.OfConn) : settled m = 1 := by
  induction m with
  | nil => rfl
  | cons e m ih =>
    have he := h e List.mem_cons_self
    rw [settled_cons, ih fun e' he' => h e' (List.mem_cons_of_mem _ he'), mul_one]
    cases e <;> first | rfl | exact absurd trivial he

/-- What is pending during an operation: the work it began with, and behind it what was accepted
since. -/
theorem During.pending_eq {p : Work S R} (h : During tr op w reqs)
    (hp : accepted tr = settled tr * p) :
    ∃ l m, tr = l ++ .began op :: m ∧ (∀ e ∈ m, ¬ e.OfConn) ∧ accepted l = settled l * w ∧
      p = w * accepted m := by
  obtain ⟨l, m, rfl, hm, hw, -⟩ := h
  refine ⟨l, m, rfl, hm, hw, ?_⟩
  rw [accepted_append, settled_append, accepted_cons, settled_cons, settled_eq_one hm, hw] at hp
  simp only [Event.taken, Event.settled, one_mul, mul_one, mul_assoc] at hp
  exact (Work.mul_left_cancel hp).symm

/-- The operation the connection is in, as the trace shows it. -/
def ConnPhase.Shown (tr : List (Event S R H)) : ConnPhase S R H → Prop
  | .applying op work => During tr op work.work []
  | .inFlight op work => During tr op work.work [work.work]
  | .restoring work _ => ∃ reqs, During tr .switch work.work reqs
  | .idle | .finishing _ => True

theorem ConnPhase.Shown.others {p : ConnPhase S R H} (h : p.Shown tr)
    (hes : ∀ e ∈ es, ¬ e.OfConn ∧ e.requested = []) : p.Shown (tr ++ es) := by
  cases p with
  | idle => trivial
  | applying op work => exact During.others h hes
  | inFlight op work => exact During.others h hes
  | finishing work => trivial
  | restoring work e =>
    obtain ⟨reqs, h⟩ := h
    exact ⟨reqs, h.others hes⟩

/-- An `applied` event ends an operation that began with exactly this work pending and sent it in one
request, or sent nothing where there was nothing. -/
def SentPending (l : List (Event S R H)) (e : Event S R H) : Prop :=
  ∀ op w, e = .applied op w → ∃ reqs, During l op w reqs ∧ (w = 1 → reqs = []) ∧ (w ≠ 1 → reqs = [w])

structure OpInv (tr : List (Event S R H)) (c : Core S R H) : Prop where
  shown : c.conn.Shown tr
  sent : Everywhere SentPending tr

/-- `apply_manual_txn` succeeds: from the phase before, what the trace shows of its requests. -/
theorem OpInv.sentPending (hi : Inv c) (ho : OpInv tr c)
    (h : (c.conn = .applying op work ∧ work.work = 1) ∨ c.conn = .inFlight op work) :
    SentPending tr (.applied op work.work) := by
  rintro _ _ ⟨⟩
  have hshown := ho.shown
  have hfits := hi.fits
  rcases h with ⟨hc, hw⟩ | hc
  · rw [hc] at hshown
    exact ⟨[], hshown, fun _ => rfl, fun hne => absurd hw hne⟩
  · rw [hc] at hshown hfits
    have hne : work.work ≠ 1 := by
      cases op with
      | commit => exact hfits.2.2.1 hfits.1
      | switch => exact hfits.2.2 hfits.1
    exact ⟨[work.work], hshown, fun hw => absurd hw hne, fun _ => rfl⟩

theorem everywhere_sentPending (ht : Everywhere SentPending tr)
    (hes : ∀ e ∈ es, ∀ op w, e ≠ .applied op w) : Everywhere SentPending (tr ++ es) :=
  ht.append (.of_forall fun _ e he op w e' => absurd e' (hes e he op w))

theorem OpInv.trans (hi : Inv c) (hacc : accepted tr = settled tr * pending c) (ho : OpInv tr c)
    (h : Trans c es c') :
    OpInv (tr ++ es) c' := by
  have hshown := ho.shown
  cases h with
  | quiet hl =>
    refine ⟨hshown.others ?_, everywhere_sentPending ho.sent ?_⟩
    · intro e he
      have hle := hl e he
      cases e <;> first | exact ⟨id, rfl⟩ | exact absurd hle id
    · rintro e he op w rfl
      exact hl _ he
  | flag value hc =>
    rw [List.append_nil]
    exact ⟨hshown, ho.sent⟩
  | mode hc _ =>
    rw [List.append_nil]
    exact ⟨hshown, ho.sent⟩
  | buffer hm hb =>
    exact ⟨hshown.others (by simp [Event.OfConn, Event.requested]),
      everywhere_sentPending ho.sent (by simp)⟩
  | query hm hor =>
    exact ⟨hshown.others (by simp [Event.OfConn, Event.requested]),
      everywhere_sentPending ho.sent (by simp)⟩
  | beginCommit hc hm =>
    rw [pending_idle hc] at hacc
    exact ⟨⟨tr, [], rfl, by simp, hacc, rfl⟩, everywhere_sentPending ho.sent (by simp)⟩
  | beginSwitch hc hm =>
    rw [pending_idle hc] at hacc
    exact ⟨⟨tr, [], rfl, by simp, hacc, rfl⟩, everywhere_sentPending ho.sent (by simp)⟩
  | rollback hc hm =>
    refine ⟨?_, everywhere_sentPending ho.sent (by simp)⟩
    rw [hc]
    trivial
  | @send op work hc hk =>
    rw [hc] at hshown
    exact ⟨During.append hshown (by simp [Event.OfConn]), everywhere_sentPending ho.sent (by simp)⟩
  | okCommit hc =>
    refine ⟨trivial, ho.sent.append (.cons ?_ .nil)⟩
    rw [List.append_nil]
    exact ho.sentPending hi hc
  | okSwitch hc =>
    refine ⟨trivial, ho.sent.append (.cons ?_ (.cons ?_ .nil))⟩
    · rw [List.append_nil]
      exact ho.sentPending hi hc
    · intro op w e
      cases e
  | errCommit hc => exact ⟨trivial, everywhere_sentPending ho.sent (by simp)⟩
  | errSwitch hc =>
    rw [List.append_nil]
    refine ⟨?_, ho.sent⟩
    rcases hc with ⟨hc, -⟩ | hc
    · rw [hc] at hshown
      exact ⟨_, hshown⟩
    · rw [hc] at hshown
      exact ⟨_, hshown⟩
  | finish hc hf => exact ⟨trivial, everywhere_sentPending ho.sent (by simp)⟩
  | restore hc => exact ⟨trivial, everywhere_sentPending ho.sent (by simp)⟩

theorem OpInv.run {readOnly : Bool} {s : Sys S R H}
    (h : (system S R H).run (.init readOnly) as = some (s, tr)) :
    OpInv tr s.core := by
  have hinit : OpInv [] (Sys.init readOnly : Sys S R H).core := ⟨trivial, .nil⟩
  have hall : Inv s.core ∧ accepted tr = settled tr * pending s.core ∧ OpInv tr s.core := by
    refine run_induction (I := fun tr s => Inv s.core ∧
      accepted tr = settled tr * pending s.core ∧ OpInv tr s.core) ?_
      ⟨Inv.init readOnly, rfl, hinit⟩ h
    rintro tr s a s' es ⟨hi, hacc, ho⟩ hs
    have ht := trans_step hs
    refine ⟨hi.trans ht, ?_, ho.trans hi hacc ht⟩
    rw [accepted_append, settled_append, hacc, mul_assoc, ht.conserves hi, mul_assoc]
  exact hall.2.2

/-- A failed operation leaves the work it began with in the buffer, with what was accepted meanwhile
behind it. -/
theorem Trans.of_opFailed {e : Error} (ht : Trans c es c') (hi : Inv c) (ho : OpInv tr c)
    (hacc : accepted tr = settled tr * pending c) (hm : .opFailed op e ∈ es) :
    c'.conn = .idle ∧ c'.shared.autocommit = false ∧
      ∃ l m w, tr = l ++ .began op :: m ∧ (∀ e ∈ m, ¬ e.OfConn) ∧ accepted l = settled l * w ∧
        c'.shared.txn.work = w * accepted m := by
  have hshown := ho.shown
  cases ht with
  | quiet hl => exact absurd (hl _ hm) id
  | @errCommit work e' hc =>
    cases List.mem_singleton.mp hm
    have hduring : ∃ reqs, During tr .commit work.work reqs := by
      rcases hc with ⟨hc, -⟩ | hc
      · rw [hc] at hshown
        exact ⟨_, hshown⟩
      · rw [hc] at hshown
        exact ⟨_, hshown⟩
    obtain ⟨reqs, hd⟩ := hduring
    rw [pending_commit hc] at hacc
    obtain ⟨l, m, htr, hq, hl, hw⟩ := hd.pending_eq hacc
    exact ⟨rfl, (hi.ahead hc).1, l, m, work.work, htr, hq, hl, hw⟩
  | restore hc =>
    cases List.mem_singleton.mp hm
    rw [hc] at hshown
    obtain ⟨reqs, hd⟩ := hshown
    rw [pending_restoring hi hc] at hacc
    obtain ⟨l, m, htr, hq, hl, hw⟩ := hd.pending_eq hacc
    exact ⟨rfl, rfl, l, m, _, htr, hq, hl, hw⟩
  | _ => simp at hm

/-- The last lock of an ingest buffers all rows or leaves the state as it is. -/
theorem ingestBuffer_all_or_none (c : Core S R H) (mutations : List R) :
    ((c.ingestBuffer mutations).2 = [.accepted ⟨[], mutations⟩] ∧
      (c.ingestBuffer mutations).1.shared.txn.work = c.shared.txn.work * ⟨[], mutations⟩) ∨
    ((c.ingestBuffer mutations).1.shared = c.shared ∧
      ∀ w, .accepted w ∉ (c.ingestBuffer mutations).2) := by
  unfold Core.ingestBuffer
  split
  · rename_i hm
    have hm' : c.shared.autocommit = false := by simpa using hm
    rcases TxnState.bufferMutations_cases hm' mutations with ⟨shared, hb, -, hb'⟩ | ⟨e, hb⟩
    · rw [hb]
      exact .inl ⟨rfl, hb'.work⟩
    · rw [hb]
      exact .inr ⟨rfl, by simp⟩
  · exact .inr ⟨rfl, by simp⟩

/-- No write is lost, duplicated or reordered: every accepted statement and row is, in order, settled
by one commit, switch or rollback or still pending; a commit or switch that succeeds has sent the
work that was pending when it began; one that fails leaves that work in the buffer in front of
anything accepted meanwhile, in manual mode; an ingest buffers all its rows or none. -/
theorem no_write_lost {readOnly : Bool} {as : List (Action S R H)} {s : Sys S R H}
    {tr : List (Event S R H)} (hr : (system S R H).run (.init readOnly) as = some (s, tr)) :
    ((accepted tr).statements = (settled tr).statements ++ (pending s.core).statements ∧
      (accepted tr).rows = (settled tr).rows ++ (pending s.core).rows) ∧
    (∀ l r op w, tr = l ++ .applied op w :: r →
      ∃ reqs, During l op w reqs ∧ (w = 1 → reqs = []) ∧ (w ≠ 1 → reqs = [w])) ∧
    (∀ a s' es op e, (system S R H).step s a = some (s', es) → .opFailed op e ∈ es →
      s'.core.conn = .idle ∧ s'.core.shared.autocommit = false ∧
      ∃ l m w, tr = l ++ .began op :: m ∧ (∀ e ∈ m, ¬ e.OfConn) ∧ accepted l = settled l * w ∧
        s'.core.shared.txn.work = w * accepted m) ∧
    (∀ i mutations s' es, s.stmts i = .ingestBuilt mutations →
      (system S R H).step s (.ingestBuffer i) = some (s', es) →
      (es = [.accepted ⟨[], mutations⟩] ∧
        s'.core.shared.txn.work = s.core.shared.txn.work * ⟨[], mutations⟩) ∨
      (s'.core.shared = s.core.shared ∧ ∀ w, .accepted w ∉ es)) := by
  have hacc := accepted_eq hr
  have ho := OpInv.run hr
  refine ⟨⟨congrArg Work.statements hacc, congrArg Work.rows hacc⟩, ?_, ?_, ?_⟩
  · intro l r op w htr
    exact ho.sent l _ r htr op w rfl
  · intro a s' es op e hs hm
    exact (trans_step hs).of_opFailed (Inv.run hr) ho hacc hm
  · intro i mutations s' es hi hs
    have h' : s.stmtStep (.ingestBuffer i) = some (s', es) := hs
    simp only [Sys.stmtStep, hi] at h'
    cases h'
    exact ingestBuffer_all_or_none s.core mutations

/-- A commit with an ingest that buffers its row while the request is in flight. -/
def commitAndIngest : List (Action Nat Nat Nat) :=
  [.setAutocommit false, .runOrBuffer 0 [1, 2], .commit, .ingestLook 1, .applyManualTxn,
    .ingestBuild 1 (.ok [5]), .ingestBuffer 1, .respond (.ok ()), .finishCommit]

theorem no_write_lost_commitAndIngest : ∃ s,
    (system Nat Nat Nat).run (.init false) commitAndIngest
      = some (s, [.accepted ⟨[1, 2], []⟩, .began .commit, .request .commit ⟨[1, 2], []⟩,
          .accepted ⟨[], [5]⟩, .applied .commit ⟨[1, 2], []⟩, .ended]) ∧
    (pending s.core).statements = [] ∧ (pending s.core).rows = [5] ∧
    (∀ a s' es op e, (system Nat Nat Nat).step s a = some (s', es) → .opFailed op e ∈ es →
      s'.core.shared.autocommit = false) := by
  obtain ⟨s, h⟩ : ∃ s, (system Nat Nat Nat).run (.init false) commitAndIngest
      = some (s, [.accepted ⟨[1, 2], []⟩, .began .commit, .request .commit ⟨[1, 2], []⟩,
          .accepted ⟨[], [5]⟩, .applied .commit ⟨[1, 2], []⟩, .ended]) := ⟨_, rfl⟩
  obtain ⟨⟨h1, h2⟩, -, h3, -⟩ := no_write_lost h
  have hs : [1, 2] ++ [] = [1, 2] ++ (pending s.core).statements := h1
  refine ⟨s, h, (List.append_cancel_left hs).symm, h2.symm, ?_⟩
  intro a s' es op e hs hm
  exact (h3 a s' es op e hs hm).2.1

end Txn
end SpannerAdbc
