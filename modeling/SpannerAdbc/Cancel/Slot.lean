import SpannerAdbc.Stream.Prefetch

/-!
# SpannerAdbc.Cancel.Slot

`CancelSlot` of a connection or a statement, the signals it has minted, the waits on them and
`cancel` calls from other threads, one atomic step at a time.

* `begin_operation` mints a signal and makes it the current one; `cancel` sets the flag of the
  current signal and wakes its waiters in two steps, with the mutex of the slot held throughout, so
  that no operation begins in between.
* A wait is the biased `select!` of `block_on_cancellable`: it goes through the program counters
  `Stream.Pc`. It may begin on any signal that has been minted, at any time: the waits of an
  operation are on its own signal, and its readers hold on to that signal for as long as they live.

`cancel_reaches_one_operation` collects what holds in every run: `CancelContract`.
-/

namespace SpannerAdbc
namespace Cancel

open Lib Machine
open SpannerAdbc.Stream (Pc)

inductive Outcome where
  | cancelled
  | finished
  deriving DecidableEq, Repr

inductive Phase where
  | running (pc : Pc)
  | ended (outcome : Outcome)
  deriving DecidableEq, Repr

structure Wait where
  signal : Nat
  phase : Phase
  deriving DecidableEq, Repr

/-- What a `signal` call that holds the mutex does next. -/
inductive CancelPc where
  | store
  | notify
  deriving DecidableEq, Repr

structure Slot where
  /-- The flags of the signals that have been minted, oldest first. -/
  flags : List Bool
  /-- The signal in the slot. -/
  current : Nat
  /-- The `signal` call that holds the mutex. -/
  cancel : Option CancelPc
  waits : List Wait
  deriving DecidableEq, Repr

inductive Action where
  | beginOperation
  | cancelLock
  | cancelStore
  | cancelNotify
  /-- A wait on a signal begins. -/
  | wait (signal : Nat)
  /-- A wait makes its next step; a poll of its operation finds it ready or not. -/
  | turn (i : Nat) (ready : Bool)

inductive Event where
  | began
  | stored
  /-- A `cancel` call returns. -/
  | returned
  | ended (i : Nat) (outcome : Outcome)
  deriving DecidableEq, Repr

def Phase.notify : Phase → Phase
  | .running pc => .running pc.notify
  | p => p

def Wait.notify (signal : Nat) (w : Wait) : Wait :=
  if w.signal = signal then { w with phase := w.phase.notify } else w

namespace Slot

/-- `CancelSlot::new`. -/
def new : Slot where
  flags := [false]
  current := 0
  cancel := none
  waits := []

def marked (s : Slot) (signal : Nat) : Bool := s.flags.getD signal false

/-- The step of a wait on a signal whose flag is `flag`. -/
def turnPhase (flag ready : Bool) (pc : Pc) : Phase :=
  match pc.turn flag with
  | .cancelled => .ended .cancelled
  | .go pc => .running pc
  | .poll n => if ready then .ended .finished else .running (.parked n)

def endedEvents (i : Nat) : Phase → List Event
  | .ended outcome => [.ended i outcome]
  | .running _ => []

def step (s : Slot) : Action → Option (Slot × List Event)
  | .beginOperation =>
    if s.cancel.isSome then none
    else some ({ s with flags := s.flags ++ [false], current := s.flags.length }, [.began])
  | .cancelLock => if s.cancel.isSome then none else some ({ s with cancel := some .store }, [])
  | .cancelStore =>
    if s.cancel = some .store then
      some ({ s with flags := s.flags.set s.current true, cancel := some .notify }, [.stored])
    else none
  | .cancelNotify =>
    if s.cancel = some .notify then
      some ({ s with waits := s.waits.map (Wait.notify s.current), cancel := none }, [.returned])
    else none
  | .wait signal =>
    if signal < s.flags.length then
      some ({ s with waits := s.waits ++ [{ signal, phase := .running .load1 }] }, [])
    else none
  | .turn i ready =>
    match s.waits[i]? with
    | some ⟨signal, .running pc⟩ =>
      let phase := turnPhase (s.marked signal) ready pc
      some ({ s with waits := s.waits.set i ⟨signal, phase⟩ }, endedEvents i phase)
    | _ => none

end Slot

def slot : Machine Slot Action Event where
  step := Slot.step

/-- The operation that is current behind a trace: operations are numbered from one in the order they
begin. -/
def operation (tr : List Event) : Nat := tr.count .began

/-- The event has happened while `k` was the current operation. -/
def During (k : Nat) (e : Event) (tr : List Event) : Prop :=
  ∃ l r, tr = l ++ e :: r ∧ operation l = k

/-- A `cancel` has marked the operation `k`. -/
def Marked (k : Nat) (tr : List Event) : Prop := During k .stored tr

/-- A `cancel` of the operation `k` has returned. -/
def Returned (k : Nat) (tr : List Event) : Prop := During k .returned tr

/-- A wait that is parked without a wake-up. -/
def Phase.stuck : Phase → Bool
  | .running (.parked false) => true
  | _ => false

/-- The wait has made no step yet and ends as cancelled in the next one, or it has done so. -/
def Doomed (k i : Nat) (s : Slot) : Prop :=
  s.waits[i]? = some ⟨k, .ended .cancelled⟩ ∨
    s.waits[i]? = some ⟨k, .running .load1⟩ ∧ ∀ ready, ∃ s',
      slot.step s (.turn i ready) = some (s', [.ended i .cancelled])

/-- What holds of a slot behind the trace `tr`. -/
structure CancelContract (tr : List Event) (s : Slot) : Prop where
  /-- The flag of a signal is set if and only if a cancel came while its operation was current. -/
  exact : ∀ k, s.marked k = true ↔ Marked k tr
  /-- A wait ends as cancelled only on a marked operation. -/
  observed : ∀ w ∈ s.waits, w.phase = .ended .cancelled → Marked w.signal tr
  /-- A cancel that has returned has marked the operation. -/
  marks : ∀ k, Returned k tr → Marked k tr
  /-- Behind the return of a cancel no wait of the operation is parked without a wake-up. -/
  woken : ∀ k, Returned k tr → ∀ w ∈ s.waits, w.signal = k → w.phase.stuck = false
  /-- Left to itself, a wait of the operation that has not ended ends as cancelled. -/
  wakes : ∀ k, Returned k tr → ∀ i pc, s.waits[i]? = some ⟨k, .running pc⟩ →
    ∃ as s' tr', (∀ a ∈ as, a = .turn i false) ∧ slot.run s as = some (s', tr') ∧
      s'.waits[i]? = some ⟨k, .ended .cancelled⟩
  /-- A wait that begins behind the return of a cancel ends as cancelled, whatever happens. -/
  later : ∀ k, Returned k tr → ∀ as s' tr', slot.run s (.wait k :: as) = some (s', tr') →
    Doomed k s.waits.length s'

/-! ## Traces -/

theorem operation_append (tr es : List Event) :
    operation (tr ++ es) = operation tr + operation es := List.count_append

variable {s s' : Slot} {es tr : List Event} {a : Action} {k i : Nat} {e : Event} {pc : Pc}

theorem During.append (h : During k e tr) (es : List Event) : During k e (tr ++ es) := by
  obtain ⟨l, r, rfl, hk⟩ := h
  exact ⟨l, r ++ es, by simp, hk⟩

/-- An event of the last step happens while the last operation is current. -/
theorem during_snoc {e' : Event} :
    During k e (tr ++ [e']) ↔ During k e tr ∨ e' = e ∧ operation tr = k := by
  constructor
  · rintro ⟨l, r, h, hk⟩
    rcases List.eq_nil_or_concat r with rfl | ⟨r, x, rfl⟩
    · obtain ⟨rfl, he⟩ := List.append_inj' h rfl
      cases he
      exact .inr ⟨rfl, hk⟩
    · have h' : tr ++ [e'] = (l ++ e :: r) ++ [x] := by simpa using h
      obtain ⟨rfl, -⟩ := List.append_inj' h' rfl
      exact .inl ⟨l, r, rfl, hk⟩
  · rintro (h | ⟨rfl, hk⟩)
    · exact h.append _
    · exact ⟨tr, [], rfl, hk⟩

/-- The end of a wait is no event of a cancel. -/
theorem during_ended (he : ∀ o, e ≠ .ended i o) (p : Phase) :
    During k e (tr ++ Slot.endedEvents i p) ↔ During k e tr := by
  cases p with
  | running pc => rw [Slot.endedEvents, List.append_nil]
  | ended o =>
    rw [Slot.endedEvents, during_snoc]
    refine or_iff_left ?_
    rintro ⟨h, -⟩
    exact he o h.symm

/-! ## Waits on a set flag -/

/-- With the flag set, the wait looks at it before it parks, or has a wake-up. -/
def Phase.safe : Phase → Bool
  | .running (.check n) | .running (.op n) | .running (.parked n) => n
  | _ => true

theorem Phase.not_stuck {p : Phase} (h : p.safe = true) : p.stuck = false := by
  cases p with
  | ended o => rfl
  | running pc =>
    cases pc with
    | parked n =>
      cases n with
      | true => rfl
      | false => cases h
    | _ => rfl

theorem Phase.safe_notify (p : Phase) : p.notify.safe = true := by
  cases p with
  | ended o => rfl
  | running pc => cases pc <;> rfl

theorem Phase.safe_turn (h : (Phase.running pc).safe = true) (ready : Bool) :
    (Slot.turnPhase true ready pc).safe = true := by
  cases pc with
  | load1 => rfl
  | create => rfl
  | load2 n => rfl
  | check n =>
    cases n with
    | true => rfl
    | false => cases h
  | op n =>
    cases ready with
    | true => rfl
    | false => exact h
  | parked n => exact h

/-- Only a set flag ends a wait as cancelled. -/
theorem flag_of_turn {flag ready : Bool} (h : Slot.turnPhase flag ready pc = .ended .cancelled) :
    flag = true := by
  cases flag with
  | true => rfl
  | false =>
    cases pc with
    | check n => cases n <;> cases h
    | op n => cases ready <;> cases h
    | _ => cases h

/-! ## What a step can do -/

inductive Trans : Action → Slot → List Event → Slot → Prop where
  | begin {s : Slot} : s.cancel = none → Trans .beginOperation s [.began]
      { s with flags := s.flags ++ [false], current := s.flags.length }
  | lock {s : Slot} : s.cancel = none → Trans .cancelLock s [] { s with cancel := some .store }
  | store {s : Slot} : s.cancel = some .store → Trans .cancelStore s [.stored]
      { s with flags := s.flags.set s.current true, cancel := some .notify }
  | notify {s : Slot} : s.cancel = some .notify → Trans .cancelNotify s [.returned]
      { s with waits := s.waits.map (Wait.notify s.current), cancel := none }
  | wait {s : Slot} {signal : Nat} : signal < s.flags.length → Trans (.wait signal) s []
      { s with waits := s.waits ++ [⟨signal, .running .load1⟩] }
  | turn {s : Slot} {i signal : Nat} {pc : Pc} (ready : Bool) :
      s.waits[i]? = some ⟨signal, .running pc⟩ →
      Trans (.turn i ready) s (Slot.endedEvents i (Slot.turnPhase (s.marked signal) ready pc))
        { s with waits := s.waits.set i ⟨signal, Slot.turnPhase (s.marked signal) ready pc⟩ }

theorem trans_step (h : slot.step s a = some (s', es)) : Trans a s es s' := by
  have h' : s.step a = some (s', es) := h
  cases a with
  | beginOperation =>
    simp only [Slot.step] at h'
    split at h'
    · cases h'
    · rename_i hc
      cases h'
      exact .begin (by simpa using hc)
  | cancelLock =>
    simp only [Slot.step] at h'
    split at h'
    · cases h'
    · rename_i hc
      cases h'
      exact .lock (by simpa using hc)
  | cancelStore =>
    simp only [Slot.step] at h'
    split at h'
    · rename_i hc
      cases h'
      exact .store hc
    · cases h'
  | cancelNotify =>
    simp only [Slot.step] at h'
    split at h'
    · rename_i hc
      cases h'
      exact .notify hc
    · cases h'
  | wait signal =>
    simp only [Slot.step] at h'
    split at h'
    · rename_i hlt
      cases h'
      exact .wait hlt
    · cases h'
  | turn i ready =>
    simp only [Slot.step] at h'
    split at h'
    · rename_i signal pc hw
      cases h'
      exact .turn ready hw
    · cases h'

theorem step_turn (ready : Bool) (hw : s.waits[i]? = some ⟨k, .running pc⟩) :
    slot.step s (.turn i ready) =
      some ({ s with waits := s.waits.set i ⟨k, Slot.turnPhase (s.marked k) ready pc⟩ },
        Slot.endedEvents i (Slot.turnPhase (s.marked k) ready pc)) := by
  simp only [slot, Slot.step, hw]

/-! ## Flags -/

theorem marked_set (hc : s.current < s.flags.length) (c : Option CancelPc) (k : Nat) :
    Slot.marked { s with flags := s.flags.set s.current true, cancel := c } k = true ↔
      s.marked k = true ∨ k = s.current := by
  unfold Slot.marked
  simp only [List.getD_eq_getElem?_getD, List.getElem?_set]
  by_cases hk : s.current = k
  · subst hk
    simp [hc]
  · simp [hk, Ne.symm hk]

theorem marked_append (k : Nat) :
    Slot.marked { s with flags := s.flags ++ [false], current := s.flags.length } k = s.marked k := by
  unfold Slot.marked
  simp only [List.getD_eq_getElem?_getD, List.getElem?_append]
  split
  · rfl
  · rename_i hk
    rw [List.getElem?_eq_none (by omega : s.flags.length ≤ k)]
    cases k - s.flags.length <;> rfl

/-- A flag is never cleared. -/
theorem Trans.marked (h : Trans a s es s') (hk : s.marked k = true) : s'.marked k = true := by
  cases h with
  | begin hc => rwa [marked_append]
  | store hc =>
    unfold Slot.marked at hk ⊢
    simp only [List.getD_eq_getElem?_getD, List.getElem?_set] at hk ⊢
    split
    · split
      · rfl
      · rename_i hlt
        subst k
        rw [List.getElem?_eq_none (by omega)] at hk
        cases hk
    · exact hk
  | lock | notify | wait | turn => exact hk

/-! ## The invariant -/

structure Inv (tr : List Event) (s : Slot) : Prop where
  size : s.flags.length = s.current + 1
  count : operation tr = s.current
  exact : ∀ k, s.marked k = true ↔ Marked k tr
  observed : ∀ w ∈ s.waits, w.phase = .ended .cancelled → s.marked w.signal = true
  /-- The call that is about to wake the waiters has set the flag. -/
  stored : s.cancel = some .notify → s.marked s.current = true
  marks : ∀ k, Returned k tr → s.marked k = true
  safe : ∀ k, Returned k tr → ∀ w ∈ s.waits, w.signal = k → w.phase.safe = true

theorem Inv.new : Inv [] Slot.new := by
  have hnone : ∀ k e, ¬ During k e [] := by
    rintro k e ⟨l, r, h, -⟩
    simp at h
  refine ⟨rfl, rfl, fun k => iff_of_false ?_ (hnone k _), by simp [Slot.new], by simp [Slot.new],
    fun k hk => absurd hk (hnone k _), fun k hk => absurd hk (hnone k _)⟩
  cases k <;> simp [Slot.marked, Slot.new]

section Steps

variable {tr es : List Event} {s s' : Slot} {a : Action}

theorem Inv.begin (h : Inv tr s) (hc : s.cancel = none) :
    Inv (tr ++ [.began]) { s with flags := s.flags ++ [false], current := s.flags.length } := by
  have hd : ∀ {k e}, e ≠ .began → (During k e (tr ++ [.began]) ↔ During k e tr) := by
    intro k e he
    rw [during_snoc]
    exact or_iff_left fun hb => he hb.1.symm
  refine ⟨by simp, ?_, ?_, ?_, ?_, ?_, ?_⟩
  · rw [operation_append, h.count, h.size]
    rfl
  · intro k
    rw [marked_append, h.exact, Marked, Marked, hd (by simp)]
  · intro w hw he
    rw [marked_append]
    exact h.observed w hw he
  · intro hn
    rw [hc] at hn
    cases hn
  · intro k hk
    rw [marked_append]
    exact h.marks k ((hd (by simp)).mp hk)
  · intro k hk
    exact h.safe k ((hd (by simp)).mp hk)

theorem Inv.store (h : Inv tr s) :
    Inv (tr ++ [.stored])
      { s with flags := s.flags.set s.current true, cancel := some .notify } := by
  have hlt : s.current < s.flags.length := by
    rw [h.size]
    omega
  refine ⟨by simpa using h.size, ?_, ?_, ?_, ?_, ?_, ?_⟩
  · rw [operation_append, h.count]
    rfl
  · intro k
    rw [marked_set hlt, h.exact, Marked, Marked, during_snoc, h.count]
    simp [eq_comm]
  · intro w hw he
    exact (marked_set hlt _ _).mpr (.inl (h.observed w hw he))
  · intro _
    exact (marked_set hlt _ _).mpr (.inr rfl)
  · intro k hk
    rw [Returned, during_snoc] at hk
    refine (marked_set hlt _ _).mpr (.inl (h.marks k (hk.resolve_right ?_)))
    rintro ⟨he, -⟩
    cases he
  · intro k hk
    rw [Returned, during_snoc] at hk
    refine h.safe k (hk.resolve_right ?_)
    rintro ⟨he, -⟩
    cases he

theorem Wait.signal_notify (signal : Nat) (w : Wait) : (w.notify signal).signal = w.signal := by
  unfold Wait.notify
  split <;> rfl

/-- The waiters of the current operation are woken; the others are left alone. -/
theorem Inv.notify (h : Inv tr s) (hc : s.cancel = some .notify) :
    Inv (tr ++ [.returned])
      { s with waits := s.waits.map (Wait.notify s.current), cancel := none } := by
  refine ⟨h.size, ?_, ?_, ?_, by simp, ?_, ?_⟩
  · rw [operation_append, h.count]
    rfl
  · intro k
    rw [Marked, during_snoc, or_iff_left (by simp)]
    exact h.exact k
  · intro w hw he
    obtain ⟨v, hv, rfl⟩ := List.mem_map.mp hw
    rw [Wait.signal_notify]
    refine h.observed v hv ?_
    unfold Wait.notify at he
    split at he
    · cases hp : v.phase with
      | running pc =>
        rw [hp] at he
        cases he
      | ended o =>
        rw [hp] at he
        exact he
    · exact he
  · intro k hk
    rw [Returned, during_snoc, h.count] at hk
    rcases hk with hk | ⟨-, rfl⟩
    · exact h.marks k hk
    · exact h.stored hc
  · intro k hk w hw hs
    obtain ⟨v, hv, rfl⟩ := List.mem_map.mp hw
    rw [Wait.signal_notify] at hs
    unfold Wait.notify
    split
    · exact Phase.safe_notify _
    · rename_i hne
      rw [Returned, during_snoc, h.count] at hk
      rcases hk with hk | ⟨-, hk⟩
      · exact h.safe k hk v hv hs
      · exact absurd (hs.trans hk.symm) hne

theorem Inv.wait (h : Inv tr s) (k : Nat) :
    Inv tr { s with waits := s.waits ++ [⟨k, .running .load1⟩] } := by
  refine ⟨h.size, h.count, h.exact, ?_, h.stored, h.marks, ?_⟩
  · intro w hw he
    rcases List.mem_append.mp hw with hw | hw
    · exact h.observed w hw he
    · rw [List.mem_singleton.mp hw] at he
      cases he
  · intro j hj w hw hs
    rcases List.mem_append.mp hw with hw | hw
    · exact h.safe j hj w hw hs
    · rw [List.mem_singleton.mp hw]
      rfl

theorem Inv.turn (h : Inv tr s) {i k : Nat} {pc : Pc} (ready : Bool)
    (hw : s.waits[i]? = some ⟨k, .running pc⟩) :
    Inv (tr ++ Slot.endedEvents i (Slot.turnPhase (s.marked k) ready pc))
      { s with waits := s.waits.set i ⟨k, Slot.turnPhase (s.marked k) ready pc⟩ } := by
  have hop : operation (Slot.endedEvents i (Slot.turnPhase (s.marked k) ready pc)) = 0 := by
    cases Slot.turnPhase (s.marked k) ready pc <;> rfl
  refine ⟨h.size, ?_, ?_, ?_, h.stored, ?_, ?_⟩
  · rw [operation_append, hop, h.count, Nat.add_zero]
  · intro j
    rw [Marked, during_ended (by simp)]
    exact h.exact j
  · intro w hm he
    rcases List.mem_or_eq_of_mem_set hm with hm | rfl
    · exact h.observed w hm he
    · exact flag_of_turn he
  · intro j hj
    rw [Returned, during_ended (by simp)] at hj
    exact h.marks j hj
  · intro j hj w hm hs
    rw [Returned, during_ended (by simp)] at hj
    rcases List.mem_or_eq_of_mem_set hm with hm | rfl
    · exact h.safe j hj w hm hs
    · have hsafe := h.safe j hj _ (List.mem_of_getElem? hw) hs
      obtain rfl : k = j := hs
      rw [h.marks k hj]
      exact Phase.safe_turn hsafe ready

theorem Inv.step (h : Inv tr s) (hs : slot.step s a = some (s', es)) : Inv (tr ++ es) s' := by
  cases trans_step hs with
  | begin hc => exact h.begin hc
  | lock hc =>
    rw [List.append_nil]
    exact ⟨h.size, h.count, h.exact, h.observed, by simp, h.marks, h.safe⟩
  | store hc => exact h.store
  | notify hc => exact h.notify hc
  | wait hlt =>
    rw [List.append_nil]
    exact h.wait _
  | turn ready hw => exact h.turn ready hw

end Steps

/-! ## Waits that begin on a set flag -/

/-- The wait `i` is on a marked signal and has made no step, or has ended as cancelled. -/
structure Fresh (k i : Nat) (s : Slot) : Prop where
  marked : s.marked k = true
  wait : s.waits[i]? = some ⟨k, .running .load1⟩ ∨ s.waits[i]? = some ⟨k, .ended .cancelled⟩

theorem Fresh.step (h : Fresh k i s) (hs : slot.step s a = some (s', es)) : Fresh k i s' := by
  have ht := trans_step hs
  refine ⟨ht.marked h.marked, ?_⟩
  cases ht with
  | begin | lock | store => exact h.wait
  | notify hc =>
    simp only [List.getElem?_map]
    rcases h.wait with hw | hw
    · refine .inl ?_
      rw [hw, Option.map_some, Wait.notify]
      split <;> rfl
    · refine .inr ?_
      rw [hw, Option.map_some, Wait.notify]
      split <;> rfl
  | wait hlt =>
    have hi : i < s.waits.length := by
      rcases h.wait with hw | hw
      · exact (List.getElem?_eq_some_iff.mp hw).1
      · exact (List.getElem?_eq_some_iff.mp hw).1
    simp only [List.getElem?_append_left hi]
    exact h.wait
  | @turn _ j signal pc ready hj =>
    by_cases hji : j = i
    · subst hji
      rcases h.wait with hw | hw
      · rw [hw] at hj
        cases hj
        have hi := (List.getElem?_eq_some_iff.mp hw).1
        refine .inr ?_
        rw [h.marked]
        simp [hi, Slot.turnPhase, Pc.turn]
      · rw [hw] at hj
        cases hj
    · simp only [List.getElem?_set_ne hji]
      exact h.wait

theorem Fresh.doomed (h : Fresh k i s) : Doomed k i s := by
  rcases h.wait with hw | hw
  · refine .inr ⟨hw, fun ready => ?_⟩
    rw [step_turn ready hw, h.marked]
    exact ⟨_, rfl⟩
  · exact .inl hw

/-! ## The way of a woken wait -/

/-- How many steps a safe wait makes, at most, before it sees the flag. -/
def Phase.left : Phase → Nat
  | .running .load1 | .running (.load2 _) => 1
  | .running .create | .running (.check _) => 2
  | .running (.parked _) => 3
  | .running (.op _) => 4
  | .ended _ => 0

/-- The wait `i` is on a marked signal, and safe. -/
structure Woken (k i : Nat) (s : Slot) : Prop where
  marked : s.marked k = true
  wait : s.waits[i]? = some ⟨k, .ended .cancelled⟩ ∨
    ∃ pc, s.waits[i]? = some ⟨k, .running pc⟩ ∧ (Phase.running pc).safe = true

theorem left_turn (h : (Phase.running pc).safe = true) :
    (Slot.turnPhase true false pc).left < (Phase.running pc).left ∧
      Slot.turnPhase true false pc ≠ .ended .finished := by
  cases pc with
  | check n =>
    cases n with
    | true => decide
    | false => cases h
  | load1 | create => decide
  | load2 n | op n | parked n => simp [Slot.turnPhase, Pc.turn, Phase.left]

theorem Woken.ends (h : Woken k i s) :
    ∃ as s' tr', (∀ a ∈ as, a = .turn i false) ∧ slot.run s as = some (s', tr') ∧
      s'.waits[i]? = some ⟨k, .ended .cancelled⟩ := by
  refine exists_run_to (M := slot) (I := Woken k i) (P := fun a => a = .turn i false)
    (fun s => (s.waits[i]?.map fun w => w.phase.left).getD 0) ?_ h
  intro s h hgoal
  obtain ⟨pc, hw, hsafe⟩ := h.wait.resolve_left hgoal
  have hi := (List.getElem?_eq_some_iff.mp hw).1
  obtain ⟨hlt, hne⟩ := left_turn hsafe
  have hs := step_turn false hw
  refine ⟨_, _, _, rfl, hs, ⟨(trans_step hs).marked h.marked, ?_⟩, ?_⟩
  · simp only [List.getElem?_set_self hi, h.marked]
    cases hp : Slot.turnPhase true false pc with
    | running pc' =>
      have hsafe' := Phase.safe_turn hsafe false
      rw [hp] at hsafe'
      exact .inr ⟨pc', rfl, hsafe'⟩
    | ended o =>
      cases o with
      | cancelled => exact .inl rfl
      | finished => exact absurd hp hne
  · simpa [List.getElem?_set_self hi, h.marked, hw] using hlt

/-- Over every run of operations, waits and cancels, a cancel reaches exactly the operation that is
current when it comes, and keeps reaching it. -/
theorem cancel_reaches_one_operation {as : List Action} {s : Slot} {tr : List Event}
    (hr : slot.run Slot.new as = some (s, tr)) : CancelContract tr s := by
  have h : Inv tr s := run_induction (fun hI hs => Inv.step hI hs) Inv.new hr
  refine ⟨h.exact, ?_, ?_, ?_, ?_, ?_⟩
  · intro w hw he
    exact (h.exact _).mp (h.observed w hw he)
  · intro k hk
    exact (h.exact k).mp (h.marks k hk)
  · intro k hk w hw hs
    exact Phase.not_stuck (h.safe k hk w hw hs)
  · intro k hk i pc hw
    exact Woken.ends ⟨h.marks k hk, .inr ⟨pc, hw, h.safe k hk _ (List.mem_of_getElem? hw) rfl⟩⟩
  · intro k hk as' s' tr' hr'
    obtain ⟨s₁, es, tr₁, hs, hrun, -⟩ := run_cons.mp hr'
    have hfresh : Fresh k s.waits.length s₁ := by
      cases trans_step hs with
      | wait hlt => exact ⟨h.marks k hk, .inl (by simp)⟩
    exact (run_invariant (fun hI hs => Fresh.step hI hs) hfresh hrun).doomed

/-- Operation 1 waits and looks at the flag; a cancel sets it; the wait parks; the cancel wakes it and
returns; operation 2 begins and waits; a reader of operation 1 waits again. -/
def cancelledFirst : List Action :=
  [.beginOperation, .wait 1, .turn 0 false, .turn 0 false, .turn 0 false, .cancelLock, .cancelStore,
    .turn 0 false, .turn 0 false, .cancelNotify, .beginOperation, .wait 2, .turn 1 true, .wait 1,
    .turn 2 true]

theorem cancel_reaches_one_operation_first : ∃ s tr,
    slot.run Slot.new cancelledFirst = some (s, tr) ∧ CancelContract tr s ∧ Returned 1 tr ∧
      s.waits = [⟨1, .running (.parked true)⟩, ⟨2, .running .create⟩, ⟨1, .ended .cancelled⟩] := by
  obtain ⟨s, hr, hw⟩ : ∃ s, slot.run Slot.new cancelledFirst =
      some (s, [.began, .stored, .returned, .began, .ended 2 .cancelled]) ∧
      s.waits = [⟨1, .running (.parked true)⟩, ⟨2, .running .create⟩, ⟨1, .ended .cancelled⟩] :=
    ⟨_, rfl, rfl⟩
  refine ⟨s, _, hr, cancel_reaches_one_operation hr, ?_, hw⟩
  exact ⟨[.began, .stored], [.began, .ended 2 .cancelled], rfl, rfl⟩

end Cancel
end SpannerAdbc
