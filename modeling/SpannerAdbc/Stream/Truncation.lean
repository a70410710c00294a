import SpannerAdbc.Stream.Prefetch

/-!
# SpannerAdbc.Stream.Truncation

When the consumer may take the end of the stream for the end of the rows.

The prefetch task leaves its loop in four ways, and the consumer learns of each: of a drained source
by the closed channel, of a failed fetch and of a cancel during a fetch by an error in the channel,
and of a cancel during a send only by looking at the flag itself. The last one goes wrong when the
consumer has already looked: it then finds the channel closed and empty, and ends
(`cancelled_send_truncates`). `no_silent_truncation` shows that this is the only way to lose rows:
`Fate` lists where a stream can be, and every other step keeps it there.
-/

namespace SpannerAdbc
namespace Stream

open Lib Machine

def Out.rows : Out → List Row
  | .batch rows => rows
  | _ => []

/-- The rows the consumer has received. -/
def delivered (tr : List Out) : List Row := tr.flatMap Out.rows

theorem delivered_append (tr es : List Out) :
    delivered (tr ++ es) = delivered tr ++ delivered es := by
  simp [delivered]

/-- The rows that are still to come, in order. -/
def Reader.pend (r : Reader) : List Row := r.queue.flatten ++ r.source.rows

/-- The consumer has looked at the flag and polls the channel before it looks again. -/
def ConsPhase.past : ConsPhase → Bool
  | .waiting (.check false) | .waiting (.op _) | .waiting (.parked false) => true
  | _ => false

/-- The task's next step leaves the send without a word, because of a cancel. -/
def Reader.QuitsSend (r : Reader) : Prop :=
  ∃ rows pc, r.prod = .sending rows pc ∧ pc.turn r.cancelled = .cancelled

/-- The step is not one in which the task leaves the send because of a cancel while the channel is
empty and the consumer is past its look at the flag. -/
def SeenQuit (r : Reader) (a : Action) : Prop :=
  ∀ p, a = .producer p → r.QuitsSend → r.slot = none → r.cons.past = false

instance (r : Reader) : Decidable r.QuitsSend :=
  match h : r.prod with
  | .sending _ pc => decidable_of_iff (pc.turn r.cancelled = .cancelled)
      (by simp [Reader.QuitsSend, h])
  | .fetching _ | .sendingErr _ | .done => isFalse (by simp [Reader.QuitsSend, h])

instance (r : Reader) (a : Action) : Decidable (SeenQuit r a) :=
  match a with
  | .producer _ => decidable_of_iff (r.QuitsSend → r.slot = none → r.cons.past = false)
      (by simp [SeenQuit])
  | .signalStore | .signalNotify | .next | .consumer => isTrue (by simp [SeenQuit])

/-- Nothing is lost so far. -/
structure Live (all : Source) (tr : List Out) (r : Reader) : Prop where
  held : r.chunks = true
  slot : ∀ e, r.slot ≠ some (.error e)
  prod : ∀ e, r.prod ≠ .sendingErr e
  rows : all.rows = delivered tr ++ r.pend
  failure : r.source.failure = all.failure
  done : r.prod = .done → r.source.rows = [] ∧ all.failure = none
  first : r.cons ≠ .idle → r.first = none
  size : 0 < r.batchSize

/-- Where a stream of the rows of `all` can be. -/
inductive Fate (all : Source) (tr : List Out) (r : Reader) : Prop where
  /-- Every row is delivered or to come. -/
  | live : Live all tr r → Fate all tr r
  /-- The consumer has got an error. -/
  | failed : (∃ e, .error e ∈ tr) → Fate all tr r
  /-- An error is in the channel, or on its way into it. -/
  | failing : r.chunks = true →
      ((∃ e, r.slot = some (.error e)) ∨ ∃ e, r.prod = .sendingErr e) → Fate all tr r
  /-- The task has stopped because of a cancel, and the consumer looks at the flag before it finds
  the channel empty. -/
  | stopped : r.chunks = true → r.prod = .done → r.cancelled = true →
      (r.cons.past = false ∨ ∃ rows, r.slot = some (.ok rows)) → Fate all tr r
  /-- The consumer has seen the end, behind all rows. -/
  | ended : r.chunks = false → r.cons = .idle → r.first = none → delivered tr = all.rows →
      all.failure = none → Fate all tr r

/-- What a clean end stands for: behind an error, or behind all rows of a source that does not
fail. -/
def Clean (all : Source) (tr : List Out) : Prop :=
  (∃ e, .error e ∈ tr) ∨ (delivered tr = all.rows ∧ all.failure = none)

/-! ## Program counters -/

theorem past_notify {c : ConsPhase} (h : c.past = false) : c.notify.past = false := by
  cases c with
  | idle => rfl
  | waiting pc =>
    cases pc with
    | op n => cases h
    | _ => rfl

/-- With the flag set, the consumer does not get past it. -/
theorem past_go {pc pc' : Pc} (h : pc.turn true = .go pc')
    (hp : (ConsPhase.waiting pc).past = false) : (ConsPhase.waiting pc').past = false := by
  cases pc with
  | load1 => cases h
  | create =>
    cases h
    rfl
  | load2 n => cases h
  | check n =>
    cases n with
    | true =>
      cases h
      rfl
    | false => cases hp
  | op n => cases h
  | parked n =>
    cases n with
    | true =>
      cases h
      rfl
    | false => cases hp

theorem cancelled_of_turn {pc : Pc} {flag : Bool} (h : pc.turn flag = .cancelled) :
    flag = true := by
  cases flag with
  | true => rfl
  | false =>
    cases pc with
    | check n => cases n <;> cases h
    | _ => cases h

theorem chunk_notify (p : ProdPhase) : p.notify.chunk = p.chunk := by
  cases p <;> rfl

theorem notify_eq_done {p : ProdPhase} : p.notify = .done ↔ p = .done := by
  cases p <;> simp [ProdPhase.notify]

theorem notify_eq_sendingErr {p : ProdPhase} {e : Error} :
    p.notify = .sendingErr e ↔ p = .sendingErr e := by
  cases p <;> simp [ProdPhase.notify]

theorem notify_eq_idle {c : ConsPhase} : c.notify = .idle ↔ c = .idle := by
  cases c <;> simp [ConsPhase.notify]

/-- A decoded chunk is delivered; one that cannot be decoded is an error. -/
theorem emit_cases (build : List Row → Except Error Unit) (rows : List Row) :
    (Reader.emit build rows = .batch rows) ∨ ∃ e, Reader.emit build rows = .error e := by
  unfold Reader.emit
  split
  · exact .inl rfl
  · exact .inr ⟨_, rfl⟩

/-! ## Steps of the consumer -/

section Consumer

variable {build : List Row → Except Error Unit} {all : Source} {tr es : List Out} {r r' : Reader}
  {a : Action}

theorem Fate.of_error {e : Error} (he : .error e ∈ es) : Fate all (tr ++ es) r' :=
  .failed ⟨e, List.mem_append_right _ he⟩

/-- A chunk from the front of the rows to come is delivered, or the consumer gets an error. -/
theorem Live.emit {rows : List Row} (hl : all.rows = delivered tr ++ (rows ++ r'.pend))
    (h : Live all tr r) (hc : r'.chunks = r.chunks) (hs : ∀ e, r'.slot ≠ some (.error e))
    (hp : r'.prod = r.prod) (hsrc : r'.source = r.source) (hcons : r'.cons = .idle)
    (hb : r'.batchSize = r.batchSize) : Fate all (tr ++ [Reader.emit build rows]) r' := by
  rcases emit_cases build rows with he | ⟨e, he⟩
  · refine .live ⟨hc.trans h.held, hs, fun e => hp ▸ h.prod e, ?_, hsrc ▸ h.failure, ?_, ?_, ?_⟩
    · rw [he, delivered_append, hl]
      simp [delivered, Out.rows]
    · rw [hp, hsrc]
      exact h.done
    · intro hne
      exact absurd hcons hne
    · rw [hb]
      exact h.size
  · exact .of_error (by rw [he]; exact List.mem_singleton.mpr rfl)

theorem Live.consumer (h : Live all tr r) (ht : ConsTrans build a r es r') :
    Fate all (tr ++ es) r' := by
  cases ht with
  | store =>
    rw [List.append_nil]
    exact .live ⟨h.held, h.slot, h.prod, h.rows, h.failure, h.done, h.first, h.size⟩
  | wake hw =>
    rw [List.append_nil]
    refine .live ⟨h.held, h.slot, ?_, ?_, h.failure, ?_, ?_, h.size⟩
    · intro e he
      exact h.prod e (notify_eq_sendingErr.mp he)
    · rw [h.rows]
      simp only [Reader.pend, Reader.queue, chunk_notify]
    · intro hd
      exact h.done (notify_eq_done.mp hd)
    · intro hc
      exact h.first fun hi => hc (notify_eq_idle.mpr hi)
  | nextFirst hc hf hne =>
    refine Live.emit ?_ h rfl h.slot rfl rfl hc rfl
    rw [h.rows]
    simp [Reader.pend, Reader.queue, hf]
  | nextWait hc hf hch =>
    rw [List.append_nil]
    refine .live ⟨h.held, h.slot, h.prod, ?_, h.failure, h.done, fun _ => rfl, h.size⟩
    rw [h.rows]
    simp [Reader.pend, Reader.queue, hf]
  | nextEnd hc hf hch =>
    rw [h.held] at hch
    cases hch
  | cancelled hc hturn => exact .of_error (List.mem_singleton.mpr rfl)
  | go hc hturn =>
    rw [List.append_nil]
    refine .live ⟨h.held, h.slot, h.prod, h.rows, h.failure, h.done, ?_, h.size⟩
    intro _
    exact h.first (by rw [hc]; simp)
  | rows hc hs =>
    have hfirst : r.first = none := h.first (by rw [hc]; simp)
    refine Live.emit ?_ h rfl (by simp) rfl rfl rfl rfl
    rw [h.rows]
    simp [Reader.pend, Reader.queue, hfirst, hs, slotChunk]
  | error hc hs => exact absurd hs (h.slot _)
  | fin hc hs hp =>
    have hfirst : r.first = none := h.first (by rw [hc]; simp)
    have hdone := h.done hp
    refine .ended rfl rfl hfirst ?_ hdone.2
    rw [delivered_append, h.rows]
    simp [delivered, Out.rows, Reader.pend, Reader.queue, hfirst, hs, hp, slotChunk, ProdPhase.chunk, hdone.1]
  | park hc hs hp =>
    rw [List.append_nil]
    refine .live ⟨h.held, h.slot, h.prod, h.rows, h.failure, h.done, ?_, h.size⟩
    intro _
    exact h.first (by rw [hc]; simp)

/-- The error that is on its way arrives, whatever the consumer does. -/
theorem Fate.failing_consumer (hch : r.chunks = true)
    (h : (∃ e, r.slot = some (.error e)) ∨ ∃ e, r.prod = .sendingErr e)
    (ht : ConsTrans build a r es r') : Fate all (tr ++ es) r' := by
  cases ht with
  | store => exact .failing hch h
  | wake hw =>
    refine .failing hch ?_
    rcases h with h | ⟨e, h⟩
    · exact .inl h
    · exact .inr ⟨e, notify_eq_sendingErr.mpr h⟩
  | nextFirst hc hf hne => exact .failing hch h
  | nextWait hc hf hch' => exact .failing hch h
  | nextEnd hc hf hch' =>
    rw [hch] at hch'
    cases hch'
  | cancelled hc hturn => exact .of_error (List.mem_singleton.mpr rfl)
  | go hc hturn => exact .failing hch h
  | rows hc hs =>
    refine .failing hch (.inr ?_)
    rcases h with ⟨e, h⟩ | h
    · rw [hs] at h
      cases h
    · exact h
  | error hc hs => exact .of_error (List.mem_singleton.mpr rfl)
  | fin hc hs hp =>
    rcases h with ⟨e, h⟩ | ⟨e, h⟩
    · rw [hs] at h
      cases h
    · rw [hp] at h
      cases h
  | park hc hs hp => exact .failing hch h

/-- The consumer of a stopped stream looks at the flag, or receives the last chunk first. -/
theorem Fate.stopped_consumer (hch : r.chunks = true) (hp : r.prod = .done)
    (hflag : r.cancelled = true) (h : r.cons.past = false ∨ ∃ rows, r.slot = some (.ok rows))
    (ht : ConsTrans build a r es r') : Fate all (tr ++ es) r' := by
  cases ht with
  | store => exact .stopped hch hp rfl h
  | wake hw =>
    refine .stopped hch (notify_eq_done.mpr hp) hflag ?_
    rcases h with h | h
    · exact .inl (past_notify h)
    · exact .inr h
  | nextFirst hc hf hne => exact .stopped hch hp hflag h
  | nextWait hc hf hch' => exact .stopped hch hp hflag (.inl rfl)
  | nextEnd hc hf hch' =>
    rw [hch] at hch'
    cases hch'
  | cancelled hc hturn => exact .of_error (List.mem_singleton.mpr rfl)
  | go hc hturn =>
    refine .stopped hch hp hflag ?_
    rcases h with h | h
    · rw [hc] at h
      rw [hflag] at hturn
      exact .inl (past_go hturn h)
    · exact .inr h
  | rows hc hs => exact .stopped hch hp hflag (.inl rfl)
  | error hc hs => exact .of_error (List.mem_singleton.mpr rfl)
  | fin hc hs hp' =>
    rcases h with h | ⟨rows, h⟩
    · rw [hc] at h
      cases h
    · rw [hs] at h
      cases h
  | park hc hs hp' => exact absurd hp hp'

theorem Fate.ended_consumer (hch : r.chunks = false) (hcons : r.cons = .idle)
    (hfirst : r.first = none) (hall : delivered tr = all.rows) (hf : all.failure = none)
    (ht : ConsTrans build a r es r') : Fate all (tr ++ es) r' := by
  cases ht with
  | store =>
    rw [List.append_nil]
    exact .ended hch hcons hfirst hall hf
  | wake hw =>
    rw [List.append_nil]
    exact .ended hch (notify_eq_idle.mpr hcons) hfirst hall hf
  | nextFirst hc hf' hne =>
    rw [hfirst] at hf'
    cases hf'
  | nextWait hc hf' hch' =>
    rw [hch] at hch'
    cases hch'
  | nextEnd hc hf' hch' =>
    refine .ended hch hcons rfl ?_ hf
    rw [delivered_append, hall]
    simp [delivered, Out.rows]
  | cancelled hc _ | go hc _ | rows hc _ | error hc _ | fin hc _ _ | park hc _ _ =>
    rw [hcons] at hc
    cases hc

theorem Fate.consumer (h : Fate all tr r) (ht : ConsTrans build a r es r') :
    Fate all (tr ++ es) r' := by
  cases h with
  | live h => exact h.consumer ht
  | failed h =>
    obtain ⟨e, he⟩ := h
    exact .failed ⟨e, List.mem_append_left _ he⟩
  | failing hch h => exact failing_consumer hch h ht
  | stopped hch hp hflag h => exact stopped_consumer hch hp hflag h ht
  | ended hch hcons hfirst hall hf => exact ended_consumer hch hcons hfirst hall hf ht

theorem ConsTrans.short (ht : ConsTrans build a r es r') : es.length ≤ 1 := by
  cases ht <;> simp

/-- The consumer sees the end only where it is clean. -/
theorem Fate.clean (h : Fate all tr r) (ht : ConsTrans build a r es r') (hfin : .fin ∈ es) :
    Clean all tr := by
  have hemit : ∀ {rows}, .fin ∉ [Reader.emit build rows] := by
    intro rows hm
    rcases emit_cases build rows with he | ⟨e, he⟩
    · rw [he] at hm
      simp at hm
    · rw [he] at hm
      simp at hm
  cases h with
  | failed h => exact .inl h
  | ended hch hcons hfirst hall hf => exact .inr ⟨hall, hf⟩
  | live h =>
    cases ht with
    | nextEnd hc hf hch =>
      rw [h.held] at hch
      cases hch
    | fin hc hs hp =>
      have hfirst : r.first = none := h.first (by rw [hc]; simp)
      have hdone := h.done hp
      refine .inr ⟨?_, hdone.2⟩
      rw [h.rows]
      simp [Reader.pend, Reader.queue, hfirst, hs, hp, slotChunk, ProdPhase.chunk, hdone.1]
    | nextFirst | rows => exact absurd hfin hemit
    | _ => simp at hfin
  | failing hch h =>
    cases ht with
    | nextEnd hc hf hch' =>
      rw [hch] at hch'
      cases hch'
    | fin hc hs hp =>
      rcases h with ⟨e, h⟩ | ⟨e, h⟩
      · rw [hs] at h
        cases h
      · rw [hp] at h
        cases h
    | nextFirst | rows => exact absurd hfin hemit
    | _ => simp at hfin
  | stopped hch hp hflag h =>
    cases ht with
    | nextEnd hc hf hch' =>
      rw [hch] at hch'
      cases hch'
    | fin hc hs hp' =>
      rcases h with h | ⟨rows, h⟩
      · rw [hc] at h
        cases h
      · rw [hs] at h
        cases h
    | nextFirst | rows => exact absurd hfin hemit
    | _ => simp at hfin

end Consumer

/-! ## Steps of the prefetch task -/

section Producer

variable {all : Source} {tr : List Out} {p : FetchPoll} {r r' : Reader}

/-- Leaving because of a cancel with a chunk in the channel. -/
theorem Live.stopped (h : Live all tr r) (hflag : r.cancelled = true)
    (hs : r.slot = none → r.cons.past = false) : Fate all tr { r with prod := .done } := by
  refine .stopped h.held rfl hflag ?_
  cases hslot : r.slot with
  | none => exact .inl (hs hslot)
  | some item =>
    cases item with
    | ok rows => exact .inr ⟨rows, rfl⟩
    | error e => exact absurd hslot (h.slot e)

theorem Live.producer (h : Live all tr r) (ht : ProdTrans p r r')
    (hseen : r.QuitsSend → r.slot = none → r.cons.past = false) : Fate all tr r' := by
  cases ht with
  | @fetchCancelled _ _ pc hp hturn =>
    have hflag := cancelled_of_turn hturn
    cases hs : r.slot with
    | none =>
      have e : r.trySend (.error cancelledErr) = { r with slot := some (.error cancelledErr) } := by
        simp only [Reader.trySend, h.held, hs]
      rw [e]
      exact .failing h.held (.inl ⟨_, rfl⟩)
    | some item =>
      have e : r.trySend (.error cancelledErr) = r := by
        simp only [Reader.trySend, h.held, hs]
      rw [e]
      exact h.stopped hflag (by rw [hs]; simp)
  | fetchGo hp hturn =>
    refine .live ⟨h.held, h.slot, by simp, ?_, h.failure, by simp, h.first, h.size⟩
    rw [h.rows]
    simp [Reader.pend, Reader.queue, hp, ProdPhase.chunk]
  | fetchPending hp =>
    refine .live ⟨h.held, h.slot, by simp, ?_, h.failure, by simp, h.first, h.size⟩
    rw [h.rows]
    simp [Reader.pend, Reader.queue, hp, ProdPhase.chunk]
  | fetchTimeout hp => exact .failing h.held (.inr ⟨_, rfl⟩)
  | @fetchEnd _ n source hp hq =>
    obtain ⟨hrows, hfail, -, hempty⟩ := pullChunk_ok hq
    obtain ⟨hnil, hnone⟩ := hempty h.size rfl
    rw [List.nil_append] at hrows
    refine .live ⟨h.held, h.slot, by simp, ?_, hfail.trans h.failure, ?_, h.first, h.size⟩
    · rw [h.rows]
      simp [Reader.pend, Reader.queue, hp, ProdPhase.chunk, hrows]
    · intro _
      exact ⟨hrows ▸ hnil, h.failure ▸ hnone⟩
  | @fetchRows _ n rows source hp hq hne =>
    obtain ⟨hrows, hfail, -, -⟩ := pullChunk_ok hq
    refine .live ⟨h.held, h.slot, by simp, ?_, hfail.trans h.failure, by simp, h.first, h.size⟩
    rw [h.rows]
    simp [Reader.pend, Reader.queue, hp, ProdPhase.chunk, hrows]
  | fetchErr hp hq => exact .failing h.held (.inr ⟨_, rfl⟩)
  | sendCancelled hp hturn =>
    exact h.stopped (cancelled_of_turn hturn) (hseen ⟨_, _, hp, hturn⟩)
  | sendGo hp hturn =>
    refine .live ⟨h.held, h.slot, by simp, ?_, h.failure, by simp, h.first, h.size⟩
    rw [h.rows]
    simp [Reader.pend, Reader.queue, hp, ProdPhase.chunk]
  | sendClosed hp hch =>
    rw [h.held] at hch
    cases hch
  | sendRows hp hch hs =>
    refine .live ⟨h.held, by simp, by simp, ?_, h.failure, by simp, h.first, h.size⟩
    rw [h.rows]
    simp [Reader.pend, Reader.queue, hp, hs, ProdPhase.chunk, slotChunk]
  | sendPark hp hch hs =>
    refine .live ⟨h.held, h.slot, by simp, ?_, h.failure, by simp, h.first, h.size⟩
    rw [h.rows]
    simp [Reader.pend, Reader.queue, hp, ProdPhase.chunk]
  | errClosed hp hch => exact absurd hp (h.prod _)
  | errSent hp hch hs => exact absurd hp (h.prod _)
  | errWait hp hch hs => exact absurd hp (h.prod _)

/-- An error in the channel stays there; one that is held goes in, or stays held. -/
theorem Fate.failing_producer (hch : r.chunks = true)
    (h : (∃ e, r.slot = some (.error e)) ∨ ∃ e, r.prod = .sendingErr e)
    (ht : ProdTrans p r r') : Fate all tr r' := by
  rcases h with ⟨e, hs⟩ | ⟨e, hp⟩
  · have hfull : r.slot ≠ none := by simp [hs]
    cases ht with
    | fetchCancelled hp hturn =>
      have hsend : r.trySend (.error cancelledErr) = r := by
        simp only [Reader.trySend, hch, hs]
      rw [hsend]
      exact .failing hch (.inl ⟨e, hs⟩)
    | sendRows _ _ hnone => exact absurd hnone hfull
    | errSent _ _ hnone => exact absurd hnone hfull
    | _ => exact .failing hch (.inl ⟨e, hs⟩)
  · cases ht with
    | errClosed _ hclosed =>
      rw [hch] at hclosed
      cases hclosed
    | errSent hp' hch' hs => exact .failing hch (.inl ⟨_, rfl⟩)
    | errWait hp' hch' hs => exact .failing hch (.inr ⟨e, hp⟩)
    | fetchCancelled hp' | fetchGo hp' | fetchPending hp' | fetchTimeout hp' | fetchEnd hp'
    | fetchRows hp' | fetchErr hp' | sendCancelled hp' | sendGo hp' | sendClosed hp' | sendRows hp'
    | sendPark hp' =>
      rw [hp] at hp'
      cases hp'

/-- The task does not touch what the consumer has. -/
theorem ProdTrans.frame (ht : ProdTrans p r r') :
    r'.chunks = r.chunks ∧ r'.cons = r.cons ∧ r'.first = r.first := by
  cases ht with
  | fetchCancelled hp hturn =>
    unfold Reader.trySend
    split <;> exact ⟨rfl, rfl, rfl⟩
  | _ => exact ⟨rfl, rfl, rfl⟩

theorem Fate.producer (h : Fate all tr r) (ht : ProdTrans p r r')
    (hseen : r.QuitsSend → r.slot = none → r.cons.past = false) : Fate all tr r' := by
  cases h with
  | live h => exact h.producer ht hseen
  | failed h => exact .failed h
  | failing hch h => exact failing_producer hch h ht
  | stopped hch hp hflag h => exact absurd hp ht.prod_ne
  | ended hch hcons hfirst hall hf =>
    obtain ⟨hch', hcons', hfirst'⟩ := ht.frame
    exact .ended (hch'.trans hch) (hcons'.trans hcons) (hfirst'.trans hfirst) hall hf

end Producer

/-! ## Runs -/

/-- A stream that has just been opened has lost nothing. -/
theorem Live.start {schema : Option Row → Except Error Unit} {batchSize : Nat} {src : Source}
    {r : Reader} (hb : 0 < batchSize) (h : streamQuery schema batchSize src = .ok r) :
    Live src [] r := by
  obtain ⟨first, source, hq, rfl⟩ := streamQuery_ok h
  obtain ⟨hrows, hfail, -, -⟩ := pullChunk_ok hq
  exact ⟨rfl, by simp [Reader.start], by simp [Reader.start],
    by simp [Reader.start, Reader.pend, Reader.queue, delivered, slotChunk, ProdPhase.chunk, hrows],
    hfail, by simp [Reader.start], by simp [Reader.start], hb⟩

section Runs

variable {build : List Row → Except Error Unit} {all : Source} {r r' : Reader} {as : List Action}
  {tr : List Out}

/-- One step, behind any run so far. -/
theorem Fate.step {a : Action} {es : List Out} (h : Fate all tr r)
    (hstep : (reader build).step r a = some (r', es)) (hseen : SeenQuit r a) :
    Fate all (tr ++ es) r' ∧ Everywhere (fun l e => e = .fin → Clean all (tr ++ l)) es := by
  rcases trans_step hstep with ht | ⟨p, ha, hes, ht⟩
  · refine ⟨h.consumer ht, ?_⟩
    rintro l e rest hes rfl
    -- A step tells the consumer one thing, so nothing of this step is in front of the end.
    have hlen := ht.short
    rw [hes, List.length_append, List.length_cons] at hlen
    have hl : l = [] := List.eq_nil_of_length_eq_zero (by omega)
    rw [hl, List.append_nil]
    exact h.clean ht (by rw [hes]; simp)
  · subst hes
    rw [List.append_nil]
    exact ⟨h.producer ht (hseen p ha), .nil⟩

theorem Fate.run (h : Fate all [] r) (hseen : (reader build).Meets SeenQuit r as)
    (hr : (reader build).run r as = some (r', tr)) :
    Fate all tr r' ∧ Everywhere (fun l e => e = .fin → Clean all l) tr := by
  refine guarded_induction
    (I := fun tr r => Fate all tr r ∧ Everywhere (fun l e => e = .fin → Clean all l) tr)
    ?_ ⟨h, .nil⟩ hseen hr
  intro tr r a r' es hI hG hstep
  obtain ⟨hfate, hclean⟩ := hI.1.step hstep hG
  exact ⟨hfate, hI.2.append hclean⟩

end Runs

/-- As long as the task does not leave a send behind the back of a consumer that has already looked
at the flag, the consumer sees the end only behind an error or behind all rows. -/
theorem no_silent_truncation {schema : Option Row → Except Error Unit}
    {build : List Row → Except Error Unit} {batchSize : Nat} {src : Source} {r r' : Reader}
    {as : List Action} {tr l rest : List Out} (hb : 0 < batchSize)
    (hopen : streamQuery schema batchSize src = .ok r)
    (hseen : (reader build).Meets SeenQuit r as) (hr : (reader build).run r as = some (r', tr))
    (hfin : tr = l ++ .fin :: rest) :
    (∃ e, .error e ∈ l) ∨ (delivered l = src.rows ∧ src.failure = none) :=
  (Fate.run (.live (Live.start hb hopen)) hseen hr).2 l .fin rest hfin rfl

def threeRows : Source := ⟨[[.bool true], [.bool false], [.null]], none⟩

/-- The flag is set while the task sends the second chunk, and the task leaves the send. The consumer
looks at the flag only then. -/
def seenRun : List Action :=
  [.next] ++ .replicate 5 (.producer .ready) ++
  [.signalStore, .producer .pending, .signalNotify, .next, .consumer, .next]

theorem no_silent_truncation_seen : ∃ r r',
    streamQuery (fun _ => .ok ()) 1 threeRows = .ok r ∧
    (reader fun _ => .ok ()).run r seenRun =
      some (r', [.batch [[.bool true]], .error cancelledErr] ++ .fin :: []) ∧
    ((∃ e, .error e ∈ [Out.batch [[.bool true]], .error cancelledErr]) ∨
      (delivered [.batch [[.bool true]], .error cancelledErr] = threeRows.rows ∧
        threeRows.failure = none)) := by
  obtain ⟨r, hopen⟩ : ∃ r, streamQuery (fun _ => .ok ()) 1 threeRows = .ok r := ⟨_, rfl⟩
  have hseen : (reader fun _ => .ok ()).Meets SeenQuit r seenRun := by
    cases hopen
    decide +kernel
  obtain ⟨r', hr⟩ : ∃ r', (reader fun _ => .ok ()).run r seenRun = some (r',
      [.batch [[.bool true]], .error cancelledErr] ++ .fin :: []) := by
    cases hopen
    exact ⟨_, rfl⟩
  exact ⟨r, r', hopen, hr, no_silent_truncation (by decide) hopen hseen hr rfl⟩

/-- The task waits in a send when the flag is set, and leaves before the waiters are woken. The
consumer has already looked at the flag. -/
def truncatedRun : List Action :=
  [.next] ++ .replicate 5 (.producer .ready) ++ [.next] ++ .replicate 5 .consumer ++
  [.signalStore, .producer .pending] ++ .replicate 3 .consumer

/-- One row of three, and then the end. -/
theorem cancelled_send_truncates : ∃ r r', streamQuery (fun _ => .ok ()) 1 threeRows = .ok r ∧
    (reader fun _ => .ok ()).run r truncatedRun = some (r', [.batch [[.bool true]], .fin]) ∧
    delivered [.batch [[.bool true]]] ≠ threeRows.rows :=
  ⟨_, _, rfl, rfl, by simp [delivered, Out.rows, threeRows]⟩

end Stream
end SpannerAdbc
