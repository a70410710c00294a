import SpannerAdbc.Stream.Chunk
import SpannerAdbc.Lib.Machine

/-!
# SpannerAdbc.Stream.Prefetch

The streamed reader: the background task of `spawn_prefetch`, the consumer in
`SpannerBatchReader::next`, the channel of one slot between them, and `cancel` calls. Each action is
one atomic step of one party.

* `CancelSignal::signal` is two steps: the store to the flag and the wake-up of the waiters that
  exist then.
* A biased `select!` of `cancel.cancelled()` and an operation goes through the program counters
  `Pc`: the first load of the flag, the creation of the `Notified`, the second load, the poll of the
  `Notified`, and then the poll of the operation; parked, it starts again at the poll of the
  `Notified`.
* `build` stands for `build_batch` and `schema` for `build_schema`: they decide which rows can be
  decoded.

`ConsTrans` and `ProdTrans` say what a step can do.
-/

namespace SpannerAdbc
namespace Stream

/-- Where a biased `select!` over `cancelled()` and an operation is. The flag is set when the
`Notified` has received a wake-up. -/
inductive Pc where
  | load1
  | create
  | load2 (notified : Bool)
  | check (notified : Bool)
  | op (notified : Bool)
  | parked (notified : Bool)
  deriving DecidableEq, Repr

def Pc.notify : Pc → Pc
  | .load2 _ => .load2 true
  | .check _ => .check true
  | .op _ => .op true
  | .parked _ => .parked true
  | pc => pc

/-- What the next step of the `select!` is: the cancelled branch, a poll of the operation, or a step
inside `cancelled()`. -/
inductive Turn where
  | cancelled
  | poll (notified : Bool)
  | go (pc : Pc)
  deriving DecidableEq, Repr

def Pc.turn (cancelled : Bool) : Pc → Turn
  | .load1 => if cancelled then .cancelled else .go .create
  | .create => .go (.load2 false)
  | .load2 n => if cancelled then .cancelled else .go (.check n)
  | .check n => if n then .go .load1 else .go (.op n)
  | .op n => .poll n
  | .parked n => .go (.check n)

inductive ConsPhase where
  | idle
  | waiting (pc : Pc)
  deriving DecidableEq, Repr

inductive ProdPhase where
  | fetching (pc : Pc)
  | sending (rows : List Row) (pc : Pc)
  | sendingErr (e : Error)
  | done

structure Reader where
  batchSize : Nat
  source : Source
  first : Option (List Row)
  /-- Whether the consumer still holds the receiver. -/
  chunks : Bool
  slot : Option (Except Error (List Row))
  cancelled : Bool
  /-- How many `signal` calls have stored the flag and not yet woken the waiters. -/
  waking : Nat
  prod : ProdPhase
  cons : ConsPhase

/-- What the consumer gets from `next`. -/
inductive Out where
  | batch (rows : List Row)
  | error (e : Error)
  | fin

/-- What a poll of the fetch finds. -/
inductive FetchPoll where
  | pending
  | ready
  | timedOut (seconds : List Char)

inductive Action where
  | signalStore
  | signalNotify
  | next
  | consumer
  | producer (poll : FetchPoll)

def fetchTimeoutErr (seconds : List Char) : Error :=
  timeoutErr seconds "spanner.rpc.timeout_seconds.fetch".toList

/-- `SpannerBatchReader::new`: the task is spawned and the first chunk is kept for `next`. -/
def Reader.start (batchSize : Nat) (first : List Row) (source : Source) : Reader where
  batchSize := batchSize
  source := source
  first := some first
  chunks := true
  slot := none
  cancelled := false
  waking := 0
  prod := .fetching .load1
  cons := .idle

def streamQuery (schema : Option Row → Except Error Unit) (batchSize : Nat) (src : Source) :
    Except Error Reader := do
  let pulled := pullChunk batchSize src
  let first ← pulled.1
  schema first.head?
  return Reader.start batchSize first pulled.2

/-- An opened stream has pulled its first chunk. -/
theorem streamQuery_ok {schema : Option Row → Except Error Unit} {batchSize : Nat} {src : Source}
    {r : Reader} (h : streamQuery schema batchSize src = .ok r) :
    ∃ first source, pullChunk batchSize src = (.ok first, source) ∧
      r = Reader.start batchSize first source := by
  unfold streamQuery at h
  cases hq : pullChunk batchSize src with
  | mk res source =>
    rw [hq] at h
    cases res with
    | error e => cases h
    | ok first =>
      cases hs : schema first.head? with
      | error e => simp [hs, Bind.bind, Except.bind] at h
      | ok u =>
        simp only [hs, Bind.bind, Except.bind, Pure.pure, Except.pure, Except.ok.injEq] at h
        exact ⟨first, source, rfl, h.symm⟩

def ConsPhase.notify : ConsPhase → ConsPhase
  | .idle => .idle
  | .waiting pc => .waiting pc.notify

def ProdPhase.notify : ProdPhase → ProdPhase
  | .fetching pc => .fetching pc.notify
  | .sending rows pc => .sending rows pc.notify
  | p => p

namespace Reader

variable (build : List Row → Except Error Unit)

def emit (rows : List Row) : Out :=
  match build rows with
  | .ok () => .batch rows
  | .error e => .error e

/-- The call of `next`, up to the wait for a chunk. -/
def next (r : Reader) : Option (Reader × List Out) :=
  match r.cons, r.first with
  | .idle, some (row :: rows) => some ({ r with first := none }, [emit build (row :: rows)])
  | .idle, _ =>
    if r.chunks then some ({ r with first := none, cons := .waiting .load1 }, [])
    else some ({ r with first := none }, [.fin])
  | _, _ => none

/-- `rx.recv()` is polled. -/
def recv (r : Reader) (n : Bool) : Reader × List Out :=
  match r.slot, r.prod with
  | some (.ok rows), _ => ({ r with slot := none, cons := .idle }, [emit build rows])
  | some (.error e), _ => ({ r with slot := none, chunks := false, cons := .idle }, [.error e])
  | none, .done => ({ r with chunks := false, cons := .idle }, [.fin])
  | none, _ => ({ r with cons := .waiting (.parked n) }, [])

/-- A step of the consumer that waits for a chunk. -/
def consumer (r : Reader) : Option (Reader × List Out) :=
  match r.cons with
  | .idle => none
  | .waiting pc =>
    match pc.turn r.cancelled with
    | .cancelled => some ({ r with chunks := false, cons := .idle }, [.error cancelledErr])
    | .go pc => some ({ r with cons := .waiting pc }, [])
    | .poll n => some (recv build r n)

/-- `tx.try_send`: it fails on a full or a closed channel. -/
def trySend (r : Reader) (item : Except Error (List Row)) : Reader :=
  match r.chunks, r.slot with
  | true, none => { r with slot := some item }
  | _, _ => r

/-- `source.next_chunk()` is polled. -/
def fetch (r : Reader) (n : Bool) : FetchPoll → Reader
  | .pending => { r with prod := .fetching (.parked n) }
  | .timedOut seconds => { r with prod := .sendingErr (fetchTimeoutErr seconds) }
  | .ready =>
    match pullChunk r.batchSize r.source with
    | (.ok [], source) => { r with source, prod := .done }
    | (.ok (row :: rows), source) => { r with source, prod := .sending (row :: rows) .load1 }
    | (.error e, source) => { r with source, prod := .sendingErr e }

/-- `tx.send(Ok(rows))` is polled. -/
def send (r : Reader) (rows : List Row) (n : Bool) : Reader :=
  match r.chunks, r.slot with
  | false, _ => { r with prod := .done }
  | true, none => { r with slot := some (.ok rows), prod := .fetching .load1 }
  | true, some _ => { r with prod := .sending rows (.parked n) }

/-- A step of `prefetch_loop`. -/
def producer (r : Reader) (poll : FetchPoll) : Option Reader :=
  match r.prod with
  | .done => none
  | .fetching pc =>
    match pc.turn r.cancelled with
    | .cancelled => some { r.trySend (.error cancelledErr) with prod := .done }
    | .go pc => some { r with prod := .fetching pc }
    | .poll n => some (r.fetch n poll)
  | .sending rows pc =>
    match pc.turn r.cancelled with
    | .cancelled => some { r with prod := .done }
    | .go pc => some { r with prod := .sending rows pc }
    | .poll n => some (r.send rows n)
  | .sendingErr e =>
    match r.chunks, r.slot with
    | false, _ => some { r with prod := .done }
    | true, none => some { r with slot := some (.error e), prod := .done }
    | true, some _ => some r

def step (r : Reader) : Action → Option (Reader × List Out)
  | .signalStore => some ({ r with cancelled := true, waking := r.waking + 1 }, [])
  | .signalNotify =>
    if r.waking = 0 then none
    else some ({ r with
      waking := r.waking - 1, prod := r.prod.notify, cons := r.cons.notify }, [])
  | .next => r.next build
  | .consumer => r.consumer build
  | .producer poll => (r.producer poll).map fun r => (r, [])

end Reader

def reader (build : List Row → Except Error Unit) : Lib.Machine Reader Action Out where
  step := Reader.step build

/-! ## The chunks on their way -/

def firstChunk : Option (List Row) → List (List Row)
  | some (row :: rows) => [row :: rows]
  | _ => []

def slotChunk : Option (Except Error (List Row)) → List (List Row)
  | some (.ok rows) => [rows]
  | _ => []

def ProdPhase.chunk : ProdPhase → List (List Row)
  | .sending rows _ => [rows]
  | _ => []

/-- The chunks that are pulled and not delivered, in order: the first one, the one in the channel
and the one the task holds. -/
def Reader.queue (r : Reader) : List (List Row) :=
  firstChunk r.first ++ (slotChunk r.slot ++ r.prod.chunk)

@[simp] theorem firstChunk_none : firstChunk none = [] := rfl

theorem firstChunk_some {rows : List Row} (h : rows ≠ []) : firstChunk (some rows) = [rows] := by
  cases rows with
  | nil => exact absurd rfl h
  | cons row rows => rfl

theorem firstChunk_nil {first : Option (List Row)} (h : first.getD [] = []) :
    firstChunk first = [] := by
  cases first with
  | none => rfl
  | some rows =>
    cases rows with
    | nil => rfl
    | cons row rows => cases h

@[simp] theorem flatten_firstChunk (first : Option (List Row)) :
    (firstChunk first).flatten = first.getD [] := by
  cases first with
  | none => rfl
  | some rows => cases rows <;> simp [firstChunk]

/-! ## What a step can do -/

theorem Pc.turn_poll {cancelled : Bool} {pc : Pc} {n : Bool} (h : pc.turn cancelled = .poll n) :
    pc = .op n := by
  cases pc with
  | op m =>
    cases h
    rfl
  | load1 =>
    simp only [turn] at h
    split at h <;> cases h
  | load2 m =>
    simp only [turn] at h
    split at h <;> cases h
  | check m =>
    simp only [turn] at h
    split at h <;> cases h
  | create => cases h
  | parked m => cases h

/-- A step of a canceller or of the consumer. -/
inductive ConsTrans (build : List Row → Except Error Unit) :
    Action → Reader → List Out → Reader → Prop where
  | store {r : Reader} :
      ConsTrans build .signalStore r [] { r with cancelled := true, waking := r.waking + 1 }
  | wake {r : Reader} : r.waking ≠ 0 → ConsTrans build .signalNotify r []
      { r with waking := r.waking - 1, prod := r.prod.notify, cons := r.cons.notify }
  | nextFirst {r : Reader} {rows : List Row} : r.cons = .idle → r.first = some rows → rows ≠ [] →
      ConsTrans build .next r [Reader.emit build rows] { r with first := none }
  | nextWait {r : Reader} : r.cons = .idle → r.first.getD [] = [] → r.chunks = true →
      ConsTrans build .next r [] { r with first := none, cons := .waiting .load1 }
  | nextEnd {r : Reader} : r.cons = .idle → r.first.getD [] = [] → r.chunks = false →
      ConsTrans build .next r [.fin] { r with first := none }
  | cancelled {r : Reader} {pc : Pc} : r.cons = .waiting pc → pc.turn r.cancelled = .cancelled →
      ConsTrans build .consumer r [.error cancelledErr] { r with chunks := false, cons := .idle }
  | go {r : Reader} {pc pc' : Pc} : r.cons = .waiting pc → pc.turn r.cancelled = .go pc' →
      ConsTrans build .consumer r [] { r with cons := .waiting pc' }
  | rows {r : Reader} {n : Bool} {rows : List Row} : r.cons = .waiting (.op n) →
      r.slot = some (.ok rows) →
      ConsTrans build .consumer r [Reader.emit build rows] { r with slot := none, cons := .idle }
  | error {r : Reader} {n : Bool} {e : Error} : r.cons = .waiting (.op n) →
      r.slot = some (.error e) →
      ConsTrans build .consumer r [.error e] { r with slot := none, chunks := false, cons := .idle }
  | fin {r : Reader} {n : Bool} : r.cons = .waiting (.op n) → r.slot = none → r.prod = .done →
      ConsTrans build .consumer r [.fin] { r with chunks := false, cons := .idle }
  | park {r : Reader} {n : Bool} : r.cons = .waiting (.op n) → r.slot = none → r.prod ≠ .done →
      ConsTrans build .consumer r [] { r with cons := .waiting (.parked n) }

/-- A step of the prefetch task. -/
inductive ProdTrans : FetchPoll → Reader → Reader → Prop where
  | fetchCancelled {p : FetchPoll} {r : Reader} {pc : Pc} : r.prod = .fetching pc →
      pc.turn r.cancelled = .cancelled →
      ProdTrans p r { r.trySend (.error cancelledErr) with prod := .done }
  | fetchGo {p : FetchPoll} {r : Reader} {pc pc' : Pc} : r.prod = .fetching pc →
      pc.turn r.cancelled = .go pc' → ProdTrans p r { r with prod := .fetching pc' }
  | fetchPending {r : Reader} {n : Bool} : r.prod = .fetching (.op n) →
      ProdTrans .pending r { r with prod := .fetching (.parked n) }
  | fetchTimeout {r : Reader} {n : Bool} {seconds : List Char} : r.prod = .fetching (.op n) →
      ProdTrans (.timedOut seconds) r { r with prod := .sendingErr (fetchTimeoutErr seconds) }
  | fetchEnd {r : Reader} {n : Bool} {source : Source} : r.prod = .fetching (.op n) →
      pullChunk r.batchSize r.source = (.ok [], source) →
      ProdTrans .ready r { r with source, prod := .done }
  | fetchRows {r : Reader} {n : Bool} {rows : List Row} {source : Source} :
      r.prod = .fetching (.op n) → pullChunk r.batchSize r.source = (.ok rows, source) →
      rows ≠ [] → ProdTrans .ready r { r with source, prod := .sending rows .load1 }
  | fetchErr {r : Reader} {n : Bool} {e : Error} {source : Source} : r.prod = .fetching (.op n) →
      pullChunk r.batchSize r.source = (.error e, source) →
      ProdTrans .ready r { r with source, prod := .sendingErr e }
  | sendCancelled {p : FetchPoll} {r : Reader} {rows : List Row} {pc : Pc} :
      r.prod = .sending rows pc → pc.turn r.cancelled = .cancelled →
      ProdTrans p r { r with prod := .done }
  | sendGo {p : FetchPoll} {r : Reader} {rows : List Row} {pc pc' : Pc} :
      r.prod = .sending rows pc → pc.turn r.cancelled = .go pc' →
      ProdTrans p r { r with prod := .sending rows pc' }
  | sendClosed {p : FetchPoll} {r : Reader} {rows : List Row} {n : Bool} :
      r.prod = .sending rows (.op n) → r.chunks = false → ProdTrans p r { r with prod := .done }
  | sendRows {p : FetchPoll} {r : Reader} {rows : List Row} {n : Bool} :
      r.prod = .sending rows (.op n) → r.chunks = true → r.slot = none →
      ProdTrans p r { r with slot := some (.ok rows), prod := .fetching .load1 }
  | sendPark {p : FetchPoll} {r : Reader} {rows : List Row} {n : Bool} :
      r.prod = .sending rows (.op n) → r.chunks = true → r.slot ≠ none →
      ProdTrans p r { r with prod := .sending rows (.parked n) }
  | errClosed {p : FetchPoll} {r : Reader} {e : Error} : r.prod = .sendingErr e →
      r.chunks = false → ProdTrans p r { r with prod := .done }
  | errSent {p : FetchPoll} {r : Reader} {e : Error} : r.prod = .sendingErr e → r.chunks = true →
      r.slot = none → ProdTrans p r { r with slot := some (.error e), prod := .done }
  | errWait {p : FetchPoll} {r : Reader} {e : Error} : r.prod = .sendingErr e → r.chunks = true →
      r.slot ≠ none → ProdTrans p r r

section Inversion

variable {build : List Row → Except Error Unit} {r r' : Reader} {es : List Out} {n : Bool}

theorem trans_next (h : r.next build = some (r', es)) : ConsTrans build .next r es r' := by
  simp only [Reader.next] at h
  split at h
  · rename_i hc hf
    cases h
    exact .nextFirst hc hf (by simp)
  · rename_i hc hf
    have hnil : r.first.getD [] = [] := by
      cases hr : r.first with
      | none => rfl
      | some rows =>
        cases rows with
        | nil => rfl
        | cons row rows => exact absurd hr (hf row rows)
    split at h
    · rename_i hch
      cases h
      exact .nextWait hc hnil hch
    · rename_i hch
      cases h
      exact .nextEnd hc hnil (by simpa using hch)
  · cases h

theorem trans_recv (hc : r.cons = .waiting (.op n)) :
    ConsTrans build .consumer r (r.recv build n).2 (r.recv build n).1 := by
  unfold Reader.recv
  split
  · rename_i hs
    exact .rows hc hs
  · rename_i hs
    exact .error hc hs
  · rename_i hs hp
    exact .fin hc hs hp
  · rename_i hs hp
    exact .park hc hs hp

theorem trans_consumer (h : r.consumer build = some (r', es)) :
    ConsTrans build .consumer r es r' := by
  simp only [Reader.consumer] at h
  split at h
  · cases h
  · rename_i pc hc
    split at h
    · rename_i ht
      cases h
      exact .cancelled hc ht
    · rename_i ht
      cases h
      exact .go hc ht
    · rename_i n ht
      rw [Pc.turn_poll ht] at hc
      have htr := @trans_recv build r n hc
      rw [Option.some.inj h] at htr
      exact htr

theorem trans_fetch (hp : r.prod = .fetching (.op n)) (p : FetchPoll) :
    ProdTrans p r (r.fetch n p) := by
  cases p with
  | pending => exact .fetchPending hp
  | timedOut seconds => exact .fetchTimeout hp
  | ready =>
    simp only [Reader.fetch]
    split
    · rename_i hq
      exact .fetchEnd hp hq
    · rename_i hq
      exact .fetchRows hp hq (by simp)
    · rename_i hq
      exact .fetchErr hp hq

theorem trans_send {rows : List Row} (hp : r.prod = .sending rows (.op n)) (p : FetchPoll) :
    ProdTrans p r (r.send rows n) := by
  unfold Reader.send
  split
  · rename_i hch
    exact .sendClosed hp hch
  · rename_i hch hs
    exact .sendRows hp hch hs
  · rename_i hch hs
    exact .sendPark hp hch (by rw [hs]; simp)

theorem trans_producer {p : FetchPoll} (h : r.producer p = some r') : ProdTrans p r r' := by
  simp only [Reader.producer] at h
  split at h
  · cases h
  · rename_i pc hp
    split at h
    · rename_i ht
      cases h
      exact .fetchCancelled hp ht
    · rename_i ht
      cases h
      exact .fetchGo hp ht
    · rename_i n ht
      cases h
      rw [Pc.turn_poll ht] at hp
      exact trans_fetch hp p
  · rename_i rows pc hp
    split at h
    · rename_i ht
      cases h
      exact .sendCancelled hp ht
    · rename_i ht
      cases h
      exact .sendGo hp ht
    · rename_i n ht
      cases h
      rw [Pc.turn_poll ht] at hp
      exact trans_send hp p
  · rename_i e hp
    split at h
    · rename_i hch
      cases h
      exact .errClosed hp hch
    · rename_i hch hs
      cases h
      exact .errSent hp hch hs
    · rename_i hch hs
      cases h
      exact .errWait hp hch (by rw [hs]; simp)

/-- A step is one of the consumer's side without a fetch, or one of the task without an output. -/
theorem trans_step {a : Action} (h : (reader build).step r a = some (r', es)) :
    ConsTrans build a r es r' ∨ ∃ p, a = .producer p ∧ es = [] ∧ ProdTrans p r r' := by
  have h' : r.step build a = some (r', es) := h
  cases a with
  | signalStore =>
    cases h'
    exact .inl .store
  | signalNotify =>
    simp only [Reader.step] at h'
    split at h'
    · cases h'
    · rename_i hw
      cases h'
      exact .inl (.wake hw)
  | next => exact .inl (trans_next h')
  | consumer => exact .inl (trans_consumer h')
  | producer p =>
    simp only [Reader.step, Option.map_eq_some_iff] at h'
    obtain ⟨r'', hr, he⟩ := h'
    cases he
    exact .inr ⟨p, rfl, rfl, trans_producer hr⟩

theorem ProdTrans.prod_ne {p : FetchPoll} (ht : ProdTrans p r r') : r.prod ≠ .done := by
  cases ht with
  | fetchCancelled hp | fetchGo hp | fetchPending hp | fetchTimeout hp | fetchEnd hp | fetchRows hp
  | fetchErr hp | sendCancelled hp | sendGo hp | sendClosed hp | sendRows hp | sendPark hp
  | errClosed hp | errSent hp | errWait hp =>
    rw [hp]
    simp

theorem step_cancelled {a : Action} (h : (reader build).step r a = some (r', es))
    (ha : a ≠ .signalStore) : r'.cancelled = r.cancelled := by
  rcases trans_step h with ht | ⟨p, -, -, ht⟩
  · cases ht with
    | store => exact absurd rfl ha
    | _ => rfl
  · cases ht with
    | fetchCancelled hp hturn =>
      unfold Reader.trySend
      split <;> rfl
    | _ => rfl

end Inversion

end Stream
end SpannerAdbc
