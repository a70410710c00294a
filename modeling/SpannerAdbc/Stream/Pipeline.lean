import SpannerAdbc.Stream.Delivery

/-!
# SpannerAdbc.Stream.Pipeline

The streamed reader over any `ChunkSource`, while nobody cancels and no fetch runs out of time: the
task of `prefetch_loop`, the channel of one slot and `SpannerBatchReader::next`. A step that would wait
is refused, so every run is made of steps that get somewhere. (`Prefetch` has the steps inside a wait,
for the source of a single result set.)

* `Drains`: the chunks that a source gives when it is asked to its end.
* `Open.run`: every schedule delivers these chunks in their order and then the end, and each step of an
  open stream uses up some of a budget. `Open.exists_step`: as long as it is open, some step is possible.
  So iteration ends under every schedule.
* `coarse_run`: the reader of `Prefetch` does nothing else while it is not disturbed.
-/

namespace SpannerAdbc
namespace Stream

open Lib Machine

/-- Where `prefetch_loop` is. -/
inductive Task where
  | fetching
  | sending (rows : List Row)
  | sendingErr (e : Error)
  | done

def Task.chunk : Task → List (List Row)
  | .sending rows => [rows]
  | _ => []

structure BatchReader (σ : Type) where
  source : σ
  first : Option (List Row)
  /-- Whether the consumer still holds the receiver. -/
  chunks : Bool
  slot : Option (Except Error (List Row))
  task : Task
  /-- Whether the consumer is inside `next`, waiting for a chunk. -/
  waiting : Bool

inductive Move where
  | next
  | recv
  | fetch
  | send
  deriving DecidableEq, Repr

namespace BatchReader

variable {σ : Type} (nextChunk : σ → Except Error (List Row) × σ)
  (build : List Row → Except Error Unit)

/-- `SpannerBatchReader::new`. -/
def start (first : Option (List Row)) (source : σ) : BatchReader σ where
  source := source
  first := first
  chunks := true
  slot := none
  task := .fetching
  waiting := false

/-- The call of `next`, up to the wait for a chunk. -/
def next (r : BatchReader σ) : Option (BatchReader σ × List Out) :=
  match r.waiting, r.first with
  | true, _ => none
  | false, some (row :: rows) =>
    some ({ r with first := none }, [Reader.emit build (row :: rows)])
  | false, _ =>
    if r.chunks then some ({ r with first := none, waiting := true }, [])
    else some ({ r with first := none }, [.fin])

/-- The end of the wait for `rx.recv()`. -/
def recv (r : BatchReader σ) : Option (BatchReader σ × List Out) :=
  match r.waiting, r.slot, r.task with
  | true, some (.ok rows), _ =>
    some ({ r with slot := none, waiting := false }, [Reader.emit build rows])
  | true, some (.error e), _ =>
    some ({ r with slot := none, chunks := false, waiting := false }, [.error e])
  | true, none, .done => some ({ r with chunks := false, waiting := false }, [.fin])
  | _, _, _ => none

/-- `source.next_chunk()`: an empty chunk is the end. -/
def fetch (r : BatchReader σ) : Option (BatchReader σ) :=
  match r.task with
  | .fetching =>
    match nextChunk r.source with
    | (.ok [], source) => some { r with source, task := .done }
    | (.ok (row :: rows), source) => some { r with source, task := .sending (row :: rows) }
    | (.error e, source) => some { r with source, task := .sendingErr e }
  | _ => none

/-- The end of the wait for `tx.send`. -/
def send (r : BatchReader σ) : Option (BatchReader σ) :=
  match r.task, r.chunks, r.slot with
  | .sending _, false, _ => some { r with task := .done }
  | .sending rows, true, none => some { r with slot := some (.ok rows), task := .fetching }
  | .sendingErr _, false, _ => some { r with task := .done }
  | .sendingErr e, true, none => some { r with slot := some (.error e), task := .done }
  | _, _, _ => none

def step (r : BatchReader σ) : Move → Option (BatchReader σ × List Out)
  | .next => r.next build
  | .recv => r.recv build
  | .fetch => (r.fetch nextChunk).map fun r => (r, [])
  | .send => r.send.map fun r => (r, [])

/-- The chunks that are pulled and not delivered, in order. -/
def queue (r : BatchReader σ) : List (List Row) :=
  firstChunk r.first ++ (slotChunk r.slot ++ r.task.chunk)

end BatchReader

def batchReader {σ : Type} (nextChunk : σ → Except Error (List Row) × σ)
    (build : List Row → Except Error Unit) : Lib.Machine (BatchReader σ) Move Out where
  step := BatchReader.step nextChunk build

/-! ## What a source gives -/

/-- Asked to its end, the source `s` gives the chunks, then the end or an error, and is left as `s'`. -/
inductive Drains {σ : Type} (nextChunk : σ → Except Error (List Row) × σ) :
    σ → List (List Row) → Option Error → σ → Prop where
  | fin {s s' : σ} : nextChunk s = (.ok [], s') → Drains nextChunk s [] none s'
  | fail {s s' : σ} {e : Error} : nextChunk s = (.error e, s') → Drains nextChunk s [] (some e) s'
  | chunk {s s₁ s' : σ} {rows : List Row} {rest : List (List Row)} {failure : Option Error} :
      nextChunk s = (.ok rows, s₁) → rows ≠ [] → Drains nextChunk s₁ rest failure s' →
      Drains nextChunk s (rows :: rest) failure s'

namespace Drains

variable {σ : Type} {nextChunk : σ → Except Error (List Row) × σ} {s t s' : σ}
  {chunks : List (List Row)} {failure : Option Error}

/-- Sources with the same answer. -/
theorem of_eq (h : Drains nextChunk t chunks failure s') (heq : nextChunk s = nextChunk t) :
    Drains nextChunk s chunks failure s' := by
  cases h with
  | fin hn => exact .fin (heq.trans hn)
  | fail hn => exact .fail (heq.trans hn)
  | chunk hn hne hd => exact .chunk (heq.trans hn) hne hd

theorem of_error {e : Error} (h : Drains nextChunk s chunks failure s')
    (hn : nextChunk s = (.error e, t)) : chunks = [] ∧ failure = some e ∧ s' = t := by
  cases h with
  | fail hn' =>
    rw [hn] at hn'
    cases hn'
    exact ⟨rfl, rfl, rfl⟩
  | fin hn' | chunk hn' =>
    rw [hn] at hn'
    cases hn'

theorem tail {rows : List Row} (h : Drains nextChunk s chunks failure s')
    (hn : nextChunk s = (.ok rows, t)) (hne : rows ≠ []) :
    ∃ rest, chunks = rows :: rest ∧ Drains nextChunk t rest failure s' := by
  cases h with
  | fin hn' =>
    rw [hn] at hn'
    cases hn'
    exact absurd rfl hne
  | fail hn' =>
    rw [hn] at hn'
    cases hn'
  | chunk hn' _ hd =>
    rw [hn] at hn'
    cases hn'
    exact ⟨_, rfl, hd⟩

theorem invariant {I : σ → Prop} (hnext : ∀ s, I s → I (nextChunk s).2)
    (h : Drains nextChunk s chunks failure s') (hs : I s) : I s' := by
  induction h with
  | fin hn | fail hn =>
    have hI := hnext _ hs
    rw [hn] at hI
    exact hI
  | chunk hn hne hd ih =>
    have hI := hnext _ hs
    rw [hn] at hI
    exact ih hI

end Drains

/-! ## One step -/

def slotError : Option (Except Error (List Row)) → Option Error
  | some (.error e) => some e
  | _ => none

/-- What a stream has left to fetch: the chunks `rest` and then `failure`. `last` is the source when it
is drained. -/
inductive Ahead {σ : Type} (nextChunk : σ → Except Error (List Row) × σ) (last : σ)
    (r : BatchReader σ) : List (List Row) → Option Error → Prop where
  | fetching {rest : List (List Row)} {failure : Option Error} : r.task = .fetching →
      slotError r.slot = none → Drains nextChunk r.source rest failure last →
      Ahead nextChunk last r rest failure
  | sending {rows : List Row} {rest : List (List Row)} {failure : Option Error} :
      r.task = .sending rows → slotError r.slot = none →
      Drains nextChunk r.source rest failure last → Ahead nextChunk last r rest failure
  | failing {e : Error} : r.task = .sendingErr e → slotError r.slot = none → r.source = last →
      Ahead nextChunk last r [] (some e)
  | done {failure : Option Error} : r.task = .done → slotError r.slot = failure → r.source = last →
      Ahead nextChunk last r [] failure

/-- A stream of the chunks `total` that has delivered `got`. -/
structure Open {σ : Type} (nextChunk : σ → Except Error (List Row) × σ) (total : List (List Row))
    (failure : Option Error) (last : σ) (got rest : List (List Row)) (r : BatchReader σ) : Prop where
  held : r.chunks = true
  first : r.waiting = true → r.first = none
  chunks : total = got ++ (r.queue ++ rest)
  ahead : Ahead nextChunk last r rest failure

/-- The consumer has dropped the receiver. -/
structure Shut {σ : Type} (last : σ) (r : BatchReader σ) : Prop where
  dropped : r.chunks = false
  waiting : r.waiting = false
  first : r.first = none
  task : r.task = .done
  source : r.source = last

/-- What `next` returns behind the last batch, when it is called `k` more times. -/
def conclusion (failure : Option Error) (k : Nat) : List Out :=
  match failure with
  | none => .replicate (k + 1) .fin
  | some e => .error e :: .replicate k .fin

def Task.left (n : Nat) : Task → Nat
  | .fetching => 2 * n + 2
  | .sending _ => 2 * n + 3
  | .sendingErr _ => 1
  | .done => 0

/-- How many steps are possible before the stream is shut: two of the task and two of the consumer for
a chunk, and a few for the end. -/
def BatchReader.left {σ : Type} (rest : List (List Row)) (r : BatchReader σ) : Nat :=
  r.task.left rest.length + (2 * (r.queue.length + rest.length) + if r.waiting then 1 else 2)

section Step

variable {σ : Type} {nextChunk : σ → Except Error (List Row) × σ}
  {build : List Row → Except Error Unit} {total got rest : List (List Row)} {failure : Option Error}
  {last : σ} {r r' : BatchReader σ} {es : List Out}

theorem Ahead.congr (h : Ahead nextChunk last r rest failure) (htask : r'.task = r.task)
    (hslot : slotError r'.slot = slotError r.slot) (hsource : r'.source = r.source) :
    Ahead nextChunk last r' rest failure := by
  cases h with
  | fetching ht hs hd => exact .fetching (htask.trans ht) (hslot.trans hs) (hsource ▸ hd)
  | sending ht hs hd => exact .sending (htask.trans ht) (hslot.trans hs) (hsource ▸ hd)
  | failing ht hs hl => exact .failing (htask.trans ht) (hslot.trans hs) (hsource.trans hl)
  | done ht hs hl => exact .done (htask.trans ht) (hslot.trans hs) (hsource.trans hl)

/-- Behind an error in the channel, and behind the end of the task, nothing is left. -/
theorem Ahead.of_done (h : Ahead nextChunk last r rest failure) (ht : r.task = .done) :
    rest = [] ∧ slotError r.slot = failure ∧ r.source = last := by
  cases h with
  | fetching ht' | sending ht' | failing ht' =>
    rw [ht] at ht'
    cases ht'
  | done _ hs hl => exact ⟨rfl, hs, hl⟩

theorem Ahead.of_slotError (h : Ahead nextChunk last r rest failure) {e : Error}
    (hs : slotError r.slot = some e) : r.task = .done := by
  cases h with
  | fetching _ hs' | sending _ hs' | failing _ hs' =>
    rw [hs] at hs'
    cases hs'
  | done ht => exact ht

/-- What a step of an open stream does: it delivers chunks of the queue and uses up some of the budget,
or it delivers the end. -/
inductive Advances (nextChunk : σ → Except Error (List Row) × σ) (build : List Row → Except Error Unit)
    (total : List (List Row)) (failure : Option Error) (last : σ) (got rest : List (List Row))
    (r : BatchReader σ) (es : List Out) (r' : BatchReader σ) : Prop where
  | moves (more rest' : List (List Row)) : es = more.map (Reader.emit build) →
      Open nextChunk total failure last (got ++ more) rest' r' → r'.left rest' < r.left rest →
      Advances nextChunk build total failure last got rest r es r'
  | shuts : Shut last r' → got = total → es = conclusion failure 0 →
      Advances nextChunk build total failure last got rest r es r'

theorem Open.next (h : Open nextChunk total failure last got rest r)
    (hstep : r.next build = some (r', es)) :
    Advances nextChunk build total failure last got rest r es r' := by
  unfold BatchReader.next at hstep
  split at hstep
  · cases hstep
  · rename_i row rows hw hf
    cases hstep
    have hqueue : r.queue = (row :: rows) :: { r with first := none }.queue := by
      simp [BatchReader.queue, hf, firstChunk]
    refine .moves [row :: rows] rest rfl ⟨h.held, fun _ => rfl, ?_, h.ahead.congr rfl rfl rfl⟩ ?_
    · rw [h.chunks, hqueue]
      simp
    · simp only [BatchReader.left, hqueue, List.length_cons]
      omega
  · rename_i hw hf
    rw [if_pos h.held] at hstep
    cases hstep
    have hnil : firstChunk r.first = [] := by
      cases hr : r.first with
      | none => rfl
      | some rows =>
        cases rows with
        | nil => rfl
        | cons row rows => exact absurd hr (hf row rows)
    have hqueue : { r with first := none, waiting := true }.queue = r.queue := by
      simp [BatchReader.queue, hnil]
    refine .moves [] rest rfl ⟨h.held, fun _ => rfl, ?_, h.ahead.congr rfl rfl rfl⟩ ?_
    · rw [hqueue, List.append_nil]
      exact h.chunks
    · simp [BatchReader.left, hqueue, hw]

theorem Open.recv (h : Open nextChunk total failure last got rest r)
    (hstep : r.recv build = some (r', es)) :
    Advances nextChunk build total failure last got rest r es r' := by
  unfold BatchReader.recv at hstep
  split at hstep
  · rename_i rows hw hs
    cases hstep
    have hqueue : r.queue = rows :: { r with slot := none, waiting := false }.queue := by
      simp [BatchReader.queue, h.first hw, hs, slotChunk]
    have hslot : slotError none = slotError r.slot := by
      rw [hs]
      rfl
    refine .moves [rows] rest rfl
      ⟨h.held, Bool.noConfusion, ?_, h.ahead.congr rfl hslot rfl⟩ ?_
    · rw [h.chunks, hqueue]
      simp
    · simp only [BatchReader.left, hqueue, hw, List.length_cons, if_true, Bool.false_eq_true, if_false]
      omega
  · rename_i e hw hs
    cases hstep
    have herror : slotError r.slot = some e := by
      rw [hs]
      rfl
    have htask := h.ahead.of_slotError herror
    obtain ⟨rfl, rfl, hl⟩ := h.ahead.of_done htask
    have hqueue : r.queue = [] := by
      simp [BatchReader.queue, h.first hw, hs, htask, slotChunk, Task.chunk]
    refine .shuts ⟨rfl, rfl, h.first hw, htask, hl⟩ ?_ ?_
    · rw [h.chunks, hqueue, List.append_nil, List.append_nil]
    · rw [herror]
      rfl
  · rename_i hw hs htask
    cases hstep
    obtain ⟨rfl, rfl, hl⟩ := h.ahead.of_done htask
    have hqueue : r.queue = [] := by
      simp [BatchReader.queue, h.first hw, hs, htask, slotChunk, Task.chunk]
    refine .shuts ⟨rfl, rfl, h.first hw, htask, hl⟩ ?_ ?_
    · rw [h.chunks, hqueue, List.append_nil, List.append_nil]
    · rw [hs]
      rfl
  · cases hstep

theorem Open.fetch (h : Open nextChunk total failure last got rest r)
    (hstep : r.fetch nextChunk = some r') :
    Advances nextChunk build total failure last got rest r [] r' := by
  unfold BatchReader.fetch at hstep
  split at hstep
  case h_2 => cases hstep
  case h_1 htask =>
    have hchunks : total = got ++ [] ++ (r.queue ++ rest) := by
      rw [List.append_nil]
      exact h.chunks
    obtain ⟨hslot, hd⟩ : slotError r.slot = none ∧ Drains nextChunk r.source rest failure last := by
      cases h.ahead with
      | fetching _ hs hd => exact ⟨hs, hd⟩
      | sending ht | failing ht | done ht =>
        rw [htask] at ht
        cases ht
    cases hd with
    | fin hn =>
      rw [hn] at hstep
      cases hstep
      have hqueue : { r with source := last, task := .done }.queue = r.queue := by
        simp [BatchReader.queue, htask, Task.chunk]
      refine .moves [] [] rfl ⟨h.held, h.first, hqueue.symm ▸ hchunks, .done rfl hslot rfl⟩ ?_
      simp [BatchReader.left, hqueue, htask, Task.left]
    | @fail _ _ e hn =>
      rw [hn] at hstep
      cases hstep
      have hqueue : { r with source := last, task := .sendingErr e }.queue = r.queue := by
        simp [BatchReader.queue, htask, Task.chunk]
      refine .moves [] [] rfl ⟨h.held, h.first, hqueue.symm ▸ hchunks, .failing rfl hslot rfl⟩ ?_
      simp [BatchReader.left, hqueue, htask, Task.left]
    | @chunk _ s₁ _ rows rest' _ hn hne hd =>
      cases rows with
      | nil => exact absurd rfl hne
      | cons row rows =>
        rw [hn] at hstep
        cases hstep
        have hqueue : { r with source := s₁, task := .sending (row :: rows) }.queue =
            r.queue ++ [row :: rows] := by
          simp [BatchReader.queue, htask, Task.chunk]
        refine .moves [] rest' rfl ⟨h.held, h.first, ?_, .sending rfl hslot hd⟩ ?_
        · rw [hqueue, List.append_assoc r.queue]
          exact hchunks
        · simp only [BatchReader.left, hqueue, htask, Task.left, List.length_append, List.length_cons,
            List.length_nil]
          omega

theorem Open.send (h : Open nextChunk total failure last got rest r) (hstep : r.send = some r') :
    Advances nextChunk build total failure last got rest r [] r' := by
  have hchunks : total = got ++ [] ++ (r.queue ++ rest) := by
    rw [List.append_nil]
    exact h.chunks
  unfold BatchReader.send at hstep
  split at hstep
  case h_1 _ hch | h_3 _ hch =>
    rw [h.held] at hch
    cases hch
  case h_5 => cases hstep
  case h_2 rows htask _ hs =>
    cases hstep
    have hqueue : { r with slot := some (.ok rows), task := .fetching }.queue = r.queue := by
      simp [BatchReader.queue, htask, hs, Task.chunk, slotChunk]
    have hd : Drains nextChunk r.source rest failure last := by
      cases h.ahead with
      | sending _ _ hd => exact hd
      | fetching ht | failing ht | done ht =>
        rw [htask] at ht
        cases ht
    refine .moves [] rest rfl ⟨h.held, h.first, hqueue.symm ▸ hchunks, .fetching rfl rfl hd⟩ ?_
    simp [BatchReader.left, hqueue, htask, Task.left]
  case h_4 e htask _ hs =>
    cases hstep
    have hqueue : { r with slot := some (.error e), task := .done }.queue = r.queue := by
      simp [BatchReader.queue, htask, hs, Task.chunk, slotChunk]
    cases h.ahead with
    | fetching ht | sending ht | done ht =>
      rw [htask] at ht
      cases ht
    | failing ht _ hl =>
      rw [htask] at ht
      cases ht
      refine .moves [] [] rfl ⟨h.held, h.first, hqueue.symm ▸ hchunks, .done rfl rfl hl⟩ ?_
      simp [BatchReader.left, hqueue, htask, Task.left]

theorem Open.step {move : Move} (h : Open nextChunk total failure last got rest r)
    (hstep : (batchReader nextChunk build).step r move = some (r', es)) :
    Advances nextChunk build total failure last got rest r es r' := by
  have hstep' : r.step nextChunk build move = some (r', es) := hstep
  cases move with
  | next => exact h.next hstep'
  | recv => exact h.recv hstep'
  | fetch =>
    obtain ⟨_, hf, he⟩ := Option.map_eq_some_iff.mp hstep'
    cases he
    exact h.fetch hf
  | send =>
    obtain ⟨_, hf, he⟩ := Option.map_eq_some_iff.mp hstep'
    cases he
    exact h.send hf

/-- Only `next` is left, and it returns nothing. -/
theorem Shut.step {move : Move} (h : Shut last r)
    (hstep : (batchReader nextChunk build).step r move = some (r', es)) :
    Shut last r' ∧ es = [.fin] := by
  have hstep' : r.step nextChunk build move = some (r', es) := hstep
  cases move with
  | next =>
    simp only [BatchReader.step, BatchReader.next, h.waiting, h.first, h.dropped, Bool.false_eq_true,
      if_false, Option.some.injEq, Prod.mk.injEq] at hstep'
    obtain ⟨rfl, rfl⟩ := hstep'
    exact ⟨⟨rfl, rfl, rfl, h.task, h.source⟩, rfl⟩
  | recv => simp [BatchReader.step, BatchReader.recv, h.waiting] at hstep'
  | fetch => simp [BatchReader.step, BatchReader.fetch, h.task] at hstep'
  | send => simp [BatchReader.step, BatchReader.send, h.task] at hstep'

/-! ## Whole runs -/

theorem Shut.run {moves : List Move} (h : Shut last r)
    (hrun : (batchReader nextChunk build).run r moves = some (r', es)) :
    Shut last r' ∧ es = .replicate moves.length .fin := by
  induction moves generalizing r es with
  | nil =>
    cases hrun
    exact ⟨h, rfl⟩
  | cons move moves ih =>
    obtain ⟨r₁, es₁, es₂, hstep, hrun', rfl⟩ := run_cons.mp hrun
    obtain ⟨h₁, rfl⟩ := h.step hstep
    obtain ⟨h', rfl⟩ := ih h₁ hrun'
    exact ⟨h', rfl⟩

theorem conclusion_append (failure : Option Error) (k : Nat) :
    conclusion failure 0 ++ .replicate k .fin = conclusion failure k := by
  cases failure with
  | none => rfl
  | some e => rfl

/-- Every schedule delivers the chunks of the source in their order. While the stream is open, each
step has used up some of the budget. -/
theorem Open.run {moves : List Move} (h : Open nextChunk total failure last got rest r)
    (hrun : (batchReader nextChunk build).run r moves = some (r', es)) :
    (∃ more rest', es = more.map (Reader.emit build) ∧
      Open nextChunk total failure last (got ++ more) rest' r' ∧
      moves.length + r'.left rest' ≤ r.left rest) ∨
    (Shut last r' ∧ ∃ more k, got ++ more = total ∧
      es = more.map (Reader.emit build) ++ conclusion failure k) := by
  induction moves generalizing r got rest es with
  | nil =>
    cases hrun
    refine .inl ⟨[], rest, rfl, ?_, by simp⟩
    rw [List.append_nil]
    exact h
  | cons move moves ih =>
    obtain ⟨r₁, es₁, es₂, hstep, hrun', rfl⟩ := run_cons.mp hrun
    cases h.step hstep with
    | moves more rest₁ he h₁ hlt =>
      subst he
      rcases ih h₁ hrun' with ⟨more', rest', rfl, h', hle⟩ | ⟨h', more', k, htotal, rfl⟩
      · refine .inl ⟨more ++ more', rest', (List.map_append ..).symm, ?_, ?_⟩
        · rw [← List.append_assoc]
          exact h'
        · rw [List.length_cons]
          omega
      · refine .inr ⟨h', more ++ more', k, ?_, ?_⟩
        · rw [← List.append_assoc]
          exact htotal
        · rw [List.map_append, List.append_assoc]
    | shuts h₁ hgot he =>
      obtain ⟨h', rfl⟩ := h₁.run hrun'
      refine .inr ⟨h', [], moves.length, ?_, ?_⟩
      · rw [List.append_nil]
        exact hgot
      · rw [he, conclusion_append]
        rfl

/-- An open stream is never stuck. -/
theorem Open.exists_step (h : Open nextChunk total failure last got rest r)
    (build : List Row → Except Error Unit) :
    ∃ move r' es, (batchReader nextChunk build).step r move = some (r', es) := by
  obtain ⟨source, first, chunks, slot, task, waiting⟩ := r
  obtain rfl : chunks = true := h.held
  cases waiting with
  | false =>
    refine ⟨.next, ?_⟩
    rcases first with _ | _ | ⟨row, rows⟩ <;> exact ⟨_, _, rfl⟩
  | true =>
    cases slot with
    | some item => cases item <;> exact ⟨.recv, _, _, rfl⟩
    | none =>
      cases task with
      | done => exact ⟨.recv, _, _, rfl⟩
      | sending rows => exact ⟨.send, _, _, rfl⟩
      | sendingErr e => exact ⟨.send, _, _, rfl⟩
      | fetching =>
        refine ⟨.fetch, ?_⟩
        rcases hn : nextChunk source with ⟨e | _ | ⟨row, rows⟩, source'⟩ <;>
          simp [batchReader, BatchReader.step, BatchReader.fetch, hn]

end Step

/-! ## The steps inside a wait -/

def ProdPhase.task : ProdPhase → Task
  | .fetching _ => .fetching
  | .sending rows _ => .sending rows
  | .sendingErr e => .sendingErr e
  | .done => .done

def ConsPhase.isWaiting : ConsPhase → Bool
  | .idle => false
  | .waiting _ => true

/-- The reader without the places inside its waits. -/
def Reader.coarse (r : Reader) : BatchReader Source where
  source := r.source
  first := r.first
  chunks := r.chunks
  slot := r.slot
  task := r.prod.task
  waiting := r.cons.isWaiting

section Coarse

variable {build : List Row → Except Error Unit} {max : Nat} {r r' : Reader} {es : List Out}
  {a : Action} {p : FetchPoll}

theorem BatchReader.next_of_empty {σ : Type} {r : BatchReader σ}
    (build : List Row → Except Error Unit) (hw : r.waiting = false) (hf : r.first.getD [] = []) :
    r.next build = if r.chunks then some ({ r with first := none, waiting := true }, [])
      else some ({ r with first := none }, [.fin]) := by
  rw [BatchReader.next, hw]
  rcases hr : r.first with _ | _ | ⟨row, rows⟩
  · rfl
  · rfl
  · rw [hr] at hf
    cases hf

/-- A step of the reader is one of the pipeline, or stays inside a wait. -/
def Matched (build : List Row → Except Error Unit) (max : Nat) (r : Reader) (es : List Out)
    (r' : Reader) : Prop :=
  (r'.coarse = r.coarse ∧ es = []) ∨
    ∃ move, (batchReader (pullChunk max) build).step r.coarse move = some (r'.coarse, es)

theorem ConsTrans.matched (hq : Quiet max r) (ha : a ≠ .signalStore)
    (ht : ConsTrans build a r es r') : Matched build max r es r' := by
  cases ht with
  | store => exact absurd rfl ha
  | wake hw => exact absurd hq.waking hw
  | cancelled hc hturn => exact absurd hturn (hq.turn _)
  | @nextFirst _ rows hc hf hne =>
    refine .inr ⟨.next, ?_⟩
    cases rows with
    | nil => exact absurd rfl hne
    | cons row rows =>
      simp [batchReader, BatchReader.step, BatchReader.next, Reader.coarse, ConsPhase.isWaiting, hc, hf]
  | nextWait hc hf hch | nextEnd hc hf hch =>
    have hnext := BatchReader.next_of_empty build (r := r.coarse) (by rw [Reader.coarse, hc]; rfl) hf
    refine .inr ⟨.next, hnext.trans ?_⟩
    simp [Reader.coarse, ConsPhase.isWaiting, hc, hch]
  | go hc hturn => exact .inl ⟨by simp [Reader.coarse, ConsPhase.isWaiting, hc], rfl⟩
  | rows hc hs =>
    exact .inr ⟨.recv, by
      simp [batchReader, BatchReader.step, BatchReader.recv, Reader.coarse, ConsPhase.isWaiting, hc, hs]⟩
  | error hc hs =>
    exact .inr ⟨.recv, by
      simp [batchReader, BatchReader.step, BatchReader.recv, Reader.coarse, ConsPhase.isWaiting, hc, hs]⟩
  | fin hc hs hp =>
    exact .inr ⟨.recv, by
      simp [batchReader, BatchReader.step, BatchReader.recv, Reader.coarse, ConsPhase.isWaiting,
        ProdPhase.task, hc, hs, hp]⟩
  | park hc hs hp => exact .inl ⟨by simp [Reader.coarse, ConsPhase.isWaiting, hc], rfl⟩

theorem ProdTrans.matched (hq : Quiet max r) (hlate : ∀ seconds, p ≠ .timedOut seconds)
    (ht : ProdTrans p r r') : Matched build max r [] r' := by
  cases ht with
  | fetchCancelled hp hturn | sendCancelled hp hturn => exact absurd hturn (hq.turn _)
  | @fetchTimeout _ _ seconds => exact absurd rfl (hlate seconds)
  | fetchGo hp | fetchPending hp | sendGo hp | sendPark hp =>
    exact .inl ⟨by simp [Reader.coarse, ProdPhase.task, hp], rfl⟩
  | errWait => exact .inl ⟨rfl, rfl⟩
  | fetchEnd hp hpull | fetchErr hp hpull =>
    rw [hq.size] at hpull
    exact .inr ⟨.fetch, by
      simp [batchReader, BatchReader.step, BatchReader.fetch, Reader.coarse, ProdPhase.task, hp, hpull]⟩
  | @fetchRows _ _ rows _ hp hpull hne =>
    rw [hq.size] at hpull
    cases rows with
    | nil => exact absurd rfl hne
    | cons row rows =>
      exact .inr ⟨.fetch, by
        simp [batchReader, BatchReader.step, BatchReader.fetch, Reader.coarse, ProdPhase.task, hp, hpull]⟩
  | sendClosed hp hch | errClosed hp hch =>
    exact .inr ⟨.send, by
      simp [batchReader, BatchReader.step, BatchReader.send, Reader.coarse, ProdPhase.task, hp, hch]⟩
  | sendRows hp hch hs | errSent hp hch hs =>
    exact .inr ⟨.send, by
      simp [batchReader, BatchReader.step, BatchReader.send, Reader.coarse, ProdPhase.task, hp, hch, hs]⟩

/-- Neither a cancel nor a fetch that runs out of time. -/
def Action.Undisturbed (a : Action) : Prop :=
  a ≠ .signalStore ∧ ∀ seconds, a ≠ .producer (.timedOut seconds)

/-- Undisturbed, every run of the reader of a result set is one of the pipeline, with the same
deliveries. -/
theorem coarse_run {actions : List Action} (hq : Quiet max r)
    (hactions : ∀ a ∈ actions, a.Undisturbed)
    (hrun : (reader build).run r actions = some (r', es)) :
    ∃ moves, (batchReader (pullChunk max) build).run r.coarse moves = some (r'.coarse, es) := by
  induction actions generalizing r es with
  | nil =>
    cases hrun
    exact ⟨[], rfl⟩
  | cons a actions ih =>
    obtain ⟨r₁, es₁, es₂, hstep, hrun', rfl⟩ := run_cons.mp hrun
    obtain ⟨hstore, hlate⟩ := hactions a List.mem_cons_self
    obtain ⟨hmatched, hq₁⟩ : Matched build max r es₁ r₁ ∧ Quiet max r₁ := by
      rcases trans_step hstep with ht | ⟨p, rfl, rfl, ht⟩
      · exact ⟨ht.matched hq hstore, hq.consumer hstore ht⟩
      · exact ⟨ht.matched hq fun seconds hp => hlate seconds (by rw [hp]), hq.producer ht⟩
    obtain ⟨moves, hmoves⟩ := ih hq₁ (fun b hb => hactions b (List.mem_cons_of_mem a hb)) hrun'
    rcases hmatched with ⟨hsame, rfl⟩ | ⟨move, hmove⟩
    · rw [hsame] at hmoves
      exact ⟨moves, hmoves⟩
    · exact ⟨move :: moves, run_cons.mpr ⟨_, _, _, hmove, hmoves, rfl⟩⟩

/-- An opened result set read to any point, in any interleaving of the prefetch task and the consumer
that nobody cancels and no timeout ends: the pipeline, which knows nothing of wake-ups and polls,
delivers the same batches in the same order and ends in the same place. -/
theorem reader_simulated_by_pipeline {schema : Option Row → Except Error Unit} {src : Source}
    {actions : List Action} (hopen : streamQuery schema max src = .ok r)
    (hactions : ∀ a ∈ actions, a.Undisturbed)
    (hrun : (reader build).run r actions = some (r', es)) :
    ∃ moves, (batchReader (pullChunk max) build).run r.coarse moves = some (r'.coarse, es) := by
  have hstart : Delivers max src (fun _ => False) [] r ∧ Quiet max r := Delivers.start hopen
  exact coarse_run hstart.2 hactions hrun

/-- The task puts a chunk into the channel before the consumer asks for it. -/
def oneAhead : List Action :=
  .next :: List.replicate 10 (.producer .ready) ++ .next :: List.replicate 5 .consumer

theorem reader_simulated_by_pipeline_oneAhead : ∃ r r' es,
    streamQuery (fun _ => .ok ()) 1 failsLater = .ok r ∧
    (reader fun _ => .ok ()).run r oneAhead = some (r', es) ∧ es.length = 2 ∧
    ∃ moves, (batchReader (pullChunk 1) fun _ => .ok ()).run r.coarse moves =
      some (r'.coarse, es) := by
  obtain ⟨r, hopen, r', es, hrun, hes⟩ : ∃ r, streamQuery (fun _ => .ok ()) 1 failsLater = .ok r ∧
      ∃ r' es, (reader fun _ => .ok ()).run r oneAhead = some (r', es) ∧ es.length = 2 :=
    ⟨_, rfl, _, _, rfl, rfl⟩
  have hactions : ∀ a ∈ oneAhead, a.Undisturbed := by
    simp [oneAhead, Action.Undisturbed]
  exact ⟨r, r', es, hopen, hrun, hes, reader_simulated_by_pipeline hopen hactions hrun⟩

end Coarse

end Stream
end SpannerAdbc
