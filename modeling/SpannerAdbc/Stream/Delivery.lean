import SpannerAdbc.Stream.Prefetch

/-!
# SpannerAdbc.Stream.Delivery

What the consumer receives when nobody cancels.

The chunks that have been pulled are the delivered ones followed by the queue, and only a pull makes
this list longer: `Running`. From the moment a fetch fails the list stays as it is and the error
follows its last chunk: `Failing`. Once the consumer has dropped the receiver nothing changes any
more: `Closed`. `Stage.step` shows that a stream is always in one of the three, and `exists_lower`
that some step brings it closer to the end.
-/

namespace SpannerAdbc
namespace Stream

open Lib Machine

/-- What stands behind the batches `bs` of a stream of the rows of `all`. `late` are the errors of
the fetches that ran out of time. -/
inductive Ending (all : Source) (late : Error → Prop) (bs : List (List Row)) : List Out → Prop where
  | streaming : Ending all late bs []
  | ended (k : Nat) : bs.flatten = all.rows → all.failure = none →
      Ending all late bs (.replicate (k + 1) .fin)
  | failed (e : Error) (k : Nat) : (all.failure = some e ∨ late e) →
      Ending all late bs (.error e :: .replicate k .fin)

/-- Chunks as `pull_chunk` cuts them. -/
def Cut (max : Nat) (bs : List (List Row)) : Prop := ∀ b ∈ bs, b ≠ [] ∧ Chunk max b

structure Quiet (max : Nat) (r : Reader) : Prop where
  size : r.batchSize = max
  flag : r.cancelled = false
  waking : r.waking = 0
  first : r.cons ≠ .idle → r.first = none

/-- `chunks` are all chunks pulled so far, and the rest of the rows is in the source. -/
structure Running (all : Source) (chunks : List (List Row)) (r : Reader) : Prop where
  held : r.chunks = true
  slot : ∀ e, r.slot ≠ some (.error e)
  prod : ∀ e, r.prod ≠ .sendingErr e
  rows : all.rows = chunks.flatten ++ r.source.rows
  failure : r.source.failure = all.failure
  done : r.prod = .done → r.source.rows = [] ∧ all.failure = none

/-- The error `e` is in the channel, or waits for room in it. -/
structure Failing (all : Source) (chunks : List (List Row)) (e : Error) (r : Reader) : Prop where
  held : r.chunks = true
  rows : chunks.flatten <+: all.rows
  item : (r.slot = some (.error e) ∧ r.prod = .done) ∨
    (r.prod = .sendingErr e ∧ ∀ e', r.slot ≠ some (.error e'))

structure Closed (all : Source) (bs : List (List Row)) (r : Reader) : Prop where
  dropped : r.chunks = false
  prod : r.prod = .done
  cons : r.cons = .idle
  first : r.first = none
  rows : bs.flatten <+: all.rows

inductive Stage (all : Source) (late : Error → Prop) (bs : List (List Row)) :
    List Out → Reader → Prop where
  | running {r : Reader} : Running all (bs ++ r.queue) r → Stage all late bs [] r
  | failing {r : Reader} (e : Error) : (all.failure = some e ∨ late e) →
      Failing all (bs ++ r.queue) e r → Stage all late bs [] r
  | closed {r : Reader} {tail : List Out} : Closed all bs r → Ending all late bs tail →
      tail ≠ [] → Stage all late bs tail r

/-- The batches received so far and what stands behind them. -/
def Delivers (max : Nat) (all : Source) (late : Error → Prop) (tr : List Out) (r : Reader) : Prop :=
  ∃ bs tail, tr = bs.map .batch ++ tail ∧ Cut max (bs ++ r.queue) ∧ Stage all late bs tail r

/-! ## One step -/

section Step

variable {build : List Row → Except Error Unit} {max : Nat} {all : Source} {late : Error → Prop}
  {bs : List (List Row)} {tail es : List Out} {r r' : Reader} {a : Action} {p : FetchPoll}
  {rows : List Row}

theorem Quiet.consumer (h : Quiet max r) (ha : a ≠ .signalStore)
    (ht : ConsTrans build a r es r') : Quiet max r' := by
  cases ht with
  | store => exact absurd rfl ha
  | wake hw => exact absurd h.waking hw
  | nextWait hc hf hch => exact ⟨h.size, h.flag, h.waking, fun _ => rfl⟩
  | go hc hturn => exact ⟨h.size, h.flag, h.waking, fun _ => h.first (by rw [hc]; simp)⟩
  | park hc hs hp => exact ⟨h.size, h.flag, h.waking, fun _ => h.first (by rw [hc]; simp)⟩
  | nextFirst hc | nextEnd hc => exact ⟨h.size, h.flag, h.waking, fun hne => absurd hc hne⟩
  | cancelled | rows | error | fin => exact ⟨h.size, h.flag, h.waking, fun hne => absurd rfl hne⟩

theorem Quiet.turn (h : Quiet max r) (pc : Pc) : pc.turn r.cancelled ≠ .cancelled := by
  rw [h.flag]
  cases pc with
  | check n => cases n <;> simp [Pc.turn]
  | _ => simp [Pc.turn]

theorem Quiet.producer (h : Quiet max r) (ht : ProdTrans p r r') : Quiet max r' := by
  cases ht with
  | fetchCancelled hp hturn => exact absurd hturn (h.turn _)
  | _ => exact ⟨h.size, h.flag, h.waking, h.first⟩

/-- Nothing is delivered and no chunk moves. -/
theorem Delivers.same {tr : List Out} (ht : tr = bs.map .batch ++ tail)
    (hcut : Cut max (bs ++ r.queue)) (hq : r'.queue = r.queue) (hs : Stage all late bs tail r') :
    Delivers max all late tr r' :=
  ⟨bs, tail, ht, hq ▸ hcut, hs⟩

/-- The first chunk of the queue is delivered. -/
theorem Delivers.shift (hbuild : ∀ b, b <:+: all.rows → build b = .ok ())
    (hpre : (bs ++ r.queue).flatten <+: all.rows) (hcut : Cut max (bs ++ r.queue))
    (hq : r.queue = rows :: r'.queue) (hs : Stage all late (bs ++ [rows]) [] r') :
    Delivers max all late (bs.map .batch ++ [Reader.emit build rows]) r' := by
  have hmem : rows ∈ bs ++ r.queue := by simp [hq]
  have hok := hbuild rows ((List.infix_of_mem_flatten hmem).trans hpre.isInfix)
  refine ⟨bs ++ [rows], [], ?_, ?_, hs⟩
  · simp [Reader.emit, hok]
  · rw [List.append_assoc, List.singleton_append, ← hq]
    exact hcut

theorem queue_nextFirst (hf : r.first = some rows) (hne : rows ≠ []) :
    r.queue = rows :: { r with first := none }.queue := by
  simp [Reader.queue, hf, firstChunk_some hne]

theorem queue_nextWait {c : ConsPhase} (hf : r.first.getD [] = []) :
    { r with first := none, cons := c }.queue = r.queue := by
  simp [Reader.queue, firstChunk_nil hf]

theorem queue_rows (hf : r.first = none) (hs : r.slot = some (.ok rows)) :
    r.queue = rows :: { r with slot := none, cons := .idle }.queue := by
  simp [Reader.queue, hf, hs, slotChunk]

theorem Running.flatten_le {chunks : List (List Row)} (h : Running all chunks r) :
    chunks.flatten <+: all.rows := by
  rw [h.rows]
  exact List.prefix_append _ _

theorem Running.consumer (h : Running all (bs ++ r.queue) r) (hq : Quiet max r)
    (hcut : Cut max (bs ++ r.queue)) (hbuild : ∀ b, b <:+: all.rows → build b = .ok ())
    (ha : a ≠ .signalStore) (ht : ConsTrans build a r es r') :
    Delivers max all late (bs.map .batch ++ es) r' := by
  cases ht with
  | store => exact absurd rfl ha
  | wake hw => exact absurd hq.waking hw
  | nextFirst hc hf hne =>
    have hqueue := queue_nextFirst hf hne
    refine .shift hbuild h.flatten_le hcut hqueue (.running ⟨h.held, h.slot, h.prod, ?_, h.failure, h.done⟩)
    rw [List.append_assoc, List.singleton_append, ← hqueue]
    exact h.rows
  | nextWait hc hf hch =>
    have hqueue := queue_nextWait (c := .waiting .load1) hf
    refine .same rfl hcut hqueue (.running ⟨h.held, h.slot, h.prod, ?_, h.failure, h.done⟩)
    rw [hqueue]
    exact h.rows
  | nextEnd hc hf hch =>
    rw [h.held] at hch
    cases hch
  | cancelled hc hturn => exact absurd hturn (hq.turn _)
  | go hc hturn =>
    exact .same rfl hcut rfl (.running ⟨h.held, h.slot, h.prod, h.rows, h.failure, h.done⟩)
  | rows hc hs =>
    have hqueue := queue_rows (hq.first (by rw [hc]; simp)) hs
    refine .shift hbuild h.flatten_le hcut hqueue
      (.running ⟨h.held, by simp, h.prod, ?_, h.failure, h.done⟩)
    rw [List.append_assoc, List.singleton_append, ← hqueue]
    exact h.rows
  | error hc hs => exact absurd hs (h.slot _)
  | fin hc hs hp =>
    have hfirst : r.first = none := hq.first (by rw [hc]; simp)
    have hqueue : r.queue = [] := by simp [Reader.queue, hfirst, hs, hp, slotChunk, ProdPhase.chunk]
    obtain ⟨hnil, hnone⟩ := h.done hp
    have hall : bs.flatten = all.rows := by
      rw [h.rows, hqueue, hnil, List.append_nil, List.append_nil]
    exact .same rfl hcut rfl (.closed ⟨rfl, hp, rfl, hfirst, hall ▸ List.prefix_rfl⟩
      (.ended 0 hall hnone) (by simp))
  | park hc hs hp =>
    exact .same rfl hcut rfl (.running ⟨h.held, h.slot, h.prod, h.rows, h.failure, h.done⟩)

theorem Failing.consumer {e : Error} (h : Failing all (bs ++ r.queue) e r)
    (he : all.failure = some e ∨ late e) (hq : Quiet max r) (hcut : Cut max (bs ++ r.queue))
    (hbuild : ∀ b, b <:+: all.rows → build b = .ok ()) (ha : a ≠ .signalStore)
    (ht : ConsTrans build a r es r') : Delivers max all late (bs.map .batch ++ es) r' := by
  cases ht with
  | store => exact absurd rfl ha
  | wake hw => exact absurd hq.waking hw
  | nextFirst hc hf hne =>
    have hqueue := queue_nextFirst hf hne
    refine .shift hbuild h.rows hcut hqueue (.failing e he ⟨h.held, ?_, h.item⟩)
    rw [List.append_assoc, List.singleton_append, ← hqueue]
    exact h.rows
  | nextWait hc hf hch =>
    have hqueue := queue_nextWait (c := .waiting .load1) hf
    refine .same rfl hcut hqueue (.failing e he ⟨h.held, ?_, h.item⟩)
    rw [hqueue]
    exact h.rows
  | nextEnd hc hf hch =>
    rw [h.held] at hch
    cases hch
  | cancelled hc hturn => exact absurd hturn (hq.turn _)
  | go hc hturn => exact .same rfl hcut rfl (.failing e he ⟨h.held, h.rows, h.item⟩)
  | rows hc hs =>
    have hqueue := queue_rows (hq.first (by rw [hc]; simp)) hs
    refine .shift hbuild h.rows hcut hqueue (.failing e he ⟨h.held, ?_, ?_⟩)
    · rw [List.append_assoc, List.singleton_append, ← hqueue]
      exact h.rows
    · rcases h.item with ⟨hs', -⟩ | ⟨hp, -⟩
      · rw [hs] at hs'
        cases hs'
      · exact .inr ⟨hp, by simp⟩
  | error hc hs =>
    rcases h.item with ⟨hs', hp⟩ | ⟨-, hne⟩
    · rw [hs] at hs'
      cases hs'
      have hqueue : { r with slot := none, chunks := false, cons := .idle }.queue = r.queue := by
        simp [Reader.queue, hs, slotChunk]
      have hpre : bs.flatten <+: all.rows := by
        refine List.IsPrefix.trans ?_ h.rows
        rw [List.flatten_append]
        exact List.prefix_append _ _
      exact .same rfl hcut hqueue (.closed ⟨rfl, hp, rfl, hq.first (by rw [hc]; simp), hpre⟩
        (.failed e 0 he) (by simp))
    · exact absurd hs (hne _)
  | fin hc hs hp =>
    rcases h.item with ⟨hs', -⟩ | ⟨hp', -⟩
    · rw [hs] at hs'
      cases hs'
    · rw [hp] at hp'
      cases hp'
  | park hc hs hp => exact .same rfl hcut rfl (.failing e he ⟨h.held, h.rows, h.item⟩)

theorem Closed.consumer (h : Closed all bs r) (hend : Ending all late bs tail) (hne : tail ≠ [])
    (hcut : Cut max (bs ++ r.queue)) (hq : Quiet max r) (ha : a ≠ .signalStore)
    (ht : ConsTrans build a r es r') :
    Delivers max all late (bs.map .batch ++ tail ++ es) r' := by
  cases ht with
  | store => exact absurd rfl ha
  | wake hw => exact absurd hq.waking hw
  | nextFirst hc hf hne' =>
    rw [h.first] at hf
    cases hf
  | nextWait hc hf hch =>
    rw [h.dropped] at hch
    cases hch
  | nextEnd hc hf hch =>
    have hqueue : { r with first := none }.queue = r.queue := by simp [Reader.queue, h.first]
    refine .same (List.append_assoc _ _ _) hcut hqueue
      (.closed ⟨h.dropped, h.prod, h.cons, rfl, h.rows⟩ ?_ (by simp))
    cases hend with
    | streaming => exact absurd rfl hne
    | ended k hall hnone =>
      rw [← List.replicate_succ']
      exact .ended (k + 1) hall hnone
    | failed e k he =>
      rw [List.cons_append, ← List.replicate_succ']
      exact .failed e (k + 1) he
  | cancelled hc | go hc | rows hc | error hc | fin hc | park hc =>
    rw [h.cons] at hc
    cases hc

theorem Running.producer (h : Running all (bs ++ r.queue) r) (hq : Quiet max r)
    (hcut : Cut max (bs ++ r.queue)) (hmax : 0 < max)
    (hlate : ∀ seconds, p = .timedOut seconds → late (fetchTimeoutErr seconds))
    (ht : ProdTrans p r r') : Delivers max all late (bs.map .batch) r' := by
  have htr : bs.map Out.batch = bs.map .batch ++ [] := (List.append_nil _).symm
  cases ht with
  | fetchCancelled hp hturn => exact absurd hturn (hq.turn _)
  | fetchGo hp hturn | fetchPending hp =>
    have hqueue : ∀ pc, { r with prod := .fetching pc }.queue = r.queue := by
      simp [Reader.queue, hp, ProdPhase.chunk]
    refine .same htr hcut (hqueue _)
      (.running ⟨h.held, h.slot, by simp, ?_, h.failure, by simp⟩)
    rw [hqueue]
    exact h.rows
  | @fetchTimeout _ n seconds hp =>
    have hqueue : { r with prod := .sendingErr (fetchTimeoutErr seconds) }.queue = r.queue := by
      simp [Reader.queue, hp, ProdPhase.chunk]
    refine .same htr hcut hqueue
      (.failing _ (.inr (hlate seconds rfl)) ⟨h.held, ?_, .inr ⟨rfl, h.slot⟩⟩)
    rw [hqueue]
    exact h.flatten_le
  | @fetchEnd _ n source hp hpull =>
    obtain ⟨hrows, hfail, -, hempty⟩ := pullChunk_ok hpull
    obtain ⟨hnil, hnone⟩ := hempty (by rw [hq.size]; exact hmax) rfl
    rw [List.nil_append] at hrows
    have hqueue : { r with source, prod := .done }.queue = r.queue := by
      simp [Reader.queue, hp, ProdPhase.chunk]
    refine .same htr hcut hqueue
      (.running ⟨h.held, h.slot, by simp, ?_, hfail.trans h.failure, ?_⟩)
    · rw [hqueue, ← hrows]
      exact h.rows
    · intro _
      exact ⟨hrows ▸ hnil, h.failure ▸ hnone⟩
  | @fetchRows _ n rows source hp hpull hne =>
    obtain ⟨hrows, hfail, hchunk, -⟩ := pullChunk_ok hpull
    have hqueue : { r with source, prod := .sending rows .load1 }.queue = r.queue ++ [rows] := by
      simp [Reader.queue, hp, ProdPhase.chunk]
    refine ⟨bs, [], htr, ?_, .running ⟨h.held, h.slot, by simp, ?_, hfail.trans h.failure, by simp⟩⟩
    · rw [hqueue, ← List.append_assoc]
      intro b hb
      rcases List.mem_append.mp hb with hb | hb
      · exact hcut b hb
      · rw [List.mem_singleton.mp hb]
        exact ⟨hne, hq.size ▸ hchunk⟩
    · rw [hqueue, h.rows, hrows]
      simp
  | @fetchErr _ n e source hp hpull =>
    have he : r.source.failure = some e := (pullChunk_error_iff.mp (congrArg Prod.fst hpull)).1
    have hqueue : { r with source, prod := .sendingErr e }.queue = r.queue := by
      simp [Reader.queue, hp, ProdPhase.chunk]
    refine .same htr hcut hqueue
      (.failing e (.inl (h.failure ▸ he)) ⟨h.held, ?_, .inr ⟨rfl, h.slot⟩⟩)
    rw [hqueue]
    exact h.flatten_le
  | sendCancelled hp hturn => exact absurd hturn (hq.turn _)
  | @sendGo _ _ rows _ _ hp | @sendPark _ _ rows _ hp =>
    have hqueue : ∀ pc, { r with prod := .sending rows pc }.queue = r.queue := by
      simp [Reader.queue, hp, ProdPhase.chunk]
    refine .same htr hcut (hqueue _)
      (.running ⟨h.held, h.slot, by simp, ?_, h.failure, by simp⟩)
    rw [hqueue]
    exact h.rows
  | sendClosed hp hch =>
    rw [h.held] at hch
    cases hch
  | @sendRows _ _ rows n hp hch hs =>
    have hqueue : { r with slot := some (.ok rows), prod := .fetching .load1 }.queue = r.queue := by
      simp [Reader.queue, hp, hs, ProdPhase.chunk, slotChunk]
    refine .same htr hcut hqueue
      (.running ⟨h.held, by simp, by simp, ?_, h.failure, by simp⟩)
    rw [hqueue]
    exact h.rows
  | errClosed hp | errSent hp | errWait hp => exact absurd hp (h.prod _)

theorem Failing.producer {e : Error} (h : Failing all (bs ++ r.queue) e r)
    (he : all.failure = some e ∨ late e) (hcut : Cut max (bs ++ r.queue))
    (ht : ProdTrans p r r') : Delivers max all late (bs.map .batch) r' := by
  have htr : bs.map Out.batch = bs.map .batch ++ [] := (List.append_nil _).symm
  rcases h.item with ⟨-, hp⟩ | ⟨hp, hne⟩
  · exact absurd hp ht.prod_ne
  · cases ht with
    | errClosed _ hch =>
      rw [h.held] at hch
      cases hch
    | @errSent _ _ e' hp' hch hs =>
      rw [hp] at hp'
      cases hp'
      have hqueue : { r with slot := some (.error e), prod := .done }.queue = r.queue := by
        simp [Reader.queue, hp, hs, ProdPhase.chunk, slotChunk]
      refine .same htr hcut hqueue (.failing e he ⟨h.held, ?_, .inl ⟨rfl, rfl⟩⟩)
      rw [hqueue]
      exact h.rows
    | errWait => exact .same htr hcut rfl (.failing e he h)
    | fetchCancelled hp' | fetchGo hp' | fetchPending hp' | fetchTimeout hp' | fetchEnd hp'
    | fetchRows hp' | fetchErr hp' | sendCancelled hp' | sendGo hp' | sendClosed hp' | sendRows hp'
    | sendPark hp' =>
      rw [hp] at hp'
      cases hp'

theorem Delivers.step {tr : List Out} (h : Delivers max all late tr r) (hq : Quiet max r)
    (hbuild : ∀ b, b <:+: all.rows → build b = .ok ()) (hmax : 0 < max) (ha : a ≠ .signalStore)
    (hlate : ∀ seconds, a = .producer (.timedOut seconds) → late (fetchTimeoutErr seconds))
    (hstep : (reader build).step r a = some (r', es)) :
    Delivers max all late (tr ++ es) r' ∧ Quiet max r' := by
  obtain ⟨bs, tail, rfl, hcut, hs⟩ := h
  rcases trans_step hstep with ht | ⟨p, rfl, rfl, ht⟩
  · refine ⟨?_, hq.consumer ha ht⟩
    cases hs with
    | running h =>
      rw [List.append_nil]
      exact h.consumer hq hcut hbuild ha ht
    | failing e he h =>
      rw [List.append_nil]
      exact h.consumer he hq hcut hbuild ha ht
    | closed h hend hne => exact h.consumer hend hne hcut hq ha ht
  · refine ⟨?_, hq.producer ht⟩
    rw [List.append_nil]
    cases hs with
    | running h =>
      rw [List.append_nil]
      exact h.producer hq hcut hmax (fun seconds hp => hlate seconds (by rw [hp])) ht
    | failing e he h =>
      rw [List.append_nil]
      exact h.producer he hcut ht
    | closed h hend hne => exact absurd h.prod ht.prod_ne

end Step

/-! ## Progress -/

/-- How many steps of `cancelled()` come before the operation is polled. -/
def Pc.left : Pc → Nat
  | .op _ => 0
  | .check false => 1
  | .load2 false | .parked false => 2
  | .create => 3
  | .load1 => 4
  | .check true => 5
  | .load2 true | .parked true => 6

def ProdPhase.left : ProdPhase → Nat
  | .done => 0
  | .sendingErr _ => 11
  | .fetching pc => 12 + pc.left
  | .sending _ pc => 29 + pc.left

def ConsPhase.left : ConsPhase → Nat
  | .idle => 7
  | .waiting pc => pc.left

def slotLeft : Option (Except Error (List Row)) → Nat
  | none => 0
  | some _ => 10

/-- A bound on the steps to the end. A row in the source pays for its way through the task, the
channel and the consumer. -/
def Reader.left (r : Reader) : Nat :=
  40 * r.source.rows.length + r.prod.left + slotLeft r.slot + r.cons.left +
    (r.first.getD []).length + (if r.chunks then 8 else 0)

/-- The steps of a stream that nobody cancels and whose fetches return. -/
def Action.Drives (a : Action) : Prop := a = .next ∨ a = .consumer ∨ a = .producer .ready

section Progress

variable {r : Reader}

theorem Pc.turn_uncancelled (pc : Pc) :
    (∃ n, pc = .op n) ∨ ∃ pc', pc.turn false = .go pc' ∧ pc'.left < pc.left := by
  cases pc with
  | load1 => exact .inr ⟨.create, rfl, by decide⟩
  | create => exact .inr ⟨.load2 false, rfl, by decide⟩
  | load2 n => exact .inr ⟨.check n, rfl, by cases n <;> decide⟩
  | check n =>
    cases n with
    | false => exact .inr ⟨.op false, rfl, by decide⟩
    | true => exact .inr ⟨.load1, rfl, by decide⟩
  | op n => exact .inl ⟨n, rfl⟩
  | parked n => exact .inr ⟨.check n, rfl, by cases n <;> decide⟩

theorem exists_lower_fetch (n : Bool) (hp : r.prod = .fetching (.op n)) :
    (r.fetch n .ready).left < r.left := by
  cases hq : pullChunk r.batchSize r.source with
  | mk res source =>
    cases res with
    | error e =>
      obtain ⟨hf, hl, hb⟩ := pullChunk_error_iff.mp (congrArg Prod.fst hq)
      rw [pullChunk_fails hf hl hb] at hq
      cases hq
      simp [Reader.fetch, pullChunk_fails hf hl hb, Reader.left, ProdPhase.left, Pc.left, hp]
    | ok rows =>
      obtain ⟨hrows, -, -, -⟩ := pullChunk_ok hq
      have hlen := congrArg List.length hrows
      rw [List.length_append] at hlen
      cases rows with
      | nil =>
        simp only [Reader.fetch, hq, Reader.left, ProdPhase.left, Pc.left, hp]
        omega
      | cons row rows =>
        rw [List.length_cons] at hlen
        simp only [Reader.fetch, hq, Reader.left, ProdPhase.left, Pc.left, hp]
        omega

/-- The task, as long as it runs and finds room in the channel. -/
theorem exists_lower_producer (hflag : r.cancelled = false) (hch : r.chunks = true)
    (hs : r.slot = none) (hp : r.prod ≠ .done) :
    ∃ r', r.producer .ready = some r' ∧ r'.left < r.left := by
  cases hprod : r.prod with
  | done => exact absurd hprod hp
  | fetching pc =>
    rcases pc.turn_uncancelled with ⟨n, rfl⟩ | ⟨pc', hturn, hlt⟩
    · exact ⟨r.fetch n .ready, by simp [Reader.producer, hprod, Pc.turn], exists_lower_fetch n hprod⟩
    · refine ⟨{ r with prod := .fetching pc' }, by simp [Reader.producer, hprod, hflag, hturn], ?_⟩
      simp only [Reader.left, ProdPhase.left, hprod]
      omega
  | sending rows pc =>
    rcases pc.turn_uncancelled with ⟨n, rfl⟩ | ⟨pc', hturn, hlt⟩
    · refine ⟨r.send rows n, by simp [Reader.producer, hprod, Pc.turn], ?_⟩
      simp only [Reader.send, hch, hs, Reader.left, ProdPhase.left, slotLeft, hprod, Pc.left]
      omega
    · refine ⟨{ r with prod := .sending rows pc' }, by simp [Reader.producer, hprod, hflag, hturn],
        ?_⟩
      simp only [Reader.left, ProdPhase.left, hprod]
      omega
  | sendingErr e =>
    refine ⟨{ r with slot := some (.error e), prod := .done }, ?_, ?_⟩
    · simp [Reader.producer, hprod, hch, hs]
    · simp only [Reader.left, ProdPhase.left, slotLeft, hprod, hs]
      omega

/-- The consumer, unless it waits for the task. -/
theorem exists_lower_consumer (build : List Row → Except Error Unit) {pc : Pc}
    (hflag : r.cancelled = false) (hch : r.chunks = true) (hc : r.cons = .waiting pc)
    (hready : (∃ n, pc = .op n) → r.slot = none → r.prod = .done) :
    ∃ r' es, r.consumer build = some (r', es) ∧ r'.left < r.left := by
  rcases pc.turn_uncancelled with ⟨n, rfl⟩ | ⟨pc', hturn, hlt⟩
  · refine ⟨(r.recv build n).1, (r.recv build n).2, by simp [Reader.consumer, hc, Pc.turn], ?_⟩
    cases hs : r.slot with
    | none =>
      have hp := hready ⟨n, rfl⟩ hs
      simp only [Reader.recv, hs, hp, Reader.left, hc, hch, ConsPhase.left, Pc.left, if_true,
        Bool.false_eq_true, if_false]
      omega
    | some item =>
      cases item with
      | ok rows =>
        simp only [Reader.recv, hs, Reader.left, hc, slotLeft, ConsPhase.left, Pc.left]
        omega
      | error e =>
        simp only [Reader.recv, hs, Reader.left, hc, hch, slotLeft, ConsPhase.left, Pc.left,
          if_true, Bool.false_eq_true, if_false]
        omega
  · refine ⟨{ r with cons := .waiting pc' }, [], by simp [Reader.consumer, hc, hflag, hturn], ?_⟩
    simp only [Reader.left, hc, ConsPhase.left]
    omega

theorem exists_lower_next (build : List Row → Except Error Unit) (hch : r.chunks = true)
    (hc : r.cons = .idle) : ∃ r' es, r.next build = some (r', es) ∧ r'.left < r.left := by
  by_cases hf : ∃ row rows, r.first = some (row :: rows)
  · obtain ⟨row, rows, hf⟩ := hf
    refine ⟨{ r with first := none }, [Reader.emit build (row :: rows)], ?_, ?_⟩
    · simp [Reader.next, hc, hf]
    · simp [Reader.left, hf]
  · refine ⟨{ r with first := none, cons := .waiting .load1 }, [], ?_, ?_⟩
    · unfold Reader.next
      split
      · rename_i hfirst
        exact absurd ⟨_, _, hfirst⟩ hf
      · exact if_pos hch
      · rename_i hidle _
        exact absurd hc hidle
    · simp only [Reader.left, hc, ConsPhase.left, Pc.left, Option.getD_none, List.length_nil]
      omega

theorem exists_lower (build : List Row → Except Error Unit) (hflag : r.cancelled = false)
    (hch : r.chunks = true) : ∃ a r' es, a.Drives ∧ (reader build).step r a = some (r', es) ∧
      r'.cancelled = false ∧ r'.left < r.left := by
  have hkeep : ∀ {a r' es}, a.Drives → (reader build).step r a = some (r', es) →
      r'.cancelled = false := by
    intro a r' es ha hstep
    rw [step_cancelled hstep (by rintro rfl; simp [Action.Drives] at ha)]
    exact hflag
  cases hc : r.cons with
  | idle =>
    obtain ⟨r', es, hstep, hlt⟩ := exists_lower_next build hch hc
    exact ⟨.next, r', es, .inl rfl, hstep, hkeep (.inl rfl) hstep, hlt⟩
  | waiting pc =>
    by_cases hready : (∃ n, pc = .op n) → r.slot = none → r.prod = .done
    · obtain ⟨r', es, hstep, hlt⟩ := exists_lower_consumer build hflag hch hc hready
      exact ⟨.consumer, r', es, .inr (.inl rfl), hstep, hkeep (.inr (.inl rfl)) hstep, hlt⟩
    · push Not at hready
      obtain ⟨-, hs, hp⟩ := hready
      obtain ⟨r', hprod, hlt⟩ := exists_lower_producer hflag hch hs hp
      have hstep : (reader build).step r (.producer .ready) = some (r', []) := by
        simp [reader, Reader.step, hprod]
      exact ⟨.producer .ready, r', [], .inr (.inr rfl), hstep, hkeep (.inr (.inr rfl)) hstep, hlt⟩

/-- Some run takes the stream to the point where the consumer drops the receiver. -/
theorem exists_run_closed (build : List Row → Except Error Unit) (hflag : r.cancelled = false) :
    ∃ as r' tr, (∀ a ∈ as, a.Drives) ∧ (reader build).run r as = some (r', tr) ∧
      r'.chunks = false := by
  refine exists_run_to (I := fun r => r.cancelled = false) Reader.left ?_ hflag
  intro r hflag hopen
  exact exists_lower build hflag (by simpa using hopen)

end Progress

/-! ## Whole runs -/

section Runs

variable {schema : Option Row → Except Error Unit} {build : List Row → Except Error Unit}
  {max : Nat} {src : Source} {late : Error → Prop} {r r' : Reader} {as : List Action}
  {tr tr' : List Out}

/-- The errors of the fetches that ran out of time in a run. -/
def Late (as : List Action) (e : Error) : Prop :=
  ∃ seconds, .producer (.timedOut seconds) ∈ as ∧ e = fetchTimeoutErr seconds

theorem Delivers.start (h : streamQuery schema max src = .ok r) :
    Delivers max src late [] r ∧ Quiet max r := by
  obtain ⟨first, source, hq, rfl⟩ := streamQuery_ok h
  obtain ⟨hrows, hfail, hchunk, -⟩ := pullChunk_ok hq
  have hqueue : (Reader.start max first source).queue = firstChunk (some first) := by
    simp [Reader.start, Reader.queue, slotChunk, ProdPhase.chunk]
  refine ⟨⟨[], [], rfl, ?_, .running ⟨rfl, by simp [Reader.start], by simp [Reader.start], ?_, hfail,
    by simp [Reader.start]⟩⟩, ⟨rfl, rfl, rfl, by simp [Reader.start]⟩⟩
  · rw [List.nil_append, hqueue]
    intro b hb
    cases first with
    | nil => cases hb
    | cons row rows =>
      rw [List.mem_singleton.mp hb]
      exact ⟨by simp, hchunk⟩
  · rw [List.nil_append, hqueue, flatten_firstChunk]
    exact hrows

theorem Delivers.run (h : Delivers max src late tr r) (hq : Quiet max r) (hmax : 0 < max)
    (hbuild : ∀ b, b <:+: src.rows → build b = .ok ()) (has : ∀ a ∈ as, a ≠ .signalStore)
    (hlate : ∀ seconds, .producer (.timedOut seconds) ∈ as → late (fetchTimeoutErr seconds))
    (hr : (reader build).run r as = some (r', tr')) :
    Delivers max src late (tr ++ tr') r' ∧ Quiet max r' := by
  have hmeets : (reader build).Meets (fun _ a => a ∈ as) r as :=
    meets_of_invariant (I := fun _ => True) (fun _ ha => ha) (fun _ _ _ => trivial) trivial
      fun a ha => ha
  refine guarded_induction (I := fun tr r => Delivers max src late tr r ∧ Quiet max r)
    ?_ ⟨h, hq⟩ hmeets hr
  intro tr r a r' es hI ha hstep
  refine hI.1.step hI.2 hbuild hmax (has a ha) ?_ hstep
  rintro seconds rfl
  exact hlate seconds ha

/-- Behind any run, some run brings the consumer to the end of the stream. -/
theorem exists_run_fin (h : Delivers max src late tr r) (hq : Quiet max r) (hmax : 0 < max)
    (hbuild : ∀ b, b <:+: src.rows → build b = .ok ()) :
    ∃ more r' tr', (∀ a ∈ more, a.Drives) ∧ (reader build).run r more = some (r', tr') ∧
      .fin ∈ tr' := by
  obtain ⟨as, r₁, tr₁, has, hr, hclosed⟩ := exists_run_closed build hq.flag
  have hquiet : ∀ a ∈ as, a ≠ .signalStore := by
    rintro a ha rfl
    simpa [Action.Drives] using has _ ha
  have hlate : ∀ seconds, .producer (.timedOut seconds) ∈ as → late (fetchTimeoutErr seconds) := by
    intro seconds hm
    simpa [Action.Drives] using has _ hm
  obtain ⟨⟨bs, tail, -, -, hstage⟩, -⟩ := h.run hq hmax hbuild hquiet hlate hr
  cases hstage with
  | running h' =>
    rw [h'.held] at hclosed
    cases hclosed
  | failing e he h' =>
    rw [h'.held] at hclosed
    cases hclosed
  | closed h' hend hne =>
    have hnext : (reader build).step r₁ .next = some ({ r₁ with first := none }, [.fin]) := by
      simp [reader, Reader.step, Reader.next, h'.cons, h'.first, h'.dropped]
    refine ⟨as ++ [.next], { r₁ with first := none }, tr₁ ++ [.fin], ?_, ?_, by simp⟩
    · intro a ha
      rcases List.mem_append.mp ha with ha | ha
      · exact has a ha
      · exact .inl (List.mem_singleton.mp ha)
    · exact run_append.mpr ⟨r₁, tr₁, [.fin], hr,
        run_cons.mpr ⟨_, _, [], hnext, rfl, rfl⟩, rfl⟩

/-- Opening a stream fails exactly where the source fails before the first chunk is full. -/
theorem streamQuery_error_iff (hmax : 0 < max) (hschema : schema src.rows.head? = .ok ())
    (e : Error) : streamQuery schema max src = .error e ↔
      src.failure = some e ∧ src.rows.length < max ∧ rowsBytes src.rows < chunkByteBudget := by
  rw [← pullChunk_error_iff]
  cases hq : pullChunk max src with
  | mk res source =>
    cases res with
    | error e' => simp [streamQuery, hq, Bind.bind, Except.bind]
    | ok first =>
      obtain ⟨hrows, -, -, hempty⟩ := pullChunk_ok hq
      have hhead : first.head? = src.rows.head? := by
        cases first with
        | nil => rw [(hempty hmax rfl).1]
        | cons row rows => rw [hrows, List.cons_append, List.head?_cons, List.head?_cons]
      simp [streamQuery, hq, hhead, hschema, Bind.bind, Except.bind, Pure.pure, Except.pure]

end Runs

/-- A stream that nobody cancels, of rows that can all be decoded. It fails to open exactly where the
source fails before the first chunk is full. Otherwise, after every run, the batches are the first
rows of the source in order, cut as the two budgets say, and behind them stands the end, behind all
rows of a source that does not fail, or one error and then the end; and some run leads to the end. -/
theorem delivery_exact {schema : Option Row → Except Error Unit}
    {build : List Row → Except Error Unit} {batchSize : Nat} {src : Source} (hb : 0 < batchSize)
    (hschema : schema src.rows.head? = .ok ())
    (hbuild : ∀ b, b <:+: src.rows → build b = .ok ()) :
    (∀ e, streamQuery schema batchSize src = .error e ↔ src.failure = some e ∧
      src.rows.length < batchSize ∧ rowsBytes src.rows < chunkByteBudget) ∧
    ∀ r as r' tr, streamQuery schema batchSize src = .ok r → (∀ a ∈ as, a ≠ .signalStore) →
      (reader build).run r as = some (r', tr) →
      (∃ bs tail, tr = bs.map .batch ++ tail ∧ bs.flatten <+: src.rows ∧
        (∀ b ∈ bs, b ≠ [] ∧ b.length ≤ batchSize ∧ rowsBytes b.dropLast < chunkByteBudget) ∧
        Ending src (Late as) bs tail) ∧
      ∃ more r'' tr', (∀ a ∈ more, a.Drives) ∧ (reader build).run r' more = some (r'', tr') ∧
        .fin ∈ tr' := by
  refine ⟨streamQuery_error_iff hb hschema, ?_⟩
  intro r as r' tr hopen has hr
  have hstart : Delivers batchSize src (Late as) [] r ∧ Quiet batchSize r :=
    Delivers.start hopen
  obtain ⟨h, hquiet'⟩ := hstart.1.run hstart.2 hb hbuild has (fun s hs => ⟨s, hs, rfl⟩) hr
  rw [List.nil_append] at h
  refine ⟨?_, exists_run_fin h hquiet' hb hbuild⟩
  obtain ⟨bs, tail, rfl, hcut, hstage⟩ := h
  have hbs : ∀ b ∈ bs, b ≠ [] ∧ b.length ≤ batchSize ∧ rowsBytes b.dropLast < chunkByteBudget := by
    intro b hbm
    obtain ⟨hne, hchunk⟩ := hcut b (List.mem_append_left _ hbm)
    exact ⟨hne, hchunk.length_le, hchunk.bytes_lt⟩
  have hle : bs.flatten <+: (bs ++ r'.queue).flatten := by
    rw [List.flatten_append]
    exact List.prefix_append _ _
  cases hstage with
  | running h => exact ⟨bs, [], rfl, hle.trans h.flatten_le, hbs, .streaming⟩
  | failing e he h => exact ⟨bs, [], rfl, hle.trans h.rows, hbs, .streaming⟩
  | closed h hend hne => exact ⟨bs, tail, rfl, h.rows, hbs, hend⟩

/-- One row more than the first chunk holds, and then a failure. -/
def failsLater : Source := ⟨[[.bool true], [.null]], some (err "stream reset".toList .io)⟩

/-- The consumer takes the first chunk, waits for the second and then for the failure. -/
def failsLaterRun : List Action :=
  [.next] ++ .replicate 10 (.producer .ready) ++ [.next] ++ .replicate 5 .consumer ++
  .replicate 6 (.producer .ready) ++ [.next] ++ .replicate 5 .consumer

theorem delivery_exact_failsLater : ∃ r r' tr,
    streamQuery (fun _ => .ok ()) 1 failsLater = .ok r ∧
    (reader fun _ => .ok ()).run r failsLaterRun = some (r', tr) ∧
    tr = [.batch [[.bool true]], .batch [[.null]], .error (err "stream reset".toList .io)] ∧
    (∃ bs tail, tr = bs.map .batch ++ tail ∧ bs.flatten <+: failsLater.rows ∧
      (∀ b ∈ bs, b ≠ [] ∧ b.length ≤ 1 ∧ rowsBytes b.dropLast < chunkByteBudget) ∧
      Ending failsLater (Late failsLaterRun) bs tail) ∧
    ∃ more r'' tr', (∀ a ∈ more, a.Drives) ∧
      (reader fun _ => .ok ()).run r' more = some (r'', tr') ∧ .fin ∈ tr' := by
  obtain ⟨r, hopen, r', tr, hr, htr⟩ : ∃ r, streamQuery (fun _ => .ok ()) 1 failsLater = .ok r ∧
      ∃ r' tr, (reader fun _ => .ok ()).run r failsLaterRun = some (r', tr) ∧
        tr = [.batch [[.bool true]], .batch [[.null]], .error (err "stream reset".toList .io)] :=
    ⟨_, rfl, _, _, rfl, rfl⟩
  have hcancel : ∀ a ∈ failsLaterRun, a ≠ .signalStore := by simp [failsLaterRun]
  exact ⟨r, r', tr, hopen, hr, htr,
    (delivery_exact (by decide) rfl fun _ _ => rfl).2 r failsLaterRun r' tr hopen hcancel hr⟩

end Stream
end SpannerAdbc
