import SpannerAdbc.Stream.Truncation

/-!
# SpannerAdbc.Stream.Cancelled

What a reader delivers once a cancel has returned.

Every wait for a chunk looks at the flag before it polls the channel, so a read that gets as far as
a wait is refused, whatever the channel and the task hold (`Refused`). A read does not always get
that far: the chunk that was fetched to settle the schema is delivered without a look at the flag,
and a reader that has dropped the receiver ends. `cancelled_reader_refuses_iff` says in which states
all later reads are refused.
-/

namespace SpannerAdbc
namespace Stream

open Lib Machine

/-- Behind the trace `tr`, the reads give the cancelled error, or the end behind an error. -/
def RefusalsBehind (tr : List Out) : List Out → Prop :=
  Everywhere fun l out => out = .error cancelledErr ∨ out = .fin ∧ ∃ e, .error e ∈ tr ++ l

/-- Whatever happens next, a read gives the cancelled error, or the end behind an error, and one
that waits gets the error in its next step. -/
structure Refuses (build : List Row → Except Error Unit) (tr : List Out) (r : Reader) : Prop where
  outputs : ∀ as r' tr', (reader build).run r as = some (r', tr') → RefusalsBehind tr tr'
  returns : ∀ as r' tr', (reader build).run r as = some (r', tr') → r'.cons ≠ .idle →
    ∃ r'', (reader build).step r' .consumer = some (r'', [.error cancelledErr])

/-! ## The flag -/

section Flag

variable {build : List Row → Except Error Unit} {r r' : Reader} {as : List Action} {tr : List Out}

/-- A `signal` call that has not woken the waiters yet has stored the flag. -/
def Reader.Stored (r : Reader) : Prop := r.waking ≠ 0 → r.cancelled = true

theorem step_cancelled_true {a : Action} {es : List Out}
    (h : (reader build).step r a = some (r', es)) (hflag : r.cancelled = true) :
    r'.cancelled = true := by
  by_cases ha : a = .signalStore
  · subst ha
    cases h
    rfl
  · rw [step_cancelled h ha, hflag]

theorem Reader.Stored.step {a : Action} {es : List Out} (hI : r.Stored)
    (h : (reader build).step r a = some (r', es)) : r'.Stored := by
  intro hw
  by_cases hflag : r.cancelled = true
  · exact step_cancelled_true h hflag
  · have hzero : r.waking = 0 := by
      by_contra hne
      exact hflag (hI hne)
    rcases trans_step h with ht | ⟨p, -, -, ht⟩
    · cases ht with
      | store => rfl
      | wake hne => exact absurd hzero hne
      | _ => exact absurd hzero hw
    · cases ht with
      | fetchCancelled hp hturn => exact absurd (cancelled_of_turn hturn) hflag
      | _ => exact absurd hzero hw

/-- Once a cancel has returned, the flag is set. -/
theorem cancelled_of_returned (hI : r.Stored) (hr : (reader build).run r as = some (r', tr))
    (hret : .signalNotify ∈ as) : r'.cancelled = true := by
  obtain ⟨before, after, rfl⟩ := List.append_of_mem hret
  obtain ⟨r₁, tr₁, tr₂, h₁, h₂, -⟩ := run_append.mp hr
  have hI₁ : r₁.Stored := run_invariant (fun hI hs => hI.step hs) hI h₁
  obtain ⟨r₂, es, tr', hs, h₃, -⟩ := run_cons.mp h₂
  have hflag : r₁.cancelled = true := by
    rcases trans_step hs with ht | ⟨p, ha, -, -⟩
    · cases ht with
      | wake hne => exact hI₁ hne
    · cases ha
  exact run_invariant (I := fun r => r.cancelled = true) (fun hI hs => step_cancelled_true hs hI)
    (step_cancelled_true hs hflag) h₃

end Flag

/-! ## Refused reads -/

/-- No read gets past the flag: the first chunk is gone, a wait is in front of its first look at the
flag, and a reader without a receiver has delivered an error. -/
structure Refused (tr : List Out) (r : Reader) : Prop where
  flag : r.cancelled = true
  first : r.first.getD [] = []
  cons : r.cons = .idle ∨ r.cons = .waiting .load1
  error : r.chunks = true ∨ ∃ e, .error e ∈ tr
  held : r.cons ≠ .idle → r.chunks = true

section Step

variable {build : List Row → Except Error Unit} {r r' : Reader} {a : Action} {tr es : List Out}

theorem Refused.consumer (h : Refused tr r) (ht : ConsTrans build a r es r') :
    Refused (tr ++ es) r' ∧ RefusalsBehind tr es := by
  have hop : ∀ {n}, r.cons ≠ .waiting (.op n) := by
    intro n hc
    rcases h.cons with hi | hi
    · rw [hi] at hc
      cases hc
    · rw [hi] at hc
      cases hc
  cases ht with
  | store =>
    rw [List.append_nil]
    exact ⟨⟨rfl, h.first, h.cons, h.error, h.held⟩, .nil⟩
  | wake hw =>
    rw [List.append_nil]
    refine ⟨⟨h.flag, h.first, ?_, h.error, ?_⟩, .nil⟩
    · rcases h.cons with hc | hc
      · exact .inl (by rw [hc]; rfl)
      · exact .inr (by rw [hc]; rfl)
    · intro hne
      exact h.held fun hi => hne (notify_eq_idle.mpr hi)
  | nextFirst hc hf hne =>
    have hnil := h.first
    rw [hf] at hnil
    exact absurd hnil hne
  | nextWait hc hf hch =>
    rw [List.append_nil]
    exact ⟨⟨h.flag, rfl, .inr rfl, .inl hch, fun _ => hch⟩, .nil⟩
  | nextEnd hc hf hch =>
    have herr : ∃ e, .error e ∈ tr := h.error.resolve_left (by rw [hch]; simp)
    obtain ⟨e, he⟩ := herr
    refine ⟨⟨h.flag, rfl, .inl hc, .inr ⟨e, List.mem_append_left _ he⟩, ?_⟩, ?_⟩
    · intro hne
      exact absurd hc hne
    · exact .cons (.inr ⟨rfl, e, List.mem_append_left _ he⟩) .nil
  | cancelled hc hturn =>
    refine ⟨⟨h.flag, h.first, .inl rfl, .inr ⟨cancelledErr, by simp⟩, ?_⟩, .cons (.inl rfl) .nil⟩
    intro hne
    exact absurd rfl hne
  | go hc hturn =>
    -- the only wait is in front of its first look, and the flag is set
    rcases h.cons with hi | hi
    · rw [hi] at hc
      cases hc
    · rw [hi] at hc
      cases hc
      rw [h.flag] at hturn
      cases hturn
  | rows hc hs => exact absurd hc hop
  | error hc hs => exact absurd hc hop
  | fin hc hs hp => exact absurd hc hop
  | park hc hs hp => exact absurd hc hop

theorem Refused.step (h : Refused tr r) (hs : (reader build).step r a = some (r', es)) :
    Refused (tr ++ es) r' ∧ RefusalsBehind tr es := by
  rcases trans_step hs with ht | ⟨p, -, rfl, ht⟩
  · exact h.consumer ht
  · obtain ⟨hch, hcons, hfirst⟩ := ht.frame
    rw [List.append_nil]
    refine ⟨⟨step_cancelled_true hs h.flag, hfirst ▸ h.first, hcons ▸ h.cons, hch ▸ h.error, ?_⟩, .nil⟩
    rw [hcons, hch]
    exact h.held

theorem Refused.run {as : List Action} {tr' : List Out} (h : Refused tr r)
    (hr : (reader build).run r as = some (r', tr')) :
    Refused (tr ++ tr') r' ∧ RefusalsBehind tr tr' := by
  refine run_induction (I := fun tr' r => Refused (tr ++ tr') r ∧ RefusalsBehind tr tr') ?_
    ⟨by rwa [List.append_nil], .nil⟩ hr
  intro tr' r a r' es hI hs
  obtain ⟨hnext, hes⟩ := hI.1.step hs
  rw [List.append_assoc] at hnext
  refine ⟨hnext, hI.2.append ?_⟩
  intro l out rest hsplit
  rw [← List.append_assoc]
  exact hes l out rest hsplit

theorem Refused.refuses (h : Refused tr r) : Refuses build tr r where
  outputs as r' tr' hr := (h.run hr).2
  returns as r' tr' hr hne := by
    obtain ⟨h', -⟩ := h.run hr
    have hc : r'.cons = .waiting .load1 := h'.cons.resolve_left hne
    refine ⟨{ r' with chunks := false, cons := .idle }, ?_⟩
    change Reader.consumer build r' = _
    simp only [Reader.consumer, hc, h'.flag, Pc.turn, if_true]

end Step

/-! ## In which states -/

variable {build : List Row → Except Error Unit}

/-- A read that starts with the first chunk still there gets a batch, or an error of the decoder. -/
theorem Refuses.first {tr : List Out} {r : Reader} (h : Refuses build tr r)
    (hidle : r.cons = .idle) (hbuild : ∀ rows, build rows ≠ .error cancelledErr) :
    r.first.getD [] = [] := by
  cases hf : r.first with
  | none => rfl
  | some rows =>
    cases rows with
    | nil => rfl
    | cons row rows =>
      have hrun : (reader build).run r [.next] =
          some ({ r with first := none }, [Reader.emit build (row :: rows)]) := by
        have hs : (reader build).step r .next =
            some ({ r with first := none }, [Reader.emit build (row :: rows)]) := by
          simp only [reader, Reader.step, Reader.next, hidle, hf]
        simp only [run, hs, List.append_nil]
      rcases h.outputs _ _ _ hrun [] _ [] rfl with he | ⟨he, -⟩
      · unfold Reader.emit at he
        split at he
        · cases he
        · rename_i e hb
          cases he
          exact absurd hb (hbuild _)
      · rcases emit_cases build (row :: rows) with hm | ⟨e, hm⟩
        · rw [hm] at he
          cases he
        · rw [hm] at he
          cases he

/-- A read of a reader without a receiver gets the end. -/
theorem Refuses.error {tr : List Out} {r : Reader} (h : Refuses build tr r)
    (hidle : r.cons = .idle) (hf : r.first.getD [] = []) :
    r.chunks = true ∨ ∃ e, .error e ∈ tr := by
  cases hch : r.chunks with
  | true => exact .inl rfl
  | false =>
    have hrun : (reader build).run r [.next] = some ({ r with first := none }, [.fin]) := by
      have hs : (reader build).step r .next = some ({ r with first := none }, [.fin]) := by
        cases hsome : r.first with
        | none => simp [reader, Reader.step, Reader.next, hidle, hch, hsome]
        | some rows =>
          rw [hsome] at hf
          cases hf
          simp [reader, Reader.step, Reader.next, hidle, hch, hsome]
      simp only [run, hs, List.append_nil]
    rcases h.outputs _ _ _ hrun [] _ [] rfl with he | ⟨-, e, he⟩
    · cases he
    · rw [List.append_nil] at he
      exact .inr ⟨e, he⟩

/-- Once a cancel has returned and no read is under way, every later read is refused if and only if
the first chunk has been taken (or is empty) and the reader still has the receiver or has delivered
an error. -/
theorem cancelled_reader_refuses_iff {schema : Option Row → Except Error Unit}
    {build : List Row → Except Error Unit} {batchSize : Nat} {src : Source} {r r' : Reader}
    {as : List Action} {tr : List Out} (hopen : streamQuery schema batchSize src = .ok r)
    (hr : (reader build).run r as = some (r', tr)) (hret : .signalNotify ∈ as)
    (hidle : r'.cons = .idle) (hbuild : ∀ rows, build rows ≠ .error cancelledErr) :
    Refuses build tr r' ↔
      r'.first.getD [] = [] ∧ (r'.chunks = true ∨ ∃ e, .error e ∈ tr) := by
  have hstored : r.Stored := by
    obtain ⟨first, source, -, rfl⟩ := streamQuery_ok hopen
    intro hw
    exact absurd rfl hw
  have hflag := cancelled_of_returned hstored hr hret
  constructor
  · intro h
    have hf := h.first hidle hbuild
    exact ⟨hf, h.error hidle hf⟩
  · rintro ⟨hf, he⟩
    refine Refused.refuses ⟨hflag, hf, .inl hidle, he, ?_⟩
    intro hne
    exact absurd hidle hne

/-- One batch is read, then a cancel returns with the next chunk already in the channel. -/
def cancelledRun : List Action :=
  [.next] ++ .replicate 10 (.producer .ready) ++ [.signalStore, .signalNotify]

theorem cancelled_reader_refuses_iff_second : ∃ r r' tr,
    streamQuery (fun _ => .ok ()) 1 threeRows = .ok r ∧
    (reader fun _ => .ok ()).run r cancelledRun = some (r', tr) ∧
    r'.slot = some (.ok [[.bool false]]) ∧ Refuses (fun _ => .ok ()) tr r' := by
  obtain ⟨r, hopen⟩ : ∃ r, streamQuery (fun _ => .ok ()) 1 threeRows = .ok r := ⟨_, rfl⟩
  obtain ⟨r', hr, hidle, hf, hch, hslot⟩ : ∃ r', (reader fun _ => .ok ()).run r cancelledRun =
      some (r', [.batch [[.bool true]]]) ∧ r'.cons = .idle ∧ r'.first = none ∧ r'.chunks = true ∧
        r'.slot = some (.ok [[.bool false]]) := by
    cases hopen
    exact ⟨_, rfl, rfl, rfl, rfl, rfl⟩
  refine ⟨r, r', _, hopen, hr, hslot, ?_⟩
  refine (cancelled_reader_refuses_iff hopen hr (by simp [cancelledRun]) hidle ?_).mpr ?_
  · intro rows h
    cases h
  · exact ⟨by rw [hf]; rfl, .inl hch⟩

/-- The cancel has returned before the first read, and the first read gives a batch. -/
theorem first_chunk_masks_cancel : ∃ r r', streamQuery (fun _ => .ok ()) 1 threeRows = .ok r ∧
    (reader fun _ => .ok ()).run r [.signalStore, .signalNotify, .next] =
      some (r', [.batch [[.bool true]]]) :=
  ⟨_, _, rfl, rfl⟩

end Stream
end SpannerAdbc
