import SpannerAdbc.Ffi.Ledger

/-!
# SpannerAdbc.Ffi.Lifecycle

What holds of a handle in every interleaving of calls: `handle_lifecycle`.

* `Accounted`: the trace tells which objects are live and which one is in the slot.
* `Sound` and `Guard`: what the trace says about an object, and what the call that has its lock knows
  about it. A call without the lock changes neither.
-/

namespace SpannerAdbc
namespace Ffi
namespace Handle

open Lib Machine

variable {K V S H : Type}

/-! ## What the trace says -/

namespace Event

/-- The object that an event is about. -/
def object : Event K V H → Nat
  | .created p | .released p | .freed p | .fault p | .checked _ p _ | .buffered p _ _ | .entered _ p
  | .constructing _ p _ | .initialised p _ | .panicked p | .found _ p _ => p

def isCreated (p : Nat) : Event K V H → Bool
  | .created q => q = p
  | _ => false

def isFreed (p : Nat) : Event K V H → Bool
  | .freed q => q = p
  | _ => false

def bufferedOn (p : Nat) : Event K V H → Option (K × V)
  | .buffered q key value => if q = p then some (key, value) else none
  | _ => none

end Event

/-! ## What is created and freed -/

/-- The event is not one of the memory. -/
def Event.Inner : Event K V H → Prop
  | .created _ | .released _ | .freed _ | .fault _ => False
  | _ => True

section Inner

variable {e : Event K V H}

theorem Event.Inner.isCreated (h : e.Inner) {p : Nat} : e.isCreated p = false := by
  cases e <;> first | rfl | exact False.elim h

theorem Event.Inner.isFreed (h : e.Inner) {p : Nat} : e.isFreed p = false := by
  cases e <;> first | rfl | exact False.elim h

end Inner

structure Accounted (tr : List (Event K V H)) (s : Sys K V S H) : Prop where
  created : ∀ p, tr.countP (Event.isCreated p) = if p < s.heap.fresh then 1 else 0
  freed : ∀ p, tr.countP (Event.isFreed p) =
    if p < s.heap.fresh ∧ s.heap.read p = none then 1 else 0
  populated : ∀ p, s.slot = some p ↔ .created p ∈ tr ∧ .released p ∉ tr

namespace Accounted

open Ledger (fresh_settle read_settle)

variable {kind : Kind} {s s' : Sys K V S H} {tr es : List (Event K V H)}

/-- Events that are not of the memory change no account. -/
theorem inner (h : Accounted tr s) (hes : ∀ e ∈ es, e.Inner) : Accounted (tr ++ es) s where
  created p := by
    have hnone : es.countP (Event.isCreated p) = 0 :=
      List.countP_eq_zero.mpr fun e he => by simp [(hes e he).isCreated]
    rw [List.countP_append, hnone, Nat.add_zero, h.created p]
  freed p := by
    have hnone : es.countP (Event.isFreed p) = 0 :=
      List.countP_eq_zero.mpr fun e he => by simp [(hes e he).isFreed]
    rw [List.countP_append, hnone, Nat.add_zero, h.freed p]
  populated p := by
    have hc : .created p ∉ es := fun hmem => hes _ hmem
    have hr : .released p ∉ es := fun hmem => hes _ hmem
    rw [h.populated p]
    simp [hc, hr]

theorem with_calls (h : Accounted tr s) (calls : List (Call K V × Phase S H)) :
    Accounted tr { s with calls } := ⟨h.created, h.freed, h.populated⟩

theorem created_mem (h : Accounted tr s) {p : Nat} : .created p ∈ tr ↔ p < s.heap.fresh := by
  have hc := h.created p
  constructor
  · intro hmem
    by_contra hlt
    rw [if_neg hlt, List.countP_eq_zero] at hc
    exact hc _ hmem (by simp [Event.isCreated])
  · intro hlt
    rw [if_pos hlt] at hc
    obtain ⟨e, he, hp⟩ := List.countP_pos_iff.mp (hc ▸ Nat.one_pos)
    cases e with
    | created q =>
      rw [Event.isCreated, decide_eq_true_eq] at hp
      exact hp ▸ he
    | _ => cases hp

theorem started (h : Accounted tr s) {call : Call K V} {slot : Option Nat} {phase : Phase S H}
    (hstart : Starts s call slot phase es) : Accounted (tr ++ es) { s with slot } := by
  cases hstart with
  | @took hrelease p hslot =>
    refine ⟨fun q => ?_, fun q => ?_, fun q => ?_⟩
    · rw [List.countP_append, h.created q]
      simp [Event.isCreated]
    · rw [List.countP_append, h.freed q]
      simp [Event.isFreed]
    · have hq := h.populated q
      rw [hslot] at hq
      simp only [List.mem_append, List.mem_singleton, reduceCtorEq, or_false, Event.released.injEq,
        false_iff, not_and, not_not]
      intro hc
      by_cases hr : .released q ∈ tr
      · exact .inl hr
      · exact .inr (Option.some.inj (hq.mpr ⟨hc, hr⟩)).symm
  | _ => exact h.inner (by simp)

theorem create (h : Accounted tr s) (hfresh : ∀ e ∈ tr, e.object < s.heap.fresh)
    (hslot : s.slot = none) (o : Exported K V S H)
    (handle : Option H) :
    Accounted (tr ++ .created s.heap.fresh :: handle.toList.map (.initialised s.heap.fresh))
      { s with slot := some s.heap.fresh, heap := s.heap.alloc o } := by
  have hone : Accounted (tr ++ [.created s.heap.fresh])
      { s with slot := some s.heap.fresh, heap := s.heap.alloc o } := by
    refine ⟨fun p => ?_, fun p => ?_, fun p => ?_⟩
    · rw [List.countP_append, h.created p, Heap.fresh_alloc]
      by_cases hp : p = s.heap.fresh
      · simp [hp, Event.isCreated]
      · have hiff : p < s.heap.fresh + 1 ↔ p < s.heap.fresh := by omega
        simp [Event.isCreated, hiff, Ne.symm hp]
    · rw [List.countP_append, h.freed p, Heap.fresh_alloc, Heap.read_alloc]
      by_cases hp : p = s.heap.fresh
      · simp [hp, Event.isFreed]
      · have hiff : p < s.heap.fresh + 1 ↔ p < s.heap.fresh := by omega
        simp [Event.isFreed, hiff, hp]
    · have hp := h.populated p
      rw [hslot] at hp
      simp only [reduceCtorEq, false_iff, not_and, not_not] at hp
      simp only [Option.some.injEq, List.mem_append, List.mem_singleton, Event.created.injEq,
        reduceCtorEq, or_false]
      constructor
      · rintro rfl
        exact ⟨.inr rfl, fun hr => absurd (hfresh _ hr) (Nat.lt_irrefl _)⟩
      · rintro ⟨hc | hc, hr⟩
        · exact absurd (hp hc) hr
        · exact hc.symm
  have hinner : ∀ e ∈ (handle.toList.map (.initialised s.heap.fresh) : List (Event K V H)),
      e.Inner := by
    intro e he
    obtain ⟨handle', -, rfl⟩ := List.mem_map.mp he
    trivial
  have hall := hone.inner hinner
  rwa [List.append_assoc] at hall

theorem settle (h : Accounted tr s) {p : Nat} {o o' : Exported K V S H}
    (hread : s.heap.read p = some o) :
    Accounted (tr ++ if o'.strong = 0 then [.freed p] else [])
      { s with heap := Sys.settle s.heap p o' } := by
  have hlt := Heap.lt_fresh_of_read hread
  split
  · rename_i hz
    refine ⟨fun q => ?_, fun q => ?_, fun q => ?_⟩
    · rw [List.countP_append, h.created q, fresh_settle]
      simp [Event.isCreated]
    · rw [List.countP_append, h.freed q, fresh_settle, read_settle hread]
      by_cases hq : q = p
      · simp [hq, hread, hz, hlt, Event.isFreed]
      · simp [hq, Ne.symm hq, Event.isFreed]
    · rw [h.populated q]
      simp
  · rename_i hz
    rw [List.append_nil]
    refine ⟨fun q => ?_, fun q => ?_, h.populated⟩
    · rw [h.created q, fresh_settle]
    · rw [h.freed q, fresh_settle, read_settle hread]
      by_cases hq : q = p
      · simp [hq, hread, hz]
      · simp [hq]

theorem empty : Accounted [] (Sys.empty : Sys K V S H) := by
  refine ⟨fun p => ?_, fun p => ?_, fun p => ?_⟩ <;> simp [Sys.empty, Heap.empty, Heap.fresh]

end Accounted

/-! ## The object and the trace -/

/-- The event changes nothing of what the trace says about the object `p`. -/
def Event.Silent (p : Nat) : Event K V H → Prop
  | .buffered q _ _ | .initialised q _ | .panicked q => q ≠ p
  | _ => True

section Silent

variable {p : Nat} {tr es : List (Event K V H)}

theorem panicked_append (h : ∀ e ∈ es, e.Silent p) : .panicked p ∈ tr ++ es ↔ .panicked p ∈ tr := by
  refine ⟨fun hmem => ?_, List.mem_append_left es⟩
  rcases List.mem_append.mp hmem with hmem | hmem
  · exact hmem
  · exact absurd rfl (h _ hmem)

theorem initialised_append (h : ∀ e ∈ es, e.Silent p) {handle : H} :
    .initialised p handle ∈ tr ++ es ↔ .initialised p handle ∈ tr := by
  refine ⟨fun hmem => ?_, List.mem_append_left es⟩
  rcases List.mem_append.mp hmem with hmem | hmem
  · exact hmem
  · exact absurd rfl (h _ hmem)

theorem Event.Silent.bufferedOn {e : Event K V H} (h : e.Silent p) : e.bufferedOn p = none := by
  cases e with
  | buffered q key value => exact if_neg h
  | _ => rfl

end Silent

variable [DecidableEq K] {es : List (Event K V H)}

/-- The options that the calls have buffered on an object: one entry for each key, with its last
value. -/
def buffered (p : Nat) (tr : List (Event K V H)) : List (K × V) :=
  collapse (tr.filterMap (Event.bufferedOn p))

/-- An event that may come behind the events `l`. No object is touched that is not live. A call is let
in if and only if no call has panicked on the object, and driver code is run on no other terms; the
constructor gets all options that were buffered; and a cancel of an object that is initialised
finds its handle. -/
def Permitted (kind : Kind) (l : List (Event K V H)) : Event K V H → Prop
  | .fault _ => False
  | .checked _ p refused => refused = true ↔ .panicked p ∈ l
  | .entered _ p => .panicked p ∉ l
  | .constructing _ p entries => .panicked p ∉ l ∧ entries = buffered p l
  | .found _ p handle => kind ≠ .database → ∀ h, .initialised p h ∈ l → handle = some h
  | _ => True

section Buffered

variable {p : Nat} {tr es : List (Event K V H)}

theorem buffered_append (h : ∀ e ∈ es, e.bufferedOn p = none) :
    buffered p (tr ++ es) = buffered p tr := by
  have hnone : es.filterMap (Event.bufferedOn p) = [] := List.filterMap_eq_nil_iff.mpr h
  rw [buffered, List.filterMap_append, hnone, List.append_nil, buffered]

theorem buffered_concat (key : K) (value : V) :
    buffered p (tr ++ [.buffered p key value]) = upsert key value (buffered p tr) := by
  have hone : [(.buffered p key value : Event K V H)].filterMap (Event.bufferedOn p) =
      [(key, value)] := by
    simp [Event.bufferedOn]
  rw [buffered, List.filterMap_append, hone, collapse_concat, buffered]

end Buffered

section Objects

variable (kind : Kind) (tr : List (Event K V H)) (p : Nat) (o : Exported K V S H)

/-- What is known of a live object from the trace. -/
structure Sound : Prop where
  pending : ∀ entries, o.state = .pending entries →
    entries = buffered p tr ∧ ∀ h, .initialised p h ∉ tr
  ready : ∀ driver, o.state = .ready driver → ∃ h, .initialised p h ∈ tr
  handle : kind ≠ .database → ∀ h, .initialised p h ∈ tr → o.cancel = some h
  flag : o.poisoned = true → .panicked p ∈ tr

/-- What the call that has the lock knows. -/
def Guard : Pc S H → Prop
  | .allowed => .panicked p ∉ tr
  | .operating => .panicked p ∉ tr ∧ ∃ driver, o.state = .ready driver
  | .constructing | .install _ _ => .panicked p ∉ tr ∧ ∃ entries, o.state = .pending entries
  | .publish _ handle => .panicked p ∉ tr ∧ (∃ entries, o.state = .pending entries) ∧
      (kind ≠ .database → o.cancel = some handle)
  | .poison _ => .panicked p ∈ tr
  | _ => True

end Objects

section Turned

variable {kind : Kind} {i p : Nat} {o o' : Exported K V S H} {pc : Pc S H} {phase : Phase S H}
  {tr es : List (Event K V H)}

theorem Sound.congr (h : Sound kind tr p o) (hes : ∀ e ∈ es, e.Silent p)
    (hstate : o'.state = o.state) (hcancel : o'.cancel = o.cancel)
    (hpoisoned : o'.poisoned = o.poisoned) : Sound kind (tr ++ es) p o' where
  pending entries hs := by
    obtain ⟨hentries, hinit⟩ := h.pending entries (hstate ▸ hs)
    rw [buffered_append fun e he => (hes e he).bufferedOn]
    exact ⟨hentries, fun handle => (initialised_append hes).not.mpr (hinit handle)⟩
  ready driver hs := by
    obtain ⟨handle, hinit⟩ := h.ready driver (hstate ▸ hs)
    exact ⟨handle, List.mem_append_left es hinit⟩
  handle hk handle hinit := by
    rw [hcancel]
    exact h.handle hk handle ((initialised_append hes).mp hinit)
  flag hp := List.mem_append_left es (h.flag (hpoisoned ▸ hp))

omit [DecidableEq K] in
theorem Guard.congr (h : Guard kind tr p o pc) (hes : ∀ e ∈ es, e.Silent p)
    (hstate : o'.state = o.state) (hcancel : o'.cancel = o.cancel) :
    Guard kind (tr ++ es) p o' pc := by
  cases pc <;> simp only [Guard, panicked_append hes, hstate, hcancel] at h ⊢ <;> exact h

namespace Turns

/-- A call without the lock leaves what it protects as it is. -/
theorem unlocked (h : Turns kind i p o pc o' phase es) (hl : pc.locks = false) :
    (∀ e ∈ es, e.Silent p) ∧ o'.state = o.state ∧ o'.cancel = o.cancel ∧
      o'.poisoned = o.poisoned := by
  cases h <;> first | (simp [Event.Silent]; done) | cases hl

theorem object_eq (h : Turns kind i p o pc o' phase es) {e : Event K V H} (he : e ∈ es) :
    e.object = p := by
  cases h <;> simp at he <;> subst he <;> rfl

theorem silent_other (h : Turns kind i p o pc o' phase es) {q : Nat} (hq : q ≠ p) :
    ∀ e ∈ es, e.Silent q := by
  intro e he
  have ho := h.object_eq he
  cases e <;> first | trivial | exact fun heq => hq (heq ▸ ho)

theorem sound (h : Turns kind i p o pc o' phase es) (hs : Sound kind tr p o)
    (hg : Guard kind tr p o pc) : Sound kind (tr ++ es) p o' := by
  cases h with
  | buffered key value hstate =>
    obtain ⟨rfl, hinit⟩ := hs.pending _ hstate
    refine ⟨fun entries heq => ?_, nofun, fun hk handle hmem => ?_, fun hp => ?_⟩
    · cases heq
      exact ⟨(buffered_concat key value).symm, by simpa using hinit⟩
    · exact absurd (by simpa using hmem) (hinit handle)
    · exact List.mem_append_left _ (hs.flag hp)
  | operated driver result =>
    obtain ⟨driver₀, hstate⟩ := hg.2
    rw [List.append_nil]
    exact ⟨nofun, fun _ _ => hs.ready driver₀ hstate, hs.handle, hs.flag⟩
  | operatedPanic driver message =>
    obtain ⟨driver₀, hstate⟩ := hg.2
    obtain ⟨handle, hinit⟩ := hs.ready driver₀ hstate
    refine ⟨nofun, fun _ _ => ⟨handle, List.mem_append_left _ hinit⟩, fun hk handle hmem => ?_,
      fun _ => by simp⟩
    exact hs.handle hk handle (by simpa using hmem)
  | failedPanic message =>
    refine ⟨fun entries hstate => ?_, fun driver hstate => ?_, fun hk handle hmem => ?_,
      fun _ => by simp⟩
    · obtain ⟨hentries, hinit⟩ := hs.pending entries hstate
      rw [buffered_append (by simp [Event.bufferedOn])]
      exact ⟨hentries, by simpa using hinit⟩
    · obtain ⟨handle, hinit⟩ := hs.ready driver hstate
      exact ⟨handle, List.mem_append_left _ hinit⟩
    · exact hs.handle hk handle (by simpa using hmem)
  | install driver handle =>
    obtain ⟨entries, hstate⟩ := hg.2
    obtain ⟨hentries, hinit⟩ := hs.pending entries hstate
    rw [List.append_nil]
    exact ⟨hs.pending, hs.ready, fun _ handle' hmem => absurd hmem (hinit handle'), hs.flag⟩
  | publish driver handle =>
    obtain ⟨-, ⟨entries, hstate⟩, hcancel⟩ := hg
    obtain ⟨-, hinit⟩ := hs.pending entries hstate
    refine ⟨nofun, fun _ _ => ⟨handle, by simp⟩, fun hk handle' hmem => ?_,
      fun hp => List.mem_append_left _ (hs.flag hp)⟩
    rcases List.mem_append.mp hmem with hmem | hmem
    · exact absurd hmem (hinit handle')
    · cases List.mem_singleton.mp hmem
      exact hcancel hk
  | poison message =>
    rw [List.append_nil]
    exact ⟨hs.pending, hs.ready, hs.handle, fun _ => hg⟩
  | _ => exact hs.congr (by simp [Event.Silent]) rfl rfl rfl

theorem guard (h : Turns kind i p o pc o' phase es) (hg : Guard kind tr p o pc)
    (hflag : pc = .locked → .panicked p ∈ tr → o.poisoned = true) {q : Nat} {pc' : Pc S H}
    (hphase : phase = .on q pc') : Guard kind (tr ++ es) p o' pc' := by
  cases h <;> cases hphase
  case allowed hp =>
    intro hmem
    have hpanicked := (panicked_append (by simp [Event.Silent])).mp hmem
    rw [hflag rfl hpanicked] at hp
    cases hp
  case entered driver hs =>
    exact ⟨(panicked_append (by simp [Event.Silent])).not.mpr hg, driver, hs⟩
  case constructing entries hs =>
    exact ⟨(panicked_append (by simp [Event.Silent])).not.mpr hg, entries, hs⟩
  case constructed driver handle =>
    rw [List.append_nil]
    exact hg
  case constructedDatabase hk driver handle =>
    rw [List.append_nil]
    exact ⟨hg.1, hg.2, fun hne => absurd hk hne⟩
  case install driver handle =>
    rw [List.append_nil]
    exact ⟨hg.1, hg.2, fun _ => rfl⟩
  case operatedPanic => simp [Guard]
  case failedPanic => simp [Guard]
  all_goals trivial

theorem permitted (h : Turns kind i p o pc o' phase es) (hs : Sound kind tr p o)
    (hg : Guard kind tr p o pc) (hflag : pc = .locked → .panicked p ∈ tr → o.poisoned = true) :
    Everywhere (fun l e => Permitted kind (tr ++ l) e) es := by
  cases h with
  | refused hp => exact .cons (by simpa [Permitted] using hs.flag hp) .nil
  | allowed hp =>
    refine .cons ?_ .nil
    simp only [Permitted, List.append_nil, Bool.false_eq_true, false_iff]
    intro hmem
    rw [hflag rfl hmem] at hp
    cases hp
  | entered hstate =>
    refine .cons ?_ .nil
    rw [List.append_nil]
    exact hg
  | constructing hstate =>
    refine .cons ?_ .nil
    rw [List.append_nil]
    exact ⟨hg, (hs.pending _ hstate).1⟩
  | missing result =>
    refine .cons ?_ .nil
    rw [List.append_nil]
    exact hs.handle
  | found =>
    refine .cons ?_ .nil
    rw [List.append_nil]
    exact hs.handle
  | buffered | operatedPanic | failedPanic | publish => exact .cons trivial .nil
  | _ => exact .nil

theorem panics (h : Turns kind i p o pc o' phase es) (hmem : .panicked p ∈ es) :
    ∃ message, phase = .on p (.poison message) := by
  cases h
  case operatedPanic message => exact ⟨message, rfl⟩
  case failedPanic message => exact ⟨message, rfl⟩
  all_goals simp at hmem

theorem poisoned_mono (h : Turns kind i p o pc o' phase es) (hp : o.poisoned = true) :
    o'.poisoned = true := by
  cases h
  case poison => rfl
  all_goals exact hp

theorem poisons {message : List Char} (h : Turns kind i p o (.poison message) o' phase es) :
    o'.poisoned = true := by
  cases h
  rfl

end Turns

omit [DecidableEq K] in
theorem guard_of_unlocked (hl : pc.locks = false) : Guard kind tr p o pc := by
  cases pc <;> trivial

end Turned

/-! ## The system and the trace -/

structure Described (kind : Kind) (tr : List (Event K V H)) (s : Sys K V S H) : Prop where
  fresh : ∀ e ∈ tr, e.object < s.heap.fresh
  sound : ∀ {p : Nat} {o : Exported K V S H}, s.heap.read p = some o → Sound kind tr p o
  held : ∀ {i p : Nat} {call : Call K V} {pc : Pc S H} {o : Exported K V S H},
    s.calls[i]? = some (call, .on p pc) → s.heap.read p = some o → pc.locks = true →
      o.holder = some i ∧ Guard kind tr p o pc
  /-- A panic has been stored, or the call that has caught it still has the lock. -/
  stored : ∀ {p : Nat} {o : Exported K V S H}, .panicked p ∈ tr → s.heap.read p = some o →
    o.poisoned = true ∨ ∃ (i : Nat) (call : Call K V) (message : List Char),
      s.calls[i]? = some (call, .on p (.poison message))

namespace Described

open Ledger (fresh_settle read_settled)

variable {kind : Kind} {s s' : Sys K V S H} {tr es : List (Event K V H)} {o : Exported K V S H}
  {call : Call K V} {i p : Nat} {phase : Phase S H} {pc : Pc S H} {answer : Answer S H}

theorem guard (h : Described kind tr s) (hi : s.calls[i]? = some (call, .on p pc))
    (hread : s.heap.read p = some o) : Guard kind tr p o pc := by
  cases hl : pc.locks with
  | false => exact guard_of_unlocked hl
  | true => exact (h.held hi hread hl).2

/-- A call that has the lock sees every panic in the flag. -/
theorem flag (h : Described kind tr s) (hi : s.calls[i]? = some (call, .on p pc))
    (hread : s.heap.read p = some o) (hpc : pc = .locked) (hmem : .panicked p ∈ tr) :
    o.poisoned = true := by
  subst hpc
  rcases h.stored hmem hread with hp | ⟨j, call', message, hj⟩
  · exact hp
  · have hij := (h.held hi hread rfl).1.symm.trans (h.held hj hread rfl).1
    cases hij
    rw [hi] at hj
    cases hj

/-- A step of the table or the slot that no call with a lock takes part in. -/
theorem quiet (h : Described kind tr s) {slot : Option Nat} {calls : List (Call K V × Phase S H)}
    (hfrom : ∀ {j p : Nat} {call : Call K V} {pc : Pc S H}, calls[j]? = some (call, .on p pc) →
      pc.locks = true → s.calls[j]? = some (call, .on p pc))
    (hto : ∀ {j p : Nat} {call : Call K V} {pc : Pc S H}, s.calls[j]? = some (call, .on p pc) →
      pc.locks = true → calls[j]? = some (call, .on p pc))
    (hsilent : ∀ p, ∀ e ∈ es, e.Silent p) (hes : ∀ e ∈ es, e.object < s.heap.fresh) :
    Described kind (tr ++ es) { s with slot, calls } where
  fresh e he := by
    rcases List.mem_append.mp he with he | he
    · exact h.fresh e he
    · exact hes e he
  sound hread := (h.sound hread).congr (hsilent _) rfl rfl rfl
  held hj hread hl := by
    obtain ⟨hholder, hguard⟩ := h.held (hfrom hj hl) hread hl
    exact ⟨hholder, hguard.congr (hsilent _) rfl rfl⟩
  stored hmem hread := by
    rcases h.stored ((panicked_append (hsilent _)).mp hmem) hread with hp | ⟨j, call, message, hj⟩
    · exact .inl hp
    · exact .inr ⟨j, call, message, hto hj rfl⟩

theorem called (h : Described kind tr s) (call : Call K V) :
    Described kind (tr ++ []) { s with calls := s.calls ++ [(call, .start)] } := by
  refine h.quiet (fun hj _ => ?_) (fun hj _ => ?_) (by simp) (by simp)
  · rw [List.getElem?_append] at hj
    split at hj
    · exact hj
    · cases List.mem_singleton.mp (List.mem_of_getElem? hj)
  · rw [List.getElem?_append, if_pos (List.getElem?_eq_some_iff.mp hj).1]
    exact hj

/-- A call outside of every object goes to a place without a lock. -/
theorem set (h : Described kind tr s) {phase' : Phase S H} (hi : s.calls[i]? = some (call, phase))
    (hphase : ∀ p pc, phase ≠ .on p pc) (hphase' : ∀ p pc, phase' = .on p pc → pc.locks = false)
    (slot : Option Nat) (hsilent : ∀ p, ∀ e ∈ es, e.Silent p)
    (hes : ∀ e ∈ es, e.object < s.heap.fresh) :
    Described kind (tr ++ es) { s with slot, calls := s.calls.set i (call, phase') } := by
  refine h.quiet (fun {j p c pc} hj hl => ?_) (fun {j p c pc} hj hl => ?_) hsilent hes
  · rw [getElem?_set_of hi] at hj
    split at hj
    · obtain ⟨-, heq⟩ := Prod.mk.inj (Option.some.inj hj)
      rw [hphase' p pc heq] at hl
      cases hl
    · exact hj
  · rw [getElem?_set_of hi, if_neg]
    · exact hj
    · rintro rfl
      rw [hi] at hj
      cases hj
      exact hphase p pc rfl

theorem started (h : Described kind tr s) (hi : s.calls[i]? = some (call, .start))
    {slot : Option Nat} (hstart : Starts s call slot phase es)
    (hslot : ∀ p, s.slot = some p → p < s.heap.fresh) :
    Described kind (tr ++ es) { s with slot, calls := s.calls.set i (call, phase) } := by
  cases hstart with
  | refused e => exact h.set hi nofun (fun _ _ heq => by cases heq) _ (by simp) (by simp)
  | create => exact h.set hi nofun (fun _ _ heq => by cases heq) _ (by simp) (by simp)
  | took hrelease hp =>
    refine h.set hi nofun (fun _ _ heq => ?_) _ (by simp [Event.Silent]) ?_
    · cases heq
      rfl
    · simpa [Event.object] using hslot _ hp
  | cancel =>
    refine h.set hi nofun (fun _ _ heq => ?_) _ (by simp) (by simp)
    cases heq
    rfl
  | dispatch =>
    refine h.set hi nofun (fun _ _ heq => ?_) _ (by simp) (by simp)
    cases heq
    rfl

/-- A new object, of which the trace says nothing yet. -/
theorem sound_made {handle : Option H} (h : Sys.made kind answer = some (.ok (o, handle)))
    (hfresh : ∀ e ∈ tr, e.object < p) :
    Sound kind (tr ++ .created p :: handle.toList.map (.initialised p)) p o := by
  have hinit : ∀ handle, .initialised p handle ∉ tr := fun handle hmem =>
    absurd (hfresh _ hmem) (Nat.lt_irrefl p)
  have hbuffered : buffered p tr = [] := by
    have hnone : ∀ e ∈ tr, e.bufferedOn p = none := by
      intro e he
      have hlt := hfresh e he
      cases e with
      | buffered q key value => exact if_neg (Nat.ne_of_lt hlt)
      | _ => rfl
    have happ : buffered p ([] ++ tr) = buffered p [] := buffered_append hnone
    rwa [List.nil_append] at happ
  unfold Sys.made at h
  split at h <;> cases h
  · rename_i driver handle
    refine ⟨nofun, fun _ _ => ⟨handle, by simp⟩, fun _ handle' hmem => ?_, nofun⟩
    have heq : handle' = handle := by simpa [hinit] using hmem
    rw [heq]
    rfl
  · refine ⟨fun entries heq => ?_, nofun, fun _ handle' hmem => ?_, nofun⟩
    · cases heq
      rw [buffered_append (by simp [Event.bufferedOn]), hbuffered]
      exact ⟨rfl, by simpa using hinit⟩
    · simp [hinit] at hmem

theorem created (h : Described kind tr s) (hl : Ledger s)
    (hi : s.calls[i]? = some (call, .create)) {handle : Option H}
    (hmade : Sys.made kind answer = some (.ok (o, handle))) :
    Described kind (tr ++ .created s.heap.fresh :: handle.toList.map (.initialised s.heap.fresh))
      { slot := some s.heap.fresh, heap := s.heap.alloc o,
        calls := s.calls.set i (call, .done (.ok ())) } := by
  have hsilent : ∀ {q : Nat}, q ≠ s.heap.fresh →
      ∀ e ∈ (.created s.heap.fresh :: handle.toList.map (.initialised s.heap.fresh) :
        List (Event K V H)), e.Silent q := by
    intro q hq e he
    rcases List.mem_cons.mp he with rfl | he
    · trivial
    · obtain ⟨handle', -, rfl⟩ := List.mem_map.mp he
      exact Ne.symm hq
  -- a call that has a lock is on an object that was there before
  have hold : ∀ {j p : Nat} {c : Call K V} {pc : Pc S H},
      (s.calls.set i (call, .done (.ok ())))[j]? = some (c, .on p pc) →
        s.calls[j]? = some (c, .on p pc) ∧ p ≠ s.heap.fresh := by
    intro j p c pc hj
    rw [getElem?_set_of hi] at hj
    split at hj
    · cases hj
    · refine ⟨hj, ?_⟩
      rintro rfl
      exact hl.live hj Heap.read_fresh
  refine ⟨fun e he => ?_, fun {p o₁} hread => ?_, fun {j p c pc o₁} hj hread hlocks => ?_,
    fun {p o₁} hmem hread => ?_⟩
  · simp only [Heap.fresh_alloc]
    rcases List.mem_append.mp he with he | he
    · have hlt := h.fresh e he
      omega
    · rcases List.mem_cons.mp he with rfl | he
      · exact Nat.lt_succ_self _
      · obtain ⟨handle', -, rfl⟩ := List.mem_map.mp he
        exact Nat.lt_succ_self _
  · simp only [Heap.read_alloc] at hread
    split at hread
    · rename_i hp
      cases hread
      rw [hp]
      exact sound_made hmade h.fresh
    · rename_i hp
      exact (h.sound hread).congr (hsilent hp) rfl rfl rfl
  · obtain ⟨hj, hp⟩ := hold hj
    simp only [Heap.read_alloc, if_neg hp] at hread
    obtain ⟨hholder, hguard⟩ := h.held hj hread hlocks
    exact ⟨hholder, hguard.congr (hsilent hp) rfl rfl⟩
  · by_cases hp : p = s.heap.fresh
    · have hnew : .panicked p ∉ (.created s.heap.fresh ::
          handle.toList.map (.initialised s.heap.fresh) : List (Event K V H)) := by
        simp
      rcases List.mem_append.mp hmem with hmem | hmem
      · have hlt : p < s.heap.fresh := h.fresh _ hmem
        omega
      · exact absurd hmem hnew
    · simp only [Heap.read_alloc, if_neg hp] at hread
      rcases h.stored ((panicked_append (hsilent hp)).mp hmem) hread with hp | ⟨j, c, message, hj⟩
      · exact .inl hp
      · refine .inr ⟨j, c, message, ?_⟩
        simp only [getElem?_set_of hi]
        rw [if_neg]
        · exact hj
        · rintro rfl
          rw [hi] at hj
          cases hj

theorem moved (h : Described kind tr s) (hi : s.calls[i]? = some (call, .on p pc))
    {o' : Exported K V S H} (hread : s.heap.read p = some o)
    (hturn : Turns kind i p o pc o' phase es) :
    Described kind (tr ++ es)
      { s with heap := Sys.settle s.heap p o', calls := s.calls.set i (call, phase) } := by
  have hguard := h.guard hi hread
  have hflag := h.flag hi hread
  have hholder : pc.locks = true → o.holder = some i := fun hl => (h.held hi hread hl).1
  refine ⟨fun e he => ?_, fun {q o₁} hq => ?_, fun {j q c pc' o₁} hj hq hlocks => ?_,
    fun {q o₁} hmem hq => ?_⟩
  · simp only [fresh_settle]
    rcases List.mem_append.mp he with he | he
    · exact h.fresh e he
    · rw [hturn.object_eq he]
      exact Heap.lt_fresh_of_read hread
  · rcases read_settled hread hq with ⟨rfl, rfl⟩ | ⟨hqp, hq⟩
    · exact hturn.sound (h.sound hread) hguard
    · exact (h.sound hq).congr (hturn.silent_other hqp) rfl rfl rfl
  · simp only [getElem?_set_of hi] at hj
    split at hj
    · rename_i hji
      subst hji
      obtain ⟨-, hphase⟩ := Prod.mk.inj (Option.some.inj hj)
      obtain rfl := hturn.object_of_phase hphase
      obtain ⟨-, rfl⟩ | ⟨hqp, -⟩ := read_settled hread hq
      · exact ⟨hturn.holder_self hholder hphase hlocks, hturn.guard hguard hflag hphase⟩
      · exact absurd rfl hqp
    · rename_i hji
      rcases read_settled hread hq with ⟨rfl, rfl⟩ | ⟨hqp, hq⟩
      · -- the other call has the lock, so this one has not
        obtain ⟨hother, hguard'⟩ := h.held hj hread hlocks
        have hl : pc.locks = false := by
          by_contra hl
          have heq := (hholder (by simpa using hl)).symm.trans hother
          exact hji (Option.some.inj heq).symm
        obtain ⟨hsilent, hstate, hcancel, -⟩ := hturn.unlocked hl
        exact ⟨hturn.holder_other hholder hji hother, hguard'.congr hsilent hstate hcancel⟩
      · obtain ⟨hother, hguard'⟩ := h.held hj hq hlocks
        exact ⟨hother, hguard'.congr (hturn.silent_other hqp) rfl rfl⟩
  · have hkeep : ∀ {j : Nat} {c : Call K V} {message : List Char}, j ≠ i →
        s.calls[j]? = some (c, .on q (.poison message)) →
        (s.calls.set i (call, phase))[j]? = some (c, .on q (.poison message)) := by
      intro j c message hji hj
      rw [getElem?_set_of hi, if_neg hji]
      exact hj
    rcases read_settled hread hq with ⟨rfl, rfl⟩ | ⟨hqp, hq⟩
    · rcases List.mem_append.mp hmem with hmem | hmem
      · rcases h.stored hmem hread with hp | ⟨j, c, message, hj⟩
        · exact .inl (hturn.poisoned_mono hp)
        · by_cases hji : j = i
          · subst hji
            rw [hi] at hj
            cases hj
            exact .inl hturn.poisons
          · exact .inr ⟨j, c, message, hkeep hji hj⟩
      · obtain ⟨message, rfl⟩ := hturn.panics hmem
        exact .inr ⟨i, call, message, by simp only [getElem?_set_of hi, if_true]⟩
    · rcases h.stored ((panicked_append (hturn.silent_other hqp)).mp hmem) hq with
        hp | ⟨j, c, message, hj⟩
      · exact .inl hp
      · refine .inr ⟨j, c, message, hkeep ?_ hj⟩
        rintro rfl
        rw [hi] at hj
        cases hj
        exact hqp rfl

theorem step (h : Described kind tr s) (hl : Ledger s) (hstep : Steps kind s s' es) :
    Described kind (tr ++ es) s' := by
  cases hstep with
  | called hclear => exact h.called _
  | started hi hstart => exact h.started hi hstart fun p hp => hl.slot_lt hp
  | failed hi e => exact h.set hi nofun (fun _ _ heq => by cases heq) _ (by simp) (by simp)
  | created hi hmade => exact h.created hl hi hmade
  | @moved i p call pc hi o o' hread phase es hturn =>
    rw [← List.append_assoc]
    refine (h.moved hi hread hturn).quiet (fun hj _ => hj) (fun hj _ => hj) ?_ ?_
    · intro q e he
      split at he
      · cases List.mem_singleton.mp he
        trivial
      · cases he
    · intro e he
      split at he
      · cases List.mem_singleton.mp he
        simp only [fresh_settle]
        exact Heap.lt_fresh_of_read hread
      · cases he

theorem empty : Described kind [] (Sys.empty : Sys K V S H) where
  fresh e he := by cases he
  sound hread := by cases hread
  held hi := by simp [Sys.empty] at hi
  stored hmem := by cases hmem

end Described

theorem Turns.inner {kind : Kind} {i p : Nat} {o o' : Exported K V S H} {pc : Pc S H}
    {phase : Phase S H} (h : Turns kind i p o pc o' phase es) :
    ∀ e ∈ es, e.Inner := by
  cases h <;> simp [Event.Inner]

theorem Accounted.step {kind : Kind} {s s' : Sys K V S H} {tr : List (Event K V H)}
    (h : Accounted tr s) (hl : Ledger s) (hd : Described kind tr s) (hstep : Steps kind s s' es) :
    Accounted (tr ++ es) s' := by
  cases hstep with
  | called hclear => exact (h.inner (by simp)).with_calls _
  | started hi hstart => exact (h.started hstart).with_calls _
  | failed hi e => exact (h.inner (by simp)).with_calls _
  | created hi hmade => exact (h.create hd.fresh (hl.create hi).2 _ _).with_calls _
  | moved hi hread hturn =>
    rw [← List.append_assoc]
    exact ((h.inner hturn.inner).settle hread).with_calls _

/-! ## Every run -/

/-- A call that has found the poison flag set ends with the error that says so. -/
def Refuses (kind : Kind) (tr : List (Event K V H)) (s : Sys K V S H) : Prop :=
  ∀ i p, .checked i p true ∈ tr → ∃ call,
    s.calls[i]? = some (call, .on p (.unlock (.error (poisoned kind)))) ∨
      s.calls[i]? = some (call, .done (.error (poisoned kind)))

section Run

variable {kind : Kind} {asRef : K → List Char} {s s' : Sys K V S H} {tr es : List (Event K V H)}
  {phase : Phase S H} {i p : Nat} {call : Call K V} {o o' : Exported K V S H}

theorem Turns.refuses {j q : Nat} {pc : Pc S H} (h : Turns kind i p o pc o' phase es)
    (hmem : .checked j q true ∈ es) :
    j = i ∧ q = p ∧ phase = .on p (.unlock (.error (poisoned kind))) := by
  cases h
  case refused =>
    cases List.mem_singleton.mp hmem
    exact ⟨rfl, rfl, rfl⟩
  all_goals simp at hmem

theorem Turns.unlocks {result : Except Error Unit}
    (h : Turns kind i p o (.unlock result) o' phase es) :
    phase = .done result := by
  cases h
  rfl

omit [DecidableEq K] in
/-- A call other than those that were refused moves. -/
theorem Refuses.set (h : Refuses kind tr s) (hi : s.calls[i]? = some (call, phase))
    (hphase : ∀ p, phase ≠ .on p (.unlock (.error (poisoned kind))))
    (hdone : phase ≠ .done (.error (poisoned kind))) (phase' : Phase S H) (slot : Option Nat)
    (heap : Heap (Exported K V S H)) :
    Refuses kind tr { slot, heap, calls := s.calls.set i (call, phase') } := by
  intro j p hmem
  obtain ⟨c, hj⟩ := h j p hmem
  refine ⟨c, ?_⟩
  simp only [getElem?_set_of hi]
  rw [if_neg]
  · exact hj
  · rintro rfl
    rw [hi] at hj
    rcases hj with hj | hj <;> cases hj
    · exact hphase p rfl
    · exact hdone rfl

theorem Refuses.step (h : Refuses kind tr s) (hstep : Steps kind s s' es) :
    Refuses kind (tr ++ es) s' := by
  cases hstep with
  | called hclear =>
    intro i p hmem
    obtain ⟨c, hi⟩ := h i p (by simpa using hmem)
    refine ⟨c, ?_⟩
    rcases hi with hi | hi
    · exact .inl (by rw [List.getElem?_append, if_pos (List.getElem?_eq_some_iff.mp hi).1, hi])
    · exact .inr (by rw [List.getElem?_append, if_pos (List.getElem?_eq_some_iff.mp hi).1, hi])
  | started hi hstart =>
    intro j p hmem
    refine h.set hi nofun nofun _ _ _ j p ?_
    cases hstart <;> simpa using hmem
  | failed hi e =>
    intro j p hmem
    exact h.set hi nofun nofun _ _ _ j p (by simpa using hmem)
  | created hi hmade =>
    intro j p hmem
    exact h.set hi nofun nofun _ _ _ j p (by simpa using hmem)
  | @moved i p call pc hi o o' hread phase es hturn =>
    intro j q hmem
    have hmem' : .checked j q true ∈ tr ∨ .checked j q true ∈ es := by
      rw [List.mem_append, List.mem_append] at hmem
      rcases hmem with hmem | hmem | hmem
      · exact .inl hmem
      · exact .inr hmem
      · split at hmem <;> simp at hmem
    rcases hmem' with hmem | hmem
    · by_cases hji : j = i
      · subst hji
        obtain ⟨c, hj⟩ := h j q hmem
        rw [hi] at hj
        rcases hj with hj | hj <;> cases hj
        refine ⟨call, .inr ?_⟩
        simp only [getElem?_set_of hi, if_true, hturn.unlocks]
      · obtain ⟨c, hj⟩ := h j q hmem
        refine ⟨c, ?_⟩
        simp only [getElem?_set_of hi, if_neg hji]
        exact hj
    · obtain ⟨rfl, rfl, rfl⟩ := hturn.refuses hmem
      exact ⟨call, .inl (by simp only [getElem?_set_of hi, if_true])⟩

theorem permitted_step (h : Everywhere (Permitted kind) tr) (hd : Described kind tr s)
    (hstep : Steps kind s s' es) : Everywhere (Permitted kind) (tr ++ es) := by
  refine h.append ?_
  cases hstep with
  | called | failed => exact .nil
  | started hi hstart =>
    cases hstart with
    | took => exact .cons trivial .nil
    | _ => exact .nil
  | @created i call hi o handle answer hmade =>
    refine .cons trivial ?_
    cases handle with
    | none => exact .nil
    | some handle => exact .cons trivial .nil
  | moved hi hread hturn =>
    refine (hturn.permitted (hd.sound hread) (hd.guard hi hread) (hd.flag hi hread)).append ?_
    split
    · exact .cons trivial .nil
    · exact .nil

structure Invariant (kind : Kind) (tr : List (Event K V H)) (s : Sys K V S H) : Prop where
  ledger : Ledger s
  described : Described kind tr s
  accounted : Accounted tr s
  refuses : Refuses kind tr s
  permitted : Everywhere (Permitted kind) tr

theorem Invariant.step {a : Action K V S H} (h : Invariant kind tr s)
    (hstep : ((handle kind asRef).guard Sys.newsApart).step s a = some (s', es)) :
    Invariant kind (tr ++ es) s' := by
  obtain ⟨hapart, hstep⟩ := guard_step hstep
  have hsteps := steps_of_step (fun hi => h.ledger.live hi) hapart hstep
  exact ⟨h.ledger.step hsteps, h.described.step h.ledger hsteps,
    h.accounted.step h.ledger h.described hsteps, h.refuses.step hsteps,
    permitted_step h.permitted h.described hsteps⟩

theorem Invariant.empty : Invariant kind [] (Sys.empty : Sys K V S H) :=
  ⟨.empty, .empty, .empty, nofun, .nil⟩

/-- What the caller can rely on behind the trace `tr`. -/
structure Contract (kind : Kind) (asRef : K → List Char) (tr : List (Event K V H))
    (s : Sys K V S H) : Prop where
  permitted : Everywhere (Permitted kind) tr
  createdOnce : ∀ p, tr.countP (Event.isCreated p) ≤ 1
  /-- An object is freed once, when the slot and all calls have given up their references. -/
  freedOnce : ∀ p, .created p ∈ tr →
    tr.countP (Event.isFreed p) = if s.refs p = 0 then 1 else 0
  populated : ∀ p, s.slot = some p ↔ .created p ∈ tr ∧ .released p ∉ tr
  /-- A call that finds the slot empty ends there. -/
  refused : ∀ {i : Nat} {call : Call K V}, s.calls[i]? = some (call, .start) →
    call.entry ≠ .new → s.slotOf call = none → ∀ answer, ∃ e,
      (handle kind asRef).step s (.turn i answer) =
        some ({ s with calls := s.calls.set i (call, .done (.error e)) }, [])
  /-- A `New` that finds the slot populated ends there. -/
  occupied : ∀ {i : Nat} {call : Call K V}, s.calls[i]? = some (call, .start) →
    call.entry = .new → s.slot ≠ none → ∀ answer, ∃ e,
      (handle kind asRef).step s (.turn i answer) =
        some ({ s with calls := s.calls.set i (call, .done (.error e)) }, [])
  /-- A `New` that has found the slot empty still finds it empty when it fills it. -/
  vacant : ∀ {i : Nat} {call : Call K V}, s.calls[i]? = some (call, .create) → s.slot = none
  poisoned : Refuses kind tr s
  /-- An `Init` of an object that is not initialised hands all options to the constructor. -/
  repeatable : ∀ {i p : Nat} {call : Call K V}, s.calls[i]? = some (call, .on p .allowed) →
    call.entry = .init → (∀ h, .initialised p h ∉ tr) → ∀ answer, ∃ s',
      (handle kind asRef).step s (.turn i answer) =
        some (s', [.constructing i p (buffered p tr)])
  /-- An object that is initialised has its cancel handle. -/
  cancellable : kind ≠ .database → ∀ {p : Nat} {o : Exported K V S H} {driver : S},
    s.heap.read p = some o → o.state = .ready driver →
      ∃ h, .initialised p h ∈ tr ∧ o.cancel = some h

theorem Invariant.freed (h : Invariant kind tr s) (hc : .created p ∈ tr) :
    tr.countP (Event.isFreed p) = if s.refs p = 0 then 1 else 0 := by
  have hlt := h.accounted.created_mem.mp hc
  have hrefs := h.ledger.refs p
  rw [h.accounted.freed p, ← hrefs, strongOf]
  cases hread : s.heap.read p with
  | none => simp [hlt]
  | some o =>
    have hpos := h.ledger.pos hread
    simp
    omega

theorem step_start (hi : s.calls[i]? = some (call, .start)) {e : Error}
    (h : s.start kind call = (s.slot, .done (.error e), [])) (answer : Answer S H) :
    (handle kind asRef).step s (.turn i answer) =
      some ({ s with calls := s.calls.set i (call, .done (.error e)) }, []) := by
  change Sys.step kind asRef s (.turn i answer) = _
  simp only [Sys.step, hi, h]

theorem Invariant.repeatable (h : Invariant kind tr s)
    (hi : s.calls[i]? = some (call, .on p .allowed)) (hentry : call.entry = .init)
    (hinit : ∀ h, .initialised p h ∉ tr) (answer : Answer S H) :
    ∃ s', (handle kind asRef).step s (.turn i answer) =
      some (s', [.constructing i p (buffered p tr)]) := by
  obtain ⟨o, hread⟩ := Option.ne_none_iff_exists'.mp (h.ledger.live hi)
  have hs := h.described.sound hread
  have hpos := h.ledger.pos hread
  cases hstate : o.state with
  | ready driver =>
    obtain ⟨handle, hmem⟩ := hs.ready driver hstate
    exact absurd hmem (hinit handle)
  | pending entries =>
    obtain ⟨rfl, -⟩ := hs.pending entries hstate
    have hturn : turn kind asRef i p call answer o .allowed =
        some (o, .on p .constructing, [.constructing i p (buffered p tr)]) := by
      simp only [turn, body, hentry, hstate]
    refine ⟨{ s with heap := Sys.settle s.heap p o, calls := s.calls.set i (call, .on p .constructing) },
      ?_⟩
    change Sys.step kind asRef s (.turn i answer) = _
    simp only [Sys.step, hi, hread, hturn]
    rw [if_neg (by omega), List.append_nil]

theorem handle_lifecycle {as : List (Action K V S H)}
    (h : ((handle kind asRef).guard Sys.newsApart).run .empty as = some (s, tr)) :
    Contract kind asRef tr s := by
  have hinv : Invariant kind tr s := run_induction (fun hI hstep => hI.step hstep) .empty h
  refine ⟨hinv.permitted, fun p => ?_, fun p hc => hinv.freed hc, hinv.accounted.populated,
    fun hi hentry hslot answer => ?_, fun hi hentry hslot answer => ?_,
    fun hi => (hinv.ledger.create hi).2, hinv.refuses, hinv.repeatable, fun hk p o driver hread hs => ?_⟩
  · rw [hinv.accounted.created p]
    split <;> omega
  · obtain ⟨e, hstart⟩ := start_refused hentry hslot
    exact ⟨e, step_start hi hstart answer⟩
  · obtain ⟨e, hstart⟩ := start_occupied hentry hslot
    exact ⟨e, step_start hi hstart answer⟩
  · obtain ⟨handle, hmem⟩ := (hinv.described.sound hread).ready driver hs
    exact ⟨handle, hmem, (hinv.described.sound hread).handle hk handle hmem⟩

/-- A call that makes these steps. -/
def Call.runs (i : Nat) (entry : Entry Nat Nat) (answers : List (Answer Unit Unit)) :
    List (Action Nat Nat Unit Unit) := .call ⟨true, entry⟩ :: answers.map (.turn i)

/-- A connection whose first `Init` fails, and a cancel that is overtaken by the release. -/
def retried : List (Action Nat Nat Unit Unit) := List.flatten
  [Call.runs 0 .new [.silent, .silent],
    Call.runs 1 (.setOption (.ok 1) (.ok 2)) [.silent, .silent, .silent, .silent, .silent],
    Call.runs 2 .init
      [.silent, .silent, .silent, .silent, .ended (.error (invalidState [])), .silent],
    Call.runs 3 .init
      [.silent, .silent, .silent, .silent, .constructed () (), .silent, .silent, .silent],
    Call.runs 4 .cancel [.silent, .silent],
    Call.runs 5 .release [.silent, .ended .ok],
    [.silent, .silent, .ended .ok, .silent, .ended .ok].map (.turn 4)]

theorem handle_lifecycle_retried : ∃ s tr,
    ((handle .connection fun _ => []).guard Sys.newsApart).run Sys.empty retried = some (s, tr) ∧
      Contract .connection (fun _ => []) tr s ∧ s.slot = none ∧
      tr.countP (Event.isFreed 0) = 1 := by
  have hend : (((handle .connection fun _ => []).guard Sys.newsApart).run Sys.empty retried).map
      (fun r => (r.1.slot, r.2.countP (Event.isFreed 0))) = some (none, 1) := rfl
  obtain ⟨⟨s, tr⟩, hrun, heq⟩ := Option.map_eq_some_iff.mp hend
  obtain ⟨hslot, hfreed⟩ := Prod.mk.inj heq
  exact ⟨s, tr, hrun, handle_lifecycle hrun, hslot, hfreed⟩

/-- Two `New` calls that both find the slot empty, and the first fills it. -/
def twoNews : List (Action Nat Nat Unit Unit) :=
  [.call ⟨true, .new⟩, .call ⟨true, .new⟩, .turn 0 .silent, .turn 1 .silent, .turn 0 .silent]

/-- The second one then overwrites the slot, and the first object is live without a reference. -/
theorem overlapping_news_overwrite : ∃ s s' tr es,
    (handle .connection fun _ => []).run Sys.empty twoNews = some (s, tr) ∧ s.slot = some 0 ∧
      (handle .connection fun _ => []).step s (.turn 1 .silent) = some (s', es) ∧
      s'.slot = some 1 ∧ (s'.heap.read 0).isSome = true ∧ s'.refs 0 = 0 :=
  ⟨_, _, _, _, rfl, rfl, rfl, rfl, rfl, rfl⟩

end Run
end Handle
end Ffi
end SpannerAdbc
