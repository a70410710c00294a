import SpannerAdbc.Ffi.Handle

/-!
# SpannerAdbc.Ffi.Ledger

The steps of a handle as a relation, and its references.

The relation (`Starts`, `Turns`, `Steps`) is read off the functions of `Ffi.Handle`; what holds in
every run is then a case split over it. `Ledger` says that the reference count of an object is the
slot plus the calls that own a reference, so that a call that has only read the slot finds the object
alive as long as the slot is not emptied; and that is done by a release, which overlaps no such call.
-/

namespace SpannerAdbc
namespace Ffi
namespace Handle

open Lib

variable {K V S H : Type}

/-! ## The slot and the table of calls -/

section Starts

variable (s : Sys K V S H) (call : Call K V)

/-- What the first step of a call can do. -/
inductive Starts : Option Nat → Phase S H → List (Event K V H) → Prop where
  | refused (e : Error) : Starts s.slot (.done (.error e)) []
  | create (hnew : call.entry = .new) (hslot : s.slot = none) : Starts s.slot .create []
  | took (hrelease : call.entry = .release) {p : Nat} (hslot : s.slot = some p) :
      Starts none (.on p (.drop (.ok ()))) [.released p]
  | cancel {p : Nat} (hslot : s.slot = some p) : Starts s.slot (.on p .strong) []
  | dispatch {p : Nat} (hslot : s.slot = some p) : Starts s.slot (.on p .lock) []

variable {s call}

theorem slot_of_slotOf {p : Nat} (h : s.slotOf call = some p) : s.slot = some p := by
  rw [Sys.slotOf] at h
  split at h
  · exact h
  · cases h

theorem starts_start (kind : Kind) (s : Sys K V S H) (call : Call K V) :
    Starts s call (s.start kind call).1 (s.start kind call).2.1 (s.start kind call).2.2 := by
  unfold Sys.start
  split
  · rename_i hnew
    split
    · exact .refused _
    · split
      · exact .refused _
      · rename_i hslot
        exact .create hnew (by simpa using hslot)
  · rename_i hrelease
    split
    · exact .refused _
    · split
      · exact .refused _
      · rename_i hslot
        exact .took hrelease hslot
  · split
    · exact .refused _
    · rename_i hslot
      exact .cancel (slot_of_slotOf hslot)
  · exact .refused _
  · split
    · exact .refused _
    · rename_i hslot
      exact .dispatch (slot_of_slotOf hslot)

theorem start_refused {kind : Kind} (hentry : call.entry ≠ .new)
    (hslot : s.slotOf call = none) :
    ∃ e, s.start kind call = (s.slot, .done (.error e), []) := by
  unfold Sys.start
  split
  · rename_i hnew
    exact absurd hnew hentry
  · split
    · exact ⟨_, rfl⟩
    · rename_i hgiven
      have hnone : s.slot = none := by
        rw [Sys.slotOf, if_pos (by simpa using hgiven)] at hslot
        exact hslot
      rw [hnone]
      exact ⟨_, rfl⟩
  · rw [hslot]
    exact ⟨_, rfl⟩
  · exact ⟨_, rfl⟩
  · rw [hslot]
    exact ⟨_, rfl⟩

theorem start_occupied {kind : Kind} (hentry : call.entry = .new) (hslot : s.slot ≠ none) :
    ∃ e, s.start kind call = (s.slot, .done (.error e), []) := by
  rw [Sys.start, hentry]
  simp only
  split
  · exact ⟨_, rfl⟩
  · rw [if_pos (Option.isSome_iff_ne_none.mpr hslot)]
    exact ⟨_, rfl⟩

end Starts

theorem getElem?_set_of {α : Type} {l : List α} {i : Nat} {a : α} (h : l[i]? = some a) (b : α)
    (j : Nat) : (l.set i b)[j]? = if j = i then some b else l[j]? := by
  rw [List.getElem?_set]
  obtain ⟨hlt, -⟩ := List.getElem?_eq_some_iff.mp h
  by_cases hji : j = i
  · rw [if_pos hji.symm, if_pos hlt, if_pos hji]
  · rw [if_neg (Ne.symm hji), if_neg hji]

theorem countP_set_of {α : Type} {l : List α} {i : Nat} {a : α} (h : l[i]? = some a) (b : α)
    (f : α → Bool) : (l.set i b).countP f + (f a).toNat = l.countP f + (f b).toNat := by
  obtain ⟨hlt, rfl⟩ := List.getElem?_eq_some_iff.mp h
  rw [List.countP_set hlt]
  cases ha : f l[i] with
  | false => cases f b <;> simp
  | true =>
    have hpos : 0 < l.countP f := List.countP_pos_iff.mpr ⟨_, List.getElem_mem hlt, ha⟩
    cases f b <;> simp <;> omega

/-! ## The ledger -/

def Phase.ownsOf (p : Nat) : Phase S H → Bool
  | .on q pc => q = p && pc.owns
  | _ => false

/-- The calls that own a reference to an object. -/
def owners (calls : List (Call K V × Phase S H)) (p : Nat) : Nat :=
  calls.countP fun c => c.2.ownsOf p

/-- The references to an object. -/
def Sys.refs (s : Sys K V S H) (p : Nat) : Nat :=
  (if s.slot = some p then 1 else 0) + owners s.calls p

def strongOf (heap : Heap (Exported K V S H)) (p : Nat) : Nat :=
  ((heap.read p).map Exported.strong).getD 0

/-- A call that is under way leaves room for another one, and for no second `New`. -/
def Sys.clear (entry : Entry K V) (other : Call K V × Phase S H) : Bool :=
  other.2.isDone ||
    match entry, other.1.entry with
    | .release, .cancel => other.2.owns
    | .release, _ => false
    | _, .release => false
    | .new, .new => false
    | _, _ => true

theorem Sys.clear_of_admits {s : Sys K V S H} {call : Call K V} (hadmits : s.admits call = true)
    (hapart : s.newsApart (.call call) = true) : s.calls.all (Sys.clear call.entry) = true := by
  refine List.all_eq_true.mpr fun other hmem => ?_
  have htolerates := List.all_eq_true.mp hadmits other hmem
  obtain ⟨given, entry⟩ := call
  obtain ⟨⟨given', entry'⟩, phase⟩ := other
  simp only [Sys.tolerates, Sys.clear] at htolerates ⊢
  cases hdone : phase.isDone with
  | true => rfl
  | false =>
    rw [hdone] at htolerates
    cases entry with
    | new =>
      have hother := List.all_eq_true.mp hapart _ hmem
      rw [hdone] at hother
      cases entry' <;> first | exact htolerates | cases hother
    | _ => cases entry' <;> exact htolerates

structure Ledger (s : Sys K V S H) : Prop where
  refs : ∀ p, strongOf s.heap p = s.refs p
  pos : ∀ {p o}, s.heap.read p = some o → 0 < o.strong
  /-- A call without a reference of its own has the one of the slot. -/
  borrowed : ∀ {i p : Nat} {call : Call K V} {pc : Pc S H}, s.calls[i]? = some (call, .on p pc) →
    pc.owns = false → s.slot = some p
  create : ∀ {i : Nat} {call : Call K V}, s.calls[i]? = some (call, .create) →
    call.entry = .new ∧ s.slot = none
  /-- A call that is under way was admitted among the calls before it. -/
  admitted : ∀ {i j : Nat} {c c' : Call K V × Phase S H}, i < j → s.calls[i]? = some c →
    s.calls[j]? = some c' → c'.2.isDone = false → Sys.clear c'.1.entry c = true

namespace Ledger

variable {kind : Kind} {asRef : K → List Char} {s s' : Sys K V S H} {a : Action K V S H}
  {es : List (Event K V H)} {call : Call K V} {o o' : Exported K V S H} {phase phase' : Phase S H}
  {heap : Heap (Exported K V S H)} {i p : Nat} {c : Call K V × Phase S H}

theorem live (h : Ledger s) {pc : Pc S H} (hi : s.calls[i]? = some (call, .on p pc)) :
    s.heap.read p ≠ none := by
  intro hread
  have hrefs := h.refs p
  rw [strongOf, hread, Sys.refs] at hrefs
  cases ho : pc.owns with
  | false =>
    rw [if_pos (h.borrowed hi ho)] at hrefs
    simp at hrefs
    omega
  | true =>
    have hpos : 0 < owners s.calls p := by
      rw [owners, List.countP_pos_iff]
      exact ⟨_, List.mem_of_getElem? hi, by simp [Phase.ownsOf, ho]⟩
    simp at hrefs
    omega

theorem slot_lt (h : Ledger s) (hslot : s.slot = some p) : p < s.heap.fresh := by
  have hrefs := h.refs p
  rw [Sys.refs, if_pos hslot, strongOf] at hrefs
  cases hread : s.heap.read p with
  | none =>
    rw [hread] at hrefs
    simp at hrefs
    omega
  | some o => exact Heap.lt_fresh_of_read hread

/-- A release that is under way overlaps only cancels with a reference of their own. -/
theorem release_alone (h : Ledger s) {j : Nat} (hij : i ≠ j)
    (hi : s.calls[i]? = some (call, phase)) (hentry : call.entry = .release)
    (hdone : phase.isDone = false) (hj : s.calls[j]? = some c) :
    c.2.isDone = true ∨ c.2.owns = true := by
  rcases Nat.lt_or_gt_of_ne hij with hlt | hlt
  · by_contra hc
    simp only [not_or, Bool.not_eq_true] at hc
    have ht := h.admitted hlt hi hj hc.1
    simp only [Sys.clear, hdone, Bool.false_or] at ht
    split at ht <;> simp_all
  · have ht := h.admitted hlt hj hi hdone
    simp only [Sys.clear, hentry, Bool.or_eq_true] at ht
    rcases ht with ht | ht
    · exact .inl ht
    · split at ht <;> simp_all

theorem new_alone (h : Ledger s) {j : Nat} (hij : i ≠ j) {call' : Call K V}
    (hi : s.calls[i]? = some (call, phase)) (hentry : call.entry = .new)
    (hj : s.calls[j]? = some (call', phase')) (hentry' : call'.entry = .new) :
    phase.isDone = true ∨ phase'.isDone = true := by
  by_contra hc
  simp only [not_or, Bool.not_eq_true] at hc
  rcases Nat.lt_or_gt_of_ne hij with hlt | hlt
  · have ht := h.admitted hlt hi hj hc.2
    simp [Sys.clear, hentry, hentry', hc.1] at ht
  · have ht := h.admitted hlt hj hi hc.1
    simp [Sys.clear, hentry, hentry', hc.2] at ht

theorem admitted_set (h : Ledger s) (hi : s.calls[i]? = some (call, phase))
    (hdone : phase.isDone = false)
    (howns : phase.owns = true → phase'.owns = true ∨ phase'.isDone = true) {j k : Nat}
    {c' : Call K V × Phase S H} (hjk : j < k) (hj : (s.calls.set i (call, phase'))[j]? = some c)
    (hk : (s.calls.set i (call, phase'))[k]? = some c') (hc : c'.2.isDone = false) :
    Sys.clear c'.1.entry c = true := by
  rw [getElem?_set_of hi] at hj hk
  split at hj
  · rename_i hji
    cases hj
    rw [if_neg (by omega)] at hk
    have ht := h.admitted (hji ▸ hjk) hi hk hc
    simp only [Sys.clear, hdone, Bool.false_or, Bool.or_eq_true] at ht ⊢
    split at ht
    · rcases howns ht with ho | ho
      · exact .inr ho
      · exact .inl ho
    all_goals simp_all
  · split at hk
    · rename_i hki
      cases hk
      have ht := h.admitted (hki ▸ hjk) hj hi hdone
      exact ht
    · exact h.admitted hjk hj hk hc

theorem owners_set (hi : s.calls[i]? = some (call, phase)) (phase' : Phase S H) (p : Nat) :
    owners (s.calls.set i (call, phase')) p + (phase.ownsOf p).toNat =
      owners s.calls p + (phase'.ownsOf p).toNat :=
  countP_set_of hi (call, phase') fun c => c.2.ownsOf p

theorem owners_set_of_eq (hi : s.calls[i]? = some (call, phase))
    (h : phase'.ownsOf p = phase.ownsOf p) :
    owners (s.calls.set i (call, phase')) p = owners s.calls p := by
  have hset := owners_set hi phase' p
  rw [h] at hset
  omega

theorem read_settle (hread : heap.read p = some o) (q : Nat) : (Sys.settle heap p o').read q =
      if q = p then (if o'.strong = 0 then none else some o') else heap.read q := by
  rw [Sys.settle]
  split
  · exact Heap.read_clear
  · exact Heap.read_write hread

theorem fresh_settle :
    (Sys.settle heap p o).fresh = heap.fresh := by
  rw [Sys.settle]
  split
  · exact Heap.fresh_clear
  · exact Heap.fresh_write

/-- What is read after a step on an object: the object, or another one as it was. -/
theorem read_settled {q : Nat} {o₁ : Exported K V S H} (hread : heap.read p = some o)
    (hq : (Sys.settle heap p o').read q = some o₁) :
    q = p ∧ o₁ = o' ∨ q ≠ p ∧ heap.read q = some o₁ := by
  rw [read_settle hread] at hq
  split at hq
  · rename_i hqp
    split at hq
    · cases hq
    · cases hq
      exact .inl ⟨hqp, rfl⟩
  · rename_i hqp
    exact .inr ⟨hqp, hq⟩

theorem strongOf_settle (hread : heap.read p = some o) (q : Nat) :
    strongOf (Sys.settle heap p o') q =
      if q = p then o'.strong else strongOf heap q := by
  rw [strongOf, read_settle hread]
  by_cases hqp : q = p
  · rw [if_pos hqp, if_pos hqp]
    split
    · rename_i hz
      exact hz.symm
    · rfl
  · rw [if_neg hqp, if_neg hqp, strongOf]

theorem strong_made {answer : Answer S H} {handle : Option H}
    (h : Sys.made kind answer = some (.ok (o, handle))) : o.strong = 1 := by
  unfold Sys.made at h
  split at h <;> cases h <;> rfl

theorem called (h : Ledger s) (hclear : s.calls.all (Sys.clear call.entry) = true) :
    Ledger { s with calls := s.calls ++ [(call, .start)] } where
  refs p := by
    rw [h.refs p]
    simp [Sys.refs, owners, Phase.ownsOf]
  pos := h.pos
  borrowed {i p c pc} hi ho := by
    rw [List.getElem?_append] at hi
    split at hi
    · exact h.borrowed hi ho
    · cases List.mem_singleton.mp (List.mem_of_getElem? hi)
  create {i c} hi := by
    rw [List.getElem?_append] at hi
    split at hi
    · exact h.create hi
    · cases List.mem_singleton.mp (List.mem_of_getElem? hi)
  admitted {i j c c'} hij hi hj hc := by
    have hlt : j < (s.calls ++ [(call, Phase.start)]).length := (List.getElem?_eq_some_iff.mp hj).1
    rw [List.length_append, List.length_singleton] at hlt
    rw [List.getElem?_append, if_pos (by omega)] at hi
    rw [List.getElem?_append] at hj
    split at hj
    · exact h.admitted hij hi hj hc
    · cases List.mem_singleton.mp (List.mem_of_getElem? hj)
      exact List.all_eq_true.mp hclear c (List.mem_of_getElem? hi)

theorem started (h : Ledger s) (hi : s.calls[i]? = some (call, .start)) {slot : Option Nat}
    (hstart : Starts s call slot phase es) :
    Ledger { s with slot, calls := s.calls.set i (call, phase) } where
  refs p := by
    rw [h.refs p, Sys.refs, Sys.refs]
    cases hstart with
    | @took hrelease q hslot =>
      -- the reference of the slot becomes one of the call
      have hset := owners_set hi (.on q (.drop (.ok ()))) p
      rw [hslot]
      by_cases hqp : q = p <;> simp [hqp, Phase.ownsOf, Pc.owns] at hset ⊢ <;> omega
    | _ => rw [owners_set_of_eq hi (by simp [Phase.ownsOf, Pc.owns])]
  pos := h.pos
  borrowed {j p c pc} hj ho := by
    simp only [getElem?_set_of hi] at hj
    split at hj
    · cases hj
      cases hstart with
      | took hrelease hslot => cases ho
      | cancel hslot => exact hslot
      | dispatch hslot => exact hslot
    · rename_i hji
      have hslot := h.borrowed hj ho
      cases hstart with
      | took hrelease hslot' =>
        rcases h.release_alone (Ne.symm hji) hi hrelease rfl hj with hd | hd
        · cases hd
        · rw [Phase.owns, ho] at hd
          cases hd
      | _ => exact hslot
  create {j c} hj := by
    simp only [getElem?_set_of hi] at hj
    split at hj
    · cases hj
      cases hstart with
      | create hnew hslot => exact ⟨hnew, hslot⟩
    · obtain ⟨hentry, hslot⟩ := h.create hj
      cases hstart with
      | took hrelease hslot' => exact ⟨hentry, rfl⟩
      | _ => exact ⟨hentry, hslot⟩
  admitted := h.admitted_set hi rfl nofun

theorem failed (h : Ledger s) (hi : s.calls[i]? = some (call, .create)) (e : Error) :
    Ledger { s with calls := s.calls.set i (call, .done (.error e)) } where
  refs p := by
    have howners : owners (s.calls.set i (call, .done (.error e))) p = owners s.calls p :=
      owners_set_of_eq hi rfl
    rw [h.refs p, Sys.refs, Sys.refs, howners]
  pos := h.pos
  borrowed {j p c pc} hj ho := by
    simp only [getElem?_set_of hi] at hj
    split at hj
    · cases hj
    · exact h.borrowed hj ho
  create {j c} hj := by
    simp only [getElem?_set_of hi] at hj
    split at hj
    · cases hj
    · exact h.create hj
  admitted := h.admitted_set hi rfl nofun

theorem created (h : Ledger s) (hi : s.calls[i]? = some (call, .create)) (ho : o.strong = 1) :
    Ledger { slot := some s.heap.fresh, heap := s.heap.alloc o,
             calls := s.calls.set i (call, .done (.ok ())) } where
  refs p := by
    have hrefs := h.refs p
    simp only [Sys.refs, (h.create hi).2] at hrefs ⊢
    have howners : owners (s.calls.set i (call, .done (.ok ()))) p = owners s.calls p :=
      owners_set_of_eq hi rfl
    rw [howners]
    simp only [strongOf, Heap.read_alloc] at hrefs ⊢
    by_cases hp : p = s.heap.fresh
    · subst hp
      rw [Heap.read_fresh] at hrefs
      simp [ho] at hrefs ⊢
      omega
    · rw [if_neg hp, if_neg (by simpa using Ne.symm hp)]
      simp at hrefs
      omega
  pos {p o'} hread := by
    simp only [Heap.read_alloc] at hread
    split at hread
    · cases hread
      omega
    · exact h.pos hread
  borrowed {j p c pc} hj hb := by
    simp only [getElem?_set_of hi] at hj
    split at hj
    · cases hj
    · have hslot := h.borrowed hj hb
      rw [(h.create hi).2] at hslot
      cases hslot
  create {j c} hj := by
    simp only [getElem?_set_of hi] at hj
    split at hj
    · cases hj
    · rename_i hji
      rcases h.new_alone (Ne.symm hji) hi (h.create hi).1 hj (h.create hj).1 with hd | hd <;> cases hd
  admitted := h.admitted_set hi rfl nofun

theorem empty : Ledger (Sys.empty : Sys K V S H) where
  refs p := by simp [strongOf, Sys.refs, owners, Sys.empty, Heap.read_empty]
  pos hread := by cases hread
  borrowed hi := by simp [Sys.empty] at hi
  create hi := by simp [Sys.empty] at hi
  admitted _ hi := by simp [Sys.empty] at hi

end Ledger

variable [DecidableEq K]

/-! ## The steps as a relation -/

section Turns

variable (kind : Kind) (asRef : K → List Char) (i p : Nat) (o : Exported K V S H)

/-- What a call on an object can do: `turn`, without the entry point that decides between the
cases. -/
inductive Turns : Pc S H → Exported K V S H → Phase S H → List (Event K V H) → Prop where
  | lock (hfree : o.holder = none) : Turns .lock { o with holder := some i } (.on p .locked) []
  | refused (hp : o.poisoned = true) :
      Turns .locked o (.on p (.unlock (.error (poisoned kind)))) [.checked i p true]
  | allowed (hp : o.poisoned = false) : Turns .locked o (.on p .allowed) [.checked i p false]
  | declined (e : Error) : Turns .allowed o (.on p (.unlock (.error e))) []
  | buffered (key : K) (value : V) {entries : List (K × V)} (hs : o.state = .pending entries) :
      Turns .allowed { o with state := .pending (upsert key value entries) }
        (.on p (.unlock (.ok ()))) [.buffered p key value]
  | entered {state : S} (hs : o.state = .ready state) :
      Turns .allowed o (.on p .operating) [.entered i p]
  | constructing {entries : List (K × V)} (hs : o.state = .pending entries) :
      Turns .allowed o (.on p .constructing) [.constructing i p entries]
  | operated (state : S) (result : Except Error Unit) :
      Turns .operating { o with state := .ready state } (.on p (.unlock result)) []
  | operatedPanic (state : S) (message : List Char) :
      Turns .operating { o with state := .ready state } (.on p (.poison message)) [.panicked p]
  | constructed (state : S) (handle : H) :
      Turns .constructing o (.on p (.install state handle)) []
  | constructedDatabase (hk : kind = .database) (state : S) (handle : H) :
      Turns .constructing o (.on p (.publish state handle)) []
  | failed (result : Except Error Unit) : Turns .constructing o (.on p (.unlock result)) []
  | failedPanic (message : List Char) :
      Turns .constructing o (.on p (.poison message)) [.panicked p]
  | install (state : S) (handle : H) :
      Turns (.install state handle) { o with cancel := some handle } (.on p (.publish state handle)) []
  | publish (state : S) (handle : H) :
      Turns (.publish state handle) { o with state := .ready state } (.on p (.unlock (.ok ())))
        [.initialised p handle]
  | poison (message : List Char) :
      Turns (.poison message) { o with poisoned := true }
        (.on p (.unlock (.error (caughtPanic message)))) []
  | unlock (result : Except Error Unit) :
      Turns (.unlock result) { o with holder := none } (.done result) []
  | strong : Turns .strong { o with strong := o.strong + 1 } (.on p .referenced) []
  | referenced : Turns .referenced { o with cancelHolder := some i } (.on p .cancelLocked) []
  | missing (result : Except Error Unit) :
      Turns .cancelLocked o (.on p (.cancelUnlock result)) [.found i p o.cancel]
  | found : Turns .cancelLocked o (.on p .cancelling) [.found i p o.cancel]
  | cancelled (result : Except Error Unit) : Turns .cancelling o (.on p (.cancelUnlock result)) []
  | cancelUnlock (result : Except Error Unit) :
      Turns (.cancelUnlock result) { o with cancelHolder := none } (.on p (.drop result)) []
  | drop (result result' : Except Error Unit) :
      Turns (.drop result) { o with strong := o.strong - 1 } (.done result') []

end Turns

/-- The part of the state that the closure works on is there. -/
def Body.Fits (state : Staged K V S) : Body K V → Prop
  | .buffer _ _ entries => state = .pending entries
  | .operate => ∃ driver, state = .ready driver
  | .construct entries => state = .pending entries

section Turn

variable {kind : Kind} {asRef : K → List Char} {i p : Nat} {call : Call K V} {answer : Answer S H}
  {o o' : Exported K V S H} {pc : Pc S H} {phase : Phase S H} {es : List (Event K V H)}

omit [DecidableEq K] in
theorem body_fits {entry : Entry K V} {state : Staged K V S} {b : Body K V}
    (h : body kind asRef entry state = .ok b) : b.Fits state := by
  cases state with
  | pending entries =>
    cases entry with
    | setOption key value => cases key <;> cases value <;> cases h; rfl
    | getOption key => cases key <;> cases h
    | init => cases h; rfl
    | operation arguments => cases arguments <;> cases h
    | _ => cases h
  | ready driver =>
    cases entry with
    | setOption key value => cases key <;> cases value <;> cases h; exact ⟨driver, rfl⟩
    | getOption key => cases key <;> cases h; exact ⟨driver, rfl⟩
    | init => cases h
    | operation arguments => cases arguments <;> cases h; exact ⟨driver, rfl⟩
    | _ => cases h; exact ⟨driver, rfl⟩

omit [DecidableEq K] in
/-- A closure ends with the call about to unlock, or with a panic to be stored. -/
theorem closureEnded_cases (p : Nat) (call : Call K V) (outcome : Outcome) :
    (∃ result, closureEnded p call outcome = ((.unlock result : Pc S H), ([] : List (Event K V H)))) ∨
      ∃ message, closureEnded p call outcome =
        ((.poison message : Pc S H), ([.panicked p] : List (Event K V H))) := by
  cases outcome with
  | panic message =>
    rw [closureEnded]
    split
    · exact .inr ⟨message, rfl⟩
    · exact .inl ⟨_, rfl⟩
  | _ => exact .inl ⟨_, rfl⟩

theorem turns_of_turn (h : turn kind asRef i p call answer o pc = some (o', phase, es)) :
    Turns kind i p o pc o' phase es := by
  cases pc with
  | lock =>
    rw [turn] at h
    split at h
    · rename_i hfree
      cases h
      exact .lock hfree
    · cases h
  | locked =>
    rw [turn] at h
    split at h
    · rename_i hp
      cases h
      exact .refused hp
    · rename_i hp
      cases h
      exact .allowed (by simpa using hp)
  | allowed =>
    rw [turn] at h
    split at h
    · cases h
      exact .declined _
    · rename_i hb
      cases h
      exact .buffered _ _ (body_fits hb)
    · rename_i hb
      cases h
      obtain ⟨driver, hs⟩ := body_fits hb
      exact .entered hs
    · rename_i hb
      cases h
      exact .constructing (body_fits hb)
  | operating =>
    cases answer with
    | operated state outcome =>
      rw [turn] at h
      rcases closureEnded_cases (K := K) (V := V) (S := S) (H := H) p call outcome with
        ⟨result, hc⟩ | ⟨message, hc⟩
      · rw [hc] at h
        cases h
        exact .operated state result
      · rw [hc] at h
        cases h
        exact .operatedPanic state message
    | _ => cases h
  | constructing =>
    cases answer with
    | constructed state handle =>
      rw [turn] at h
      split at h
      · rename_i hk
        cases h
        exact .constructedDatabase hk state handle
      · cases h
        exact .constructed state handle
    | ended outcome =>
      have hend : some (o, .on p (closureEnded (K := K) (V := V) p call outcome).1,
          (closureEnded (S := S) p call outcome).2) = some (o', phase, es) := by
        cases outcome with
        | ok => cases h
        | _ => exact h
      rcases closureEnded_cases (K := K) (V := V) (S := S) (H := H) p call outcome with
        ⟨result, hc⟩ | ⟨message, hc⟩
      · rw [hc] at hend
        cases hend
        exact .failed result
      · rw [hc] at hend
        cases hend
        exact .failedPanic message
    | _ => cases h
  | install state handle =>
    rw [turn] at h
    split at h
    · cases h
      exact .install state handle
    · cases h
  | publish state handle => cases h; exact .publish state handle
  | poison message => cases h; exact .poison message
  | unlock result => cases h; exact .unlock result
  | strong => cases h; exact .strong
  | referenced =>
    rw [turn] at h
    split at h
    · cases h
      exact .referenced
    · cases h
  | cancelLocked =>
    rw [turn] at h
    split at h
    · rename_i hc
      cases h
      rw [← hc]
      exact .missing _
    · rename_i hc
      cases h
      rw [← hc]
      exact .found
  | cancelling =>
    cases answer with
    | ended outcome => cases h; exact .cancelled _
    | _ => cases h
  | cancelUnlock result => cases h; exact .cancelUnlock result
  | drop result =>
    cases answer with
    | ended outcome =>
      cases outcome with
      | error e => cases h
      | _ => cases h; exact .drop result _
    | _ => cases h

end Turn

namespace Turns

variable {kind : Kind} {i p : Nat} {o o' : Exported K V S H} {pc : Pc S H} {phase : Phase S H}
  {es : List (Event K V H)} {pc' : Pc S H}

theorem phase_eq (h : Turns kind i p o pc o' phase es) :
    (∃ pc', phase = .on p pc') ∨ ∃ result, phase = .done result := by
  cases h
  case unlock result => exact .inr ⟨result, rfl⟩
  case drop => exact .inr ⟨_, rfl⟩
  all_goals exact .inl ⟨_, rfl⟩

theorem strong_eq (h : Turns kind i p o pc o' phase es) (hpos : 0 < o.strong) :
    o'.strong + pc.owns.toNat = o.strong + phase.owns.toNat := by
  cases h
  case drop =>
    change o.strong - 1 + 1 = o.strong + 0
    omega
  all_goals rfl

/-- A reference is kept until the call ends. -/
theorem owns (h : Turns kind i p o pc o' phase es) (ho : pc.owns = true) :
    phase.owns = true ∨ phase.isDone = true := by
  cases h
  case drop => exact .inr rfl
  case unlock => exact .inr rfl
  all_goals first | exact .inl rfl | cases ho

theorem object_of_phase (h : Turns kind i p o pc o' phase es) {q : Nat}
    (hphase : phase = .on q pc') : q = p := by
  rcases h.phase_eq with ⟨pc₁, rfl⟩ | ⟨result, rfl⟩ <;> cases hphase
  rfl

theorem borrows (h : Turns kind i p o pc o' phase es) {q : Nat} (hphase : phase = .on q pc')
    (ho : pc'.owns = false) : pc.owns = false ∧ q = p := by
  cases h <;> cases hphase <;> first | exact ⟨rfl, rfl⟩ | cases ho

theorem holder_self (h : Turns kind i p o pc o' phase es)
    (hl : pc.locks = true → o.holder = some i) {q : Nat} (hphase : phase = .on q pc')
    (hl' : pc'.locks = true) : o'.holder = some i := by
  cases h <;> cases hphase
  case lock => rfl
  all_goals first | exact hl rfl | cases hl'

theorem holder_other (h : Turns kind i p o pc o' phase es)
    (hl : pc.locks = true → o.holder = some i) {j : Nat} (hj : j ≠ i) (hh : o.holder = some j) :
    o'.holder = some j := by
  cases h
  case lock hfree =>
    rw [hfree] at hh
    cases hh
  case unlock =>
    rw [hl rfl] at hh
    cases hh
    exact absurd rfl hj
  all_goals exact hh

end Turns

/-- A step of the system in which no object is touched that is not live. -/
inductive Steps (kind : Kind) (s : Sys K V S H) : Sys K V S H → List (Event K V H) → Prop where
  | called {call : Call K V} (hclear : s.calls.all (Sys.clear call.entry) = true) :
      Steps kind s { s with calls := s.calls ++ [(call, .start)] } []
  | started {i : Nat} {call : Call K V} (hi : s.calls[i]? = some (call, .start))
      {slot : Option Nat} {phase : Phase S H} {es : List (Event K V H)}
      (hstart : Starts s call slot phase es) :
      Steps kind s { s with slot, calls := s.calls.set i (call, phase) } es
  | failed {i : Nat} {call : Call K V} (hi : s.calls[i]? = some (call, .create)) (e : Error) :
      Steps kind s { s with calls := s.calls.set i (call, .done (.error e)) } []
  | created {i : Nat} {call : Call K V} (hi : s.calls[i]? = some (call, .create))
      {o : Exported K V S H} {handle : Option H} {answer : Answer S H}
      (hmade : Sys.made kind answer = some (.ok (o, handle))) :
      Steps kind s
        { slot := some s.heap.fresh, heap := s.heap.alloc o,
          calls := s.calls.set i (call, .done (.ok ())) }
        (.created s.heap.fresh :: handle.toList.map (.initialised s.heap.fresh))
  | moved {i p : Nat} {call : Call K V} {pc : Pc S H} (hi : s.calls[i]? = some (call, .on p pc))
      {o o' : Exported K V S H} (hread : s.heap.read p = some o) {phase : Phase S H}
      {es : List (Event K V H)} (hturn : Turns kind i p o pc o' phase es) :
      Steps kind s { s with heap := Sys.settle s.heap p o', calls := s.calls.set i (call, phase) }
        (es ++ if o'.strong = 0 then [.freed p] else [])

section Ledger

variable {kind : Kind} {asRef : K → List Char} {s s' : Sys K V S H} {a : Action K V S H}
  {es : List (Event K V H)}

theorem steps_of_step
    (hlive : ∀ {i p : Nat} {call : Call K V} {pc : Pc S H}, s.calls[i]? = some (call, .on p pc) →
      s.heap.read p ≠ none)
    (hapart : s.newsApart a = true) (h : (handle kind asRef).step s a = some (s', es)) :
    Steps kind s s' es := by
  change Sys.step kind asRef s a = some (s', es) at h
  unfold Sys.step at h
  split at h
  · split at h
    · rename_i hadmits
      cases h
      exact .called (Sys.clear_of_admits hadmits hapart)
    · cases h
  · split at h
    · rename_i hi
      cases h
      exact .started hi (starts_start kind s _)
    · rename_i hi
      split at h
      · cases h
      · cases h
        exact .failed hi _
      · rename_i hmade
        cases h
        exact .created hi hmade
    · rename_i hi
      split at h
      · rename_i hread
        exact absurd hread (hlive hi)
      · rename_i hread
        split at h
        · cases h
        · rename_i hturn
          cases h
          exact .moved hi hread (turns_of_turn hturn)
    · cases h

end Ledger

namespace Ledger

variable {kind : Kind} {s s' : Sys K V S H} {es : List (Event K V H)}

theorem moved (h : Ledger s) {i p : Nat} {call : Call K V} {pc : Pc S H}
    (hi : s.calls[i]? = some (call, .on p pc)) {o o' : Exported K V S H}
    (hread : s.heap.read p = some o) {phase : Phase S H} (hturn : Turns kind i p o pc o' phase es) :
    Ledger { s with heap := Sys.settle s.heap p o', calls := s.calls.set i (call, phase) } where
  refs q := by
    have hset := owners_set hi phase q
    have hrefs := h.refs q
    have hstrong := hturn.strong_eq (h.pos hread)
    simp only [Sys.refs] at hrefs ⊢
    rw [strongOf_settle hread]
    have hphase : phase.ownsOf q = (decide (p = q) && phase.owns) := by
      rcases hturn.phase_eq with ⟨pc', rfl⟩ | ⟨result, rfl⟩
      · rfl
      · simp [Phase.ownsOf, Phase.owns]
    rw [hphase] at hset
    simp only [Phase.ownsOf] at hset
    by_cases hqp : q = p
    · subst hqp
      rw [strongOf, hread] at hrefs
      simp at hset hrefs ⊢
      omega
    · simp [hqp, Ne.symm hqp] at hset ⊢
      omega
  pos {q o₁} hq := by
    simp only [read_settle hread] at hq
    split at hq
    · split at hq
      · cases hq
      · cases hq
        omega
    · exact h.pos hq
  borrowed {j q c pc'} hj ho := by
    simp only [getElem?_set_of hi] at hj
    split at hj
    · rename_i hji
      obtain ⟨-, hphase⟩ := Prod.mk.inj (Option.some.inj hj)
      obtain ⟨hpc, rfl⟩ := hturn.borrows hphase ho
      exact h.borrowed hi hpc
    · exact h.borrowed hj ho
  create {j c} hj := by
    simp only [getElem?_set_of hi] at hj
    split at hj
    · obtain ⟨-, hphase⟩ := Prod.mk.inj (Option.some.inj hj)
      rcases hturn.phase_eq with ⟨pc', heq⟩ | ⟨result, heq⟩ <;> rw [heq] at hphase <;> cases hphase
    · exact h.create hj
  admitted := h.admitted_set hi rfl hturn.owns

theorem step (h : Ledger s) (hstep : Steps kind s s' es) : Ledger s' := by
  cases hstep with
  | called hclear => exact h.called hclear
  | started hi hstart => exact h.started hi hstart
  | failed hi e => exact h.failed hi e
  | created hi hmade => exact h.created hi (strong_made hmade)
  | moved hi hread hturn => exact h.moved hi hread hturn

end Ledger

end Handle
end Ffi
end SpannerAdbc
