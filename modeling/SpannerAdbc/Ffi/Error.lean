import SpannerAdbc.Basic
import SpannerAdbc.Lib.Heap
import SpannerAdbc.Lib.Percent

/-!
# SpannerAdbc.Ffi.Error

Writing an error into the caller's `AdbcError`. The caller allocates the struct, so the two fields of
the 1.1.0 layout exist only if the caller says so, by the sentinel in `vendor_code`; `tail` is `none`
where they do not. An access to a field that does not exist, and a read or free of an allocation
that is not live, is undefined: the functions below give `none`.

`Represents` says what the struct holds, in terms of the error that was last exported into it and not
yet released. `export_error` and the release callbacks keep it (`exportError_represents`,
`call_represents`), from any struct that a caller may pass.
-/

namespace SpannerAdbc
namespace Ffi

open Lib

/-! ## The struct and the allocations -/

/-- The error of `adbc_core`, with the field that the driver's own constructors leave at zero. -/
structure CoreError extends Error where
  sqlstate : List Int

/-- `sanitized_cstring`: the bytes of a C string, with `?` for NUL. -/
def sanitizedCstring (text : List Char) : List UInt8 :=
  (asBytes text).map fun byte => if byte = 0 then 63 else byte

abbrev ErrorDetails := List (List UInt8 × List UInt8)

/-- `ADBC_ERROR_VENDOR_CODE_PRIVATE_DATA`, that is `i32::MIN`. -/
def privateDataSentinel : Int := -2 ^ 31

def vendorCodeDetailKey : List Char := "adbc.spanner.vendor_code".toList

/-- What the driver hands out by a raw pointer. -/
inductive Alloc where
  | text (bytes : List UInt8)
  | details (details : ErrorDetails)
  deriving DecidableEq, Repr

inductive Release where
  | releaseError
  | releaseErrorV100
  deriving DecidableEq, Repr

/-- The fields of the 1.1.0 layout. -/
structure Tail where
  privateData : Option Nat
  privateDriver : Option Nat
  deriving DecidableEq, Repr

/-- The caller's struct. A null pointer is `none`. -/
structure AdbcError where
  message : Option Nat
  vendorCode : Int
  sqlstate : List Int
  release : Option Release
  /-- `none` where the caller has allocated the 1.0.0 prefix only. -/
  tail : Option Tail
  deriving DecidableEq, Repr

/-- The struct and the allocations of the driver. -/
structure Memory where
  out : AdbcError
  heap : Heap Alloc
  deriving DecidableEq, Repr

namespace Memory

/-- `drop(CString::from_raw(..))` and a null pointer, unless the pointer is null. -/
def dropMessage (m : Memory) : Option Memory :=
  match m.out.message with
  | none => some m
  | some p =>
    match m.heap.read p with
    | some (.text _) => do
      return { out := { m.out with message := none }, heap := ← m.heap.free p }
    | _ => none

/-- `drop(Box::from_raw(..))` and a null pointer, unless the pointer is null. -/
def dropDetails (m : Memory) : Option Memory := do
  let tail ← m.out.tail
  match tail.privateData with
  | none => some m
  | some p =>
    match m.heap.read p with
    | some (.details _) => do
      return { out := { m.out with tail := some { tail with privateData := none } },
               heap := ← m.heap.free p }
    | _ => none

def clearRelease (m : Memory) : Memory := { m with out := { m.out with release := none } }

def releaseError (m : Memory) : Option Memory := do
  let m ← m.dropMessage
  let m ← m.dropDetails
  return m.clearRelease

def releaseErrorV100 (m : Memory) : Option Memory := do
  let m ← m.dropMessage
  return m.clearRelease

/-- A call of a release callback. -/
def call (callback : Release) (m : Memory) : Option Memory :=
  match callback with
  | .releaseError => m.releaseError
  | .releaseErrorV100 => m.releaseErrorV100

end Memory

/-- The details of an error in the 1.1.0 layout, the displaced vendor code behind them. -/
def CoreError.exported (error : CoreError) : ErrorDetails :=
  (error.details.getD []).map (fun d => (sanitizedCstring d.1, d.2)) ++
    if error.vendorCode ≠ 0 then
      [(sanitizedCstring vendorCodeDetailKey, asBytes (intText error.vendorCode))]
    else []

namespace Memory

def exportV110 (m : Memory) (privateDriver : Option Nat) (error : CoreError) : Memory :=
  let message := m.heap.fresh
  let heap := m.heap.alloc (.text (sanitizedCstring error.message))
  let privateData := heap.fresh
  { out :=
      { message := some message, vendorCode := privateDataSentinel, sqlstate := error.sqlstate
        release := some .releaseError
        tail := some { privateData := some privateData, privateDriver } }
    heap := heap.alloc (.details error.exported) }

/-- Only the prefix is written. A vendor code that equals the sentinel is not stored. -/
def exportV100 (m : Memory) (error : CoreError) : Memory :=
  { out :=
      { message := some m.heap.fresh
        vendorCode := if error.vendorCode = privateDataSentinel then 0 else error.vendorCode
        sqlstate := error.sqlstate, release := some .releaseErrorV100, tail := m.out.tail }
    heap := m.heap.alloc (.text (sanitizedCstring error.message)) }

/-- Reusing a struct that still holds an error is legal. -/
def releasePrevious (m : Memory) : Option Memory :=
  match m.out.release with
  | some release => m.call release
  | none => some m

def exportError (m : Memory) (error : CoreError) : Option Memory := do
  -- both fields are read before a previous error is released
  let isV110 := m.out.vendorCode = privateDataSentinel
  let privateDriver ← if isV110 then m.out.tail.map Tail.privateDriver else some none
  let m ← m.releasePrevious
  if isV110 then
    -- the whole struct is written
    let _ ← m.out.tail
    return m.exportV110 privateDriver error
  else return m.exportV100 error

/-- `details`: the outer `none` is undefined behaviour, the inner one a null pointer. -/
def details (m : Memory) : Option (Option ErrorDetails) :=
  if m.out.vendorCode ≠ privateDataSentinel then some none
  else do
    let tail ← m.out.tail
    match tail.privateData with
    | none => some none
    | some p =>
      match m.heap.read p with
      | some (.details details) => some (some details)
      | _ => none

def errorGetDetailCount (m : Memory) : Option Int := do
  match ← m.details with
  | none => return 0
  | some details => return min (details.length : Int) (2 ^ 31 - 1)

/-- The key and the value, or the empty detail. -/
def errorGetDetail (m : Memory) (index : Int) : Option (Option (List UInt8 × List UInt8)) := do
  match ← m.details with
  | none => return none
  | some details => return if index < 0 then none else details[index.toNat]?

end Memory

/-! ## What the struct holds -/

inductive Layout where
  | v100
  | v110
  deriving DecidableEq, Repr

def Layout.callback : Layout → Release
  | .v100 => .releaseErrorV100
  | .v110 => .releaseError

/-- The struct has the fields of the layout, and says so. -/
structure Advertises (layout : Layout) (driver : Option Nat) (out : AdbcError) : Prop where
  sentinel : out.vendorCode = privateDataSentinel ↔ layout = .v110
  tail : out.tail.map Tail.privateDriver = if layout = .v110 then some driver else none

/-- The pointer to the details, in a layout that has it. -/
def AdbcError.privateData (out : AdbcError) : Option Nat := out.tail.bind Tail.privateData

/-- The struct holds the error `held`, and the driver's live allocations are those it points to. -/
structure Represents (layout : Layout) (driver : Option Nat) (held : Option CoreError) (m : Memory) :
    Prop where
  advertises : Advertises layout driver m.out
  owns : m.heap.Owns (m.out.message.toList ++ m.out.privateData.toList)
  release : m.out.release = held.map fun _ => layout.callback
  message : m.out.message.bind m.heap.read = held.map fun e => .text (sanitizedCstring e.message)
  details : m.out.privateData.bind m.heap.read =
    if layout = .v110 then held.map fun e => .details e.exported else none
  empty : held = none → m.out.message = none ∧ m.out.privateData = none

namespace Represents

variable {layout : Layout} {driver : Option Nat} {held : Option CoreError} {m : Memory}

theorem tail_of_v110 (h : Represents .v110 driver held m) :
    ∃ data, m.out.tail = some { privateData := data, privateDriver := driver } := by
  have htail := h.advertises.tail
  rw [if_pos rfl, Option.map_eq_some_iff] at htail
  obtain ⟨tail, ht, hd⟩ := htail
  exact ⟨tail.privateData, by rw [ht, ← hd]⟩

theorem tail_of_v100 (h : Represents .v100 driver held m) : m.out.tail = none := by
  have htail := h.advertises.tail
  rw [if_neg (by decide)] at htail
  exact Option.map_eq_none_iff.mp htail

theorem message_of_held {e : CoreError} (h : Represents layout driver (some e) m) :
    ∃ p, m.out.message = some p ∧ m.heap.read p = some (.text (sanitizedCstring e.message)) :=
  Option.bind_eq_some_iff.mp h.message

theorem details_of_held {e : CoreError} (h : Represents .v110 driver (some e) m) :
    ∃ p, m.out.tail = some { privateData := some p, privateDriver := driver } ∧
      m.heap.read p = some (.details e.exported) := by
  obtain ⟨data, ht⟩ := h.tail_of_v110
  have hd := h.details
  rw [if_pos rfl, AdbcError.privateData, ht] at hd
  obtain ⟨p, hp, hr⟩ := Option.bind_eq_some_iff.mp hd
  cases hp
  exact ⟨p, ht, hr⟩

end Represents

variable {driver : Option Nat} {layout : Layout} {m : Memory} {held : Option CoreError}

/-- A struct with null pointers, while nothing is allocated. -/
theorem represents_none (ha : Advertises layout driver m.out) (ho : m.heap.Owns [])
    (hm : m.out.message = none) (hd : m.out.privateData = none) (hr : m.out.release = none) :
    Represents layout driver none m where
  advertises := ha
  owns := by rw [hm, hd]; exact ho
  release := hr
  message := by rw [hm]; rfl
  details := by rw [hd]; exact (ite_self none).symm
  empty := fun _ => ⟨hm, hd⟩

/-! ## Release -/

namespace Memory

variable {m : Memory} {p : Nat}

theorem dropMessage_null (h : m.out.message = none) : m.dropMessage = some m := by
  rw [dropMessage, h]

theorem dropMessage_live {bytes : List UInt8} (h : m.out.message = some p)
    (hr : m.heap.read p = some (.text bytes)) :
    m.dropMessage = some { out := { m.out with message := none }, heap := m.heap.clear p } := by
  simp only [dropMessage, h, hr, Heap.free_of_read hr]
  rfl

theorem dropDetails_null {tail : Tail} (h : m.out.tail = some tail) (hp : tail.privateData = none) :
    m.dropDetails = some m := by
  simp only [dropDetails, h, Option.bind_eq_bind, Option.bind_some, hp]

theorem dropDetails_live {tail : Tail} {details : ErrorDetails} (h : m.out.tail = some tail)
    (hp : tail.privateData = some p) (hr : m.heap.read p = some (.details details)) :
    m.dropDetails = some
      { out := { m.out with tail := some { tail with privateData := none } }
        heap := m.heap.clear p } := by
  simp only [dropDetails, h, Option.bind_eq_bind, Option.bind_some, hp, hr, Heap.free_of_read hr]
  rfl

end Memory

/-- The release callback frees what the struct points to. It may be called again. -/
theorem call_represents (h : Represents layout driver held m) :
    ∃ m', m.call layout.callback = some m' ∧ Represents layout driver none m' := by
  cases held with
  | none =>
    obtain ⟨hm, hd⟩ := h.empty rfl
    have howns := h.owns
    rw [hm, hd] at howns
    have hnone : Represents layout driver none m.clearRelease :=
      represents_none ⟨h.advertises.sentinel, h.advertises.tail⟩ howns hm hd rfl
    refine ⟨m.clearRelease, ?_, hnone⟩
    cases layout with
    | v100 =>
      simp only [Layout.callback, Memory.call, Memory.releaseErrorV100, Memory.dropMessage_null hm]
      rfl
    | v110 =>
      obtain ⟨data, ht⟩ := h.tail_of_v110
      have hdata : data = none := by
        rw [AdbcError.privateData, ht] at hd
        exact hd
      simp only [Layout.callback, Memory.call, Memory.releaseError, Memory.dropMessage_null hm,
        Option.bind_eq_bind, Option.bind_some, Memory.dropDetails_null ht hdata]
      rfl
  | some e =>
    obtain ⟨p, hp, hread⟩ := h.message_of_held
    have howns := h.owns
    cases layout with
    | v100 =>
      have ht := h.tail_of_v100
      have hd : m.out.privateData = none := by rw [AdbcError.privateData, ht]; rfl
      rw [hp, hd] at howns
      refine ⟨_, ?_, represents_none
        (m := Memory.clearRelease { out := { m.out with message := none }, heap := m.heap.clear p })
        ⟨h.advertises.sentinel, h.advertises.tail⟩ (howns.clear (by simp)) rfl hd rfl⟩
      simp only [Layout.callback, Memory.call, Memory.releaseErrorV100,
        Memory.dropMessage_live hp hread]
      rfl
    | v110 =>
      obtain ⟨d, ht, hdread⟩ := h.details_of_held
      have hd : m.out.privateData = some d := by rw [AdbcError.privateData, ht]; rfl
      have hne : p ≠ d := by
        rintro rfl
        rw [hread] at hdread
        cases hdread
      have hdread' : (m.heap.clear p).read d = some (.details e.exported) := by
        rw [Heap.read_clear, if_neg (Ne.symm hne)]
        exact hdread
      rw [hp, hd] at howns
      have hclear : ((m.heap.clear p).clear d).Owns [] :=
        (howns.clear (by simpa using hne)).clear (by simp)
      have hadvertises : Advertises .v110 driver
          { m.out with message := none, release := none, tail := some ⟨none, driver⟩ } :=
        ⟨h.advertises.sentinel, rfl⟩
      refine ⟨_, ?_, represents_none
        (m := { out := { m.out with message := none, release := none, tail := some ⟨none, driver⟩ }
                heap := (m.heap.clear p).clear d }) hadvertises hclear rfl rfl rfl⟩
      have hdrop := Memory.dropDetails_live
        (m := { out := { m.out with message := none }, heap := m.heap.clear p }) ht rfl hdread'
      simp only [Layout.callback, Memory.call, Memory.releaseError, Memory.dropMessage_live hp hread,
        Option.bind_eq_bind, Option.bind_some, hdrop]
      rfl

theorem releasePrevious_represents (h : Represents layout driver held m) :
    ∃ m', m.releasePrevious = some m' ∧ Represents layout driver none m' := by
  rw [Memory.releasePrevious, h.release]
  cases held with
  | none => exact ⟨m, rfl, h⟩
  | some e => exact call_represents h

/-! ## Export -/

namespace Memory

variable {m : Memory} {driver : Option Nat}

/-- A struct of the 1.1.0 layout that holds nothing takes an error. -/
theorem exportV110_represents (h : Represents .v110 driver none m) (e : CoreError) :
    Represents .v110 driver (some e) (m.exportV110 driver e) := by
  obtain ⟨hm, hd⟩ := h.empty rfl
  have howns := h.owns
  rw [hm, hd] at howns
  have hfresh : (m.heap.alloc (.text (sanitizedCstring e.message))).fresh ≠ m.heap.fresh := by
    rw [Heap.fresh_alloc]
    omega
  refine ⟨⟨Iff.of_eq (by simp [exportV110]), rfl⟩, ?_, rfl, ?_, ?_, nofun⟩
  · intro q
    refine (howns.alloc.alloc q).trans ?_
    simp [exportV110, AdbcError.privateData, or_comm]
  · change ((m.heap.alloc _).alloc _).read m.heap.fresh = _
    rw [Heap.read_alloc, if_neg (Ne.symm hfresh), Heap.read_alloc, if_pos rfl]
    rfl
  · change ((m.heap.alloc _).alloc _).read (m.heap.alloc _).fresh = _
    rw [Heap.read_alloc, if_pos rfl, if_pos rfl]
    rfl

/-- So does a struct of the 1.0.0 layout; a vendor code never makes it look like the other one. -/
theorem exportV100_represents (h : Represents .v100 driver none m) (e : CoreError) :
    Represents .v100 driver (some e) (m.exportV100 e) := by
  obtain ⟨hm, hd⟩ := h.empty rfl
  have howns := h.owns
  rw [hm, hd] at howns
  have ht := h.tail_of_v100
  have hdata : (m.exportV100 e).out.privateData = none := hd
  have hcode : (m.exportV100 e).out.vendorCode ≠ privateDataSentinel := by
    simp only [exportV100]
    split
    · decide
    · assumption
  refine ⟨⟨⟨fun hs => absurd hs hcode, nofun⟩, h.advertises.tail⟩, ?_, rfl, ?_, ?_, nofun⟩
  · rw [hdata]
    exact howns.alloc
  · change (m.heap.alloc _).read m.heap.fresh = _
    rw [Heap.read_alloc, if_pos rfl]
    rfl
  · rw [hdata]
    rfl

end Memory

/-- An export supersedes what the struct holds. -/
theorem exportError_represents (h : Represents layout driver held m) (e : CoreError) :
    ∃ m', m.exportError e = some m' ∧ Represents layout driver (some e) m' := by
  obtain ⟨m₁, hm₁, h₁⟩ := releasePrevious_represents h
  cases layout with
  | v100 =>
    have hcode : m.out.vendorCode ≠ privateDataSentinel := by
      intro hs
      cases h.advertises.sentinel.mp hs
    refine ⟨m₁.exportV100 e, ?_, Memory.exportV100_represents h₁ e⟩
    simp only [Memory.exportError, if_neg hcode, Option.bind_eq_bind, Option.bind_some, hm₁]
    rfl
  | v110 =>
    have hcode : m.out.vendorCode = privateDataSentinel := h.advertises.sentinel.mpr rfl
    obtain ⟨data, ht⟩ := h.tail_of_v110
    obtain ⟨data₁, ht₁⟩ := h₁.tail_of_v110
    refine ⟨m₁.exportV110 driver e, ?_, Memory.exportV110_represents h₁ e⟩
    simp only [Memory.exportError, if_pos hcode, ht, Option.map_some, Option.bind_eq_bind,
      Option.bind_some, hm₁, ht₁]
    rfl

/-! ## A struct over its life -/

/-- What a caller does with a struct: pass it to a call that fails, and call the callback it got. -/
inductive Op where
  | exportError (error : CoreError)
  | release

/-- The struct, and the release callback that the caller last saw in it. -/
structure Caller where
  memory : Memory
  callback : Option Release

/-- The callback may be called any number of times, and not before there is one. -/
def Caller.step (c : Caller) : Op → Option Caller
  | .exportError error => do
    let m ← c.memory.exportError error
    return { memory := m, callback := m.out.release }
  | .release =>
    match c.callback with
    | some callback => do return { c with memory := ← c.memory.call callback }
    | none => some c

def Caller.run (c : Caller) : List Op → Option Caller
  | [] => some c
  | op :: ops => do
    let c ← c.step op
    c.run ops

/-- The error that was exported last and not released since. -/
def heldAfter (held : Option CoreError) : List Op → Option CoreError
  | [] => held
  | .exportError error :: ops => heldAfter (some error) ops
  | .release :: ops => heldAfter none ops

/-- A struct as a caller passes it the first time. -/
structure Fresh (layout : Layout) (driver : Option Nat) (m : Memory) : Prop where
  advertises : Advertises layout driver m.out
  message : m.out.message = none
  privateData : m.out.privateData = none
  release : m.out.release = none
  heap : m.heap = .empty

theorem Fresh.represents (h : Fresh layout driver m) : Represents layout driver none m :=
  represents_none h.advertises (by rw [h.heap]; exact .empty) h.message h.privateData h.release

/-- The callback that the caller has is the one of the layout. -/
def Caller.Holds (layout : Layout) (driver : Option Nat) (held : Option CoreError) (c : Caller) :
    Prop :=
  Represents layout driver held c.memory ∧
    (c.callback = some layout.callback ∨ c.callback = none ∧ held = none)

theorem Caller.step_holds {c : Caller} (h : c.Holds layout driver held) (op : Op) :
    ∃ c', c.step op = some c' ∧ c'.Holds layout driver (heldAfter held [op]) := by
  obtain ⟨hrep, hcallback⟩ := h
  cases op with
  | exportError error =>
    obtain ⟨m, hm, hrep'⟩ := exportError_represents hrep error
    refine ⟨⟨m, m.out.release⟩, ?_, hrep', .inl hrep'.release⟩
    rw [step, hm]
    rfl
  | release =>
    rcases hcallback with hcallback | ⟨hcallback, rfl⟩
    · obtain ⟨m, hm, hrep'⟩ := call_represents hrep
      refine ⟨⟨m, c.callback⟩, ?_, hrep', .inl hcallback⟩
      rw [step, hcallback]
      dsimp only
      rw [hm]
      rfl
    · refine ⟨c, ?_, hrep, .inr ⟨hcallback, rfl⟩⟩
      rw [step, hcallback]

theorem Caller.run_holds {c : Caller} (h : c.Holds layout driver held) (ops : List Op) :
    ∃ c', c.run ops = some c' ∧ c'.Holds layout driver (heldAfter held ops) := by
  induction ops generalizing c held with
  | nil => exact ⟨c, rfl, h⟩
  | cons op ops ih =>
    obtain ⟨c₁, hstep, h₁⟩ := step_holds h op
    obtain ⟨c₂, hrun, h₂⟩ := ih h₁
    refine ⟨c₂, ?_, ?_⟩
    · rw [run, hstep]
      exact hrun
    · cases op <;> exact h₂

/-- What a C string has in the place of a character. -/
def nulReplaced (c : Char) : Char := if c = '\x00' then '?' else c

/-- The details that a caller of the layout can read: those of the error in their order, with no NUL
in a key, and behind them a vendor code other than zero. -/
def readable : Layout → Option CoreError → ErrorDetails
  | .v110, some e =>
    (e.details.getD []).map (fun d => (asBytes (d.1.map nulReplaced), d.2)) ++
      if e.vendorCode = 0 then []
      else [(asBytes "adbc.spanner.vendor_code".toList, asBytes (intText e.vendorCode))]
  | _, _ => []

theorem sanitizedCstring_eq (text : List Char) :
    sanitizedCstring text = asBytes (text.map nulReplaced) := by
  have hchar : ∀ c : Char, (String.utf8EncodeChar c).map (fun byte => if byte = 0 then 63 else byte) =
      String.utf8EncodeChar (nulReplaced c) := by
    intro c
    by_cases hc : c = '\x00'
    · rw [nulReplaced, if_pos hc, hc]
      decide
    · rw [nulReplaced, if_neg hc]
      refine (List.map_congr_left fun b hb => if_neg ?_).trans (List.map_id _)
      exact Percent.ne_of_mem_utf8EncodeChar (a := '\x00') (by decide) hc b hb
  simp only [sanitizedCstring, asBytes, List.map_flatMap, List.flatMap_map, hchar]

theorem exported_eq (e : CoreError) : e.exported = readable .v110 (some e) := by
  have hkey : sanitizedCstring vendorCodeDetailKey = asBytes "adbc.spanner.vendor_code".toList := by
    decide +kernel
  rw [CoreError.exported, hkey, readable]
  simp only [sanitizedCstring_eq, ne_eq, ite_not]

theorem Represents.details_eq (h : Represents layout driver held m) :
    ∃ details, m.details = some details ∧ details.getD [] = readable layout held := by
  cases layout with
  | v100 =>
    have hcode : m.out.vendorCode ≠ privateDataSentinel := by
      intro hs
      cases h.advertises.sentinel.mp hs
    exact ⟨none, by rw [Memory.details, if_pos hcode], rfl⟩
  | v110 =>
    have hcode : m.out.vendorCode = privateDataSentinel := h.advertises.sentinel.mpr rfl
    cases held with
    | none =>
      obtain ⟨data, ht⟩ := h.tail_of_v110
      have hdata : data = none := by
        have hd := (h.empty rfl).2
        rw [AdbcError.privateData, ht] at hd
        exact hd
      refine ⟨none, ?_, rfl⟩
      simp only [Memory.details, hcode, ne_eq, not_true_eq_false, if_false, ht, hdata,
        Option.bind_eq_bind, Option.bind_some]
    | some e =>
      obtain ⟨p, ht, hread⟩ := h.details_of_held
      refine ⟨some e.exported, ?_, exported_eq e⟩
      simp only [Memory.details, hcode, ne_eq, not_true_eq_false, if_false, ht, hread,
        Option.bind_eq_bind, Option.bind_some]

theorem Represents.privateData_eq_none_iff (h : Represents .v110 driver held m) :
    m.out.privateData = none ↔ held = none := by
  constructor
  · intro hd
    have hdetails := h.details
    rw [hd, if_pos rfl] at hdetails
    exact Option.map_eq_none_iff.mp hdetails.symm
  · intro hheld
    exact (h.empty hheld).2

/-- Whatever a caller does with a struct of either layout, nothing beyond it is touched and nothing is
freed twice or lost, and what can be read is the error that it holds. -/
theorem error_struct_safe {layout : Layout} {driver : Option Nat} {m : Memory}
    (h : Fresh layout driver m) (ops : List Op) :
    ∃ c, Caller.run ⟨m, none⟩ ops = some c ∧
      Advertises layout driver c.memory.out ∧
      c.memory.heap.Owns (c.memory.out.message.toList ++ c.memory.out.privateData.toList) ∧
      (∀ p < c.memory.heap.fresh,
        p ∉ c.memory.out.message.toList ++ c.memory.out.privateData.toList →
          c.memory.heap.Freed p) ∧
      (heldAfter none ops = none → c.memory.heap.Owns []) ∧
      (layout = .v110 → (c.memory.out.privateData = none ↔ heldAfter none ops = none)) ∧
      c.memory.errorGetDetailCount =
        some (min ((readable layout (heldAfter none ops)).length : Int) (2 ^ 31 - 1)) ∧
      ∀ index, c.memory.errorGetDetail index = some
        (if index < 0 then none else (readable layout (heldAfter none ops))[index.toNat]?) := by
  obtain ⟨c, hrun, hrep, -⟩ := Caller.run_holds (c := ⟨m, none⟩) ⟨h.represents, .inr ⟨rfl, rfl⟩⟩ ops
  obtain ⟨details, hdetails, hread⟩ := hrep.details_eq
  refine ⟨c, hrun, hrep.advertises, hrep.owns, fun p hlt hp => hrep.owns.freed hlt hp, ?_, ?_, ?_, ?_⟩
  · intro hheld
    obtain ⟨hm, hd⟩ := hrep.empty hheld
    have howns := hrep.owns
    rw [hm, hd] at howns
    exact howns
  · rintro rfl
    exact hrep.privateData_eq_none_iff
  · rw [← hread, Memory.errorGetDetailCount, hdetails]
    cases details <;> rfl
  · intro index
    rw [← hread, Memory.errorGetDetail, hdetails]
    cases details with
    | none => simp
    | some details => rfl

/-- A struct of the 1.0.0 layout, before its first use. -/
def prefixOnly : Memory :=
  { out := { message := none, vendorCode := 0, sqlstate := [0, 0, 0, 0, 0], release := none, tail := none }
    heap := .empty }

/-- An error whose vendor code is the sentinel. -/
def sentinelError : CoreError :=
  { err "no such table".toList .notFound with vendorCode := privateDataSentinel, sqlstate := [] }

/-- A struct of the 1.1.0 layout, before its first use. -/
def bothFields : Memory :=
  { out := { prefixOnly.out with vendorCode := privateDataSentinel, tail := some ⟨none, some 7⟩ }
    heap := .empty }

/-- An error with a detail, whose key has a NUL, and a vendor code. -/
def detailedError : CoreError :=
  { message := "gone".toList, status := .notFound, vendorCode := 5
    details := some [("a\x00b".toList, [1, 2])], sqlstate := [] }

theorem error_struct_safe_sentinel :
    (∃ c, Caller.run ⟨prefixOnly, none⟩
        [.exportError sentinelError, .exportError sentinelError, .release, .release] = some c ∧
      c.memory.out.vendorCode ≠ privateDataSentinel ∧ c.memory.heap.Owns []) ∧
    ∃ c, Caller.run ⟨bothFields, none⟩ [.exportError sentinelError, .exportError detailedError] =
        some c ∧ c.memory.errorGetDetailCount = some 2 ∧
      c.memory.errorGetDetail 0 = some (some (asBytes "a?b".toList, [1, 2])) ∧
      c.memory.errorGetDetail 1 =
        some (some (asBytes "adbc.spanner.vendor_code".toList, asBytes "5".toList)) := by
  have hfresh : Fresh .v100 none prefixOnly := by
    refine ⟨⟨?_, rfl⟩, rfl, rfl, rfl, rfl⟩
    decide
  have hfresh' : Fresh .v110 (some 7) bothFields := ⟨⟨by decide, rfl⟩, rfl, rfl, rfl, rfl⟩
  obtain ⟨c, hrun, hadvertises, -, -, howns, -⟩ := error_struct_safe hfresh
    [.exportError sentinelError, .exportError sentinelError, .release, .release]
  obtain ⟨c', hrun', -, -, -, -, -, hcount, hdetail⟩ := error_struct_safe hfresh'
    [.exportError sentinelError, .exportError detailedError]
  refine ⟨⟨c, hrun, fun hs => Layout.noConfusion (hadvertises.sentinel.mp hs), howns rfl⟩,
    c', hrun', hcount.trans ?_, (hdetail 0).trans ?_, (hdetail 1).trans ?_⟩
  · rfl
  · decide +kernel
  · decide +kernel

end Ffi
end SpannerAdbc
