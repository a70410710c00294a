import SpannerAdbc.Ffi.Error
import SpannerAdbc.Lib.Machine

/-!
# SpannerAdbc.Ffi.Stream

The exported Arrow stream: its callbacks over `PrivateData`, with the error of the last failed request
kept for `get_last_error` and `error_from_array_stream`. What the reader does in a callback (a value,
an error, a panic) is part of the action, so a run is any interleaving of callbacks with any reader.
The values that a successful request writes to its output are left out.

The machine is undefined (`none`) where `export_error` or a release callback is.
-/

namespace SpannerAdbc
namespace Ffi

open Lib

/-- The codes that the callbacks return besides zero. -/
inductive Errno where
  | eacces
  | ecanceled
  | eexist
  | einval
  | eio
  | enoent
  | enomem
  | enosys
  | enotsup
  | etimedout
  deriving DecidableEq, Repr

def adbcStatusToErrno : Status → Errno
  | .unknown => .eio
  | .notImplemented => .enotsup
  | .notFound => .enoent
  | .alreadyExists => .eexist
  | .invalidArguments | .invalidState => .einval
  | .invalidData | .integrity | .internal | .io => .eio
  | .cancelled => .ecanceled
  | .timeout => .etimedout
  | .unauthenticated | .unauthorized => .eacces

inductive ArrowVariant where
  | notYetImplemented
  | memoryError
  | ioError
  | other
  deriving DecidableEq, Repr

/-- An error of the reader. -/
structure ArrowError where
  variant : ArrowVariant
  /-- `to_string`. -/
  text : List Char
  /-- The error and what it wraps, outermost first: `some` where a link is an error of the driver. -/
  chain : List (Option CoreError)

/-- What the reader does in a callback. -/
inductive Outcome where
  | ok
  | error (error : ArrowError)
  | panic (message : List Char)

structure LastError where
  message : List UInt8
  error : CoreError

structure PrivateData where
  privateDriver : Option Nat
  lastError : Option LastError
  exportedError : Option AdbcError
  panicked : Bool

/-- The stream: `data` is `none` after release. -/
structure Stream where
  data : Option PrivateData
  heap : Heap Alloc

def withMessageAndStatus (message : List Char) (status : Status) : CoreError :=
  { err message status with sqlstate := [0, 0, 0, 0, 0] }

namespace PrivateData

variable (self : PrivateData)

def setError (error : CoreError) : PrivateData :=
  { self with lastError := some { message := sanitizedCstring error.message, error } }

def fail (message : List Char) : PrivateData × Option Errno :=
  (self.setError (withMessageAndStatus message .invalidArguments), some .einval)

def arrowError (error : ArrowError) : PrivateData × Option Errno :=
  let (errno, status) : Errno × Status := match error.variant with
    | .notYetImplemented => (.enosys, .notImplemented)
    | .memoryError => (.enomem, .internal)
    | .ioError => (.eio, .io)
    | .other => (.einval, .unknown)
  let embedded := error.chain.findSome? id
  let errno := embedded.elim errno fun embedded => adbcStatusToErrno embedded.status
  let structured := embedded.getD (withMessageAndStatus error.text status)
  ({ self with lastError := some { message := sanitizedCstring error.text, error := structured } },
    some errno)

end PrivateData

/-- How the body of a callback ends. -/
inductive Ended where
  | code (errno : Option Errno)
  | panic (message : List Char)

/-- What the body of a callback leaves, how it ends, and whether it has called the reader. -/
abbrev Body := PrivateData → (PrivateData × Ended) × Bool

/-- The part that the bodies of `get_schema` and `get_next` share: the reader is called unless there
is no output to write to. -/
def requestBody (outputNull : List Char) (out : Bool) (outcome : Outcome) : Body := fun self =>
  if out = false then
    let (self, code) := self.fail outputNull
    ((self, .code code), false)
  else
    match outcome with
    | .ok => ((self, .code none), true)
    | .error error =>
      let (self, code) := self.arrowError error
      ((self, .code code), true)
    | .panic message => ((self, .panic message), true)

def schemaBody (out : Bool) (outcome : Outcome) : Body := fun self =>
  requestBody "Arrow C Stream schema output must not be null".toList out outcome self

/-- Only this one clears what a previous failure left. -/
def nextBody (out : Bool) (outcome : Outcome) : Body := fun self =>
  requestBody "Arrow C Stream array output must not be null".toList out outcome
    { self with lastError := none }

def streamPanicked (message : List Char) : CoreError :=
  withMessageAndStatus ("Uncaught panic in the Spanner Arrow stream: ".toList ++ message) .internal

def catchCallback (self : PrivateData) (body : Body) : (PrivateData × Option Errno) × Bool :=
  if self.panicked then ((self, some .einval), false)
  else
    match body self with
    | ((self, .code code), reader) => ((self, code), reader)
    | ((self, .panic message), reader) =>
      (({ self with panicked := true }.setError (streamPanicked message), some .einval), reader)

/-- The storage of `error_from_array_stream` before its first use. -/
def PrivateData.blankError (self : PrivateData) : AdbcError :=
  { message := none, vendorCode := privateDataSentinel, sqlstate := [0, 0, 0, 0, 0], release := none
    tail := some { privateData := none, privateDriver := self.privateDriver } }

/-! ## The callbacks -/

inductive Callback where
  | getSchema (out : Bool) (outcome : Outcome)
  | getNext (out : Bool) (outcome : Outcome)
  | getLastError
  | errorFromArrayStream
  | release

/-- What the caller sees. -/
inductive Reply where
  /-- The code of a request, and whether the reader was called. -/
  | request (code : Option Errno) (reader : Bool)
  /-- The message, or a null pointer. -/
  | lastError (message : Option (List UInt8))
  /-- The struct and the status; `none` is `ADBC_STATUS_OK`. -/
  | structured (error : AdbcError) (status : Option Status)
  /-- A null pointer, the status untouched. -/
  | unrecognized
  | released

namespace Stream

/-- `export_reader`. -/
def exportReader (privateDriver : Option Nat) : Stream :=
  { data := some { privateDriver, lastError := none, exportedError := none, panicked := false }
    heap := .empty }

def request (s : Stream) (body : Body) : Stream × Reply :=
  match s.data with
  | none => (s, .request (some .einval) false)
  | some self =>
    let ((self, code), reader) := catchCallback self body
    ({ s with data := some self }, .request code reader)

def getLastError (s : Stream) : Option (List UInt8) :=
  (s.data.bind PrivateData.lastError).map LastError.message

def errorFromArrayStream (s : Stream) : Option (Stream × Reply) :=
  match s.data with
  | none => some (s, .unrecognized)
  | some self => do
    let m : Memory := { out := self.exportedError.getD self.blankError, heap := s.heap }
    match self.lastError with
    | none =>
      let m ← m.releasePrevious
      return ({ data := some { self with exportedError := some m.out }, heap := m.heap },
        .structured m.out none)
    | some last =>
      let m ← Memory.exportError { m with out := { m.out with vendorCode := privateDataSentinel } }
        last.error
      return ({ data := some { self with exportedError := some m.out }, heap := m.heap },
        .structured m.out (some last.error.status))

/-- `release`, with the `Drop` of the private data. -/
def release (s : Stream) : Option Stream :=
  match s.data.bind PrivateData.exportedError with
  | none => some { s with data := none }
  | some exported => do
    let m ← Memory.releasePrevious { out := exported, heap := s.heap }
    return { data := none, heap := m.heap }

/-- One callback. -/
def step (s : Stream) : Callback → Option (Stream × List Reply)
  | .getSchema out outcome =>
    let (s, reply) := s.request (schemaBody out outcome)
    some (s, [reply])
  | .getNext out outcome =>
    let (s, reply) := s.request (nextBody out outcome)
    some (s, [reply])
  | .getLastError => some (s, [.lastError s.getLastError])
  | .errorFromArrayStream => do
    let (s, reply) ← s.errorFromArrayStream
    return (s, [reply])
  | .release => do
    let s ← s.release
    return (s, [.released])

end Stream

def streamMachine : Machine Stream Callback Reply := ⟨Stream.step⟩

/-! ## What should be recorded -/

/-- The status of a failure of the reader: that of the first driver error in its cause chain, if there
is one. -/
def ArrowError.status (error : ArrowError) : Status :=
  match error.chain.findSome? id with
  | some embedded => embedded.status
  | none =>
    match error.variant with
    | .notYetImplemented => .notImplemented
    | .memoryError => .internal
    | .ioError => .io
    | .other => .unknown

/-- The status with which a request fails when it is run. -/
def failureOf (out : Bool) : Outcome → Option Status
  | .ok => if out then none else some .invalidArguments
  | .error error => if out then some error.status else some .invalidArguments
  | .panic _ => if out then some .internal else some .invalidArguments

def Callback.failure : Callback → Option Status
  | .getSchema out outcome | .getNext out outcome => failureOf out outcome
  | _ => none

def panicsOf (out : Bool) : Outcome → Bool
  | .panic _ => out
  | _ => false

/-- The callback panics when it is run. -/
def Callback.panics : Callback → Bool
  | .getSchema out outcome | .getNext out outcome => panicsOf out outcome
  | _ => false

def Callback.isNext : Callback → Bool
  | .getNext _ _ => true
  | _ => false

/-- The status of the latest failing request that was run, unless a `get_next` has succeeded since.
The past is listed latest first. -/
def latestFailure : List Callback → Option Status
  | [] => none
  | callback :: past =>
    if past.any Callback.panics then latestFailure past
    else callback.failure.or (if callback.isNext then none else latestFailure past)

/-! ## The invariant -/

def Stream.lastError (s : Stream) : Option LastError := s.data.bind PrivateData.lastError

/-- The status of the recorded error. -/
def Stream.recorded (s : Stream) : Option Status := s.lastError.map fun last => last.error.status

/-- The allocations that the exported error points to. -/
def Stream.exportedPointers (s : Stream) : List Nat :=
  match s.data.bind PrivateData.exportedError with
  | none => []
  | some out => out.message.toList ++ out.privateData.toList

/-- The storage of the exported error: unused, or a struct of the 1.1.0 layout. -/
def Storage (driver : Option Nat) (exported : Option AdbcError) (heap : Heap Alloc) : Prop :=
  match exported with
  | none => heap.Owns []
  | some out => ∃ held, Represents .v110 driver held { out, heap }

/-- The private data after a past of callbacks. -/
structure Tracks (driver : Option Nat) (past : List Callback) (data : PrivateData) (heap : Heap Alloc) :
    Prop where
  driver_eq : data.privateDriver = driver
  panicked : data.panicked = past.any Callback.panics
  status : (data.lastError.map fun last => last.error.status) = latestFailure past
  stays : data.panicked = true →
    ∃ message, data.lastError.map LastError.error = some (streamPanicked message)
  storage : Storage driver data.exportedError heap

theorem arrowError_eq (self : PrivateData) (error : ArrowError) : ∃ last errno,
    self.arrowError error = ({ self with lastError := some last }, some errno) ∧
      last.error.status = error.status := by
  cases hchain : error.chain.findSome? id with
  | none =>
    refine ⟨_, _, rfl, ?_⟩
    simp only [ArrowError.status, hchain, Option.getD_none]
    cases error.variant <;> rfl
  | some embedded =>
    refine ⟨_, _, rfl, ?_⟩
    simp only [ArrowError.status, hchain, Option.getD_some]

variable {body : Body} {self : PrivateData}

/-- A request that is run: it succeeds, or records the error it fails with. -/
theorem catchCallback_request {outputNull : List Char} {out : Bool} {outcome : Outcome}
    {start : PrivateData} (hp : self.panicked = false)
    (hb : body self = requestBody outputNull out outcome start) (hs : start.panicked = false) :
    (failureOf out outcome = none ∧ (catchCallback self body).1 = (start, none)) ∨
    ∃ last errno, failureOf out outcome = some last.error.status ∧
      (catchCallback self body).1 =
        ({ start with lastError := some last, panicked := panicsOf out outcome }, some errno) ∧
      (panicsOf out outcome = true → ∃ message, last.error = streamPanicked message) := by
  obtain ⟨driver, lastError, exported, panicked⟩ := start
  obtain rfl : panicked = false := hs
  cases out with
  | false =>
    have hpanics : panicsOf false outcome = false := by cases outcome <;> rfl
    have hfailure : failureOf false outcome = some .invalidArguments := by cases outcome <;> rfl
    refine .inr ⟨⟨sanitizedCstring outputNull, withMessageAndStatus outputNull .invalidArguments⟩,
      .einval, hfailure, ?_, by simp [hpanics]⟩
    rw [catchCallback, hp, hb, hpanics]
    rfl
  | true =>
    cases outcome with
    | ok =>
      refine .inl ⟨rfl, ?_⟩
      rw [catchCallback, hp, hb]
      rfl
    | error error =>
      obtain ⟨last, errno, heq, hstatus⟩ :=
        arrowError_eq { privateDriver := driver, lastError, exportedError := exported, panicked := false }
          error
      refine .inr ⟨last, errno, by rw [hstatus]; rfl, ?_, nofun⟩
      rw [catchCallback, hp, hb]
      simp only [requestBody, heq]
      rfl
    | panic message =>
      refine .inr ⟨⟨sanitizedCstring (streamPanicked message).message, streamPanicked message⟩, .einval,
        rfl, ?_, fun _ => ⟨message, rfl⟩⟩
      rw [catchCallback, hp, hb]
      rfl

/-- Nothing happens on a stream that has panicked. -/
theorem catchCallback_panicked (hp : self.panicked = true) :
    catchCallback self body = ((self, some .einval), false) := by
  rw [catchCallback, hp]
  rfl

section Steps

variable {driver : Option Nat} {past : List Callback} {self : PrivateData} {heap : Heap Alloc}
  {callback : Callback}

theorem latestFailure_panicked (h : past.any Callback.panics = true) (callback : Callback) :
    latestFailure (callback :: past) = latestFailure past := by
  rw [latestFailure, if_pos h]

theorem panicsOf_eq_false {out : Bool} {outcome : Outcome} (h : failureOf out outcome = none) :
    panicsOf out outcome = false := by
  cases out <;> cases outcome <;> first | rfl | cases h

/-- What a request must leave behind. `kept` is what stands after a success. -/
structure RequestDone (driver : Option Nat) (past : List Callback) (callback : Callback)
    (data : PrivateData) (kept : Option LastError) (heap : Heap Alloc)
    (r : PrivateData × Option Errno) (reader : Bool) : Prop where
  tracks : Tracks driver (callback :: past) r.1 heap
  fails : r.2 ≠ none → r.1.lastError ≠ none
  succeeds : r.2 = none → r.1.lastError = kept
  dead : data.panicked = true → r.2 ≠ none ∧ reader = false ∧ r.1.lastError = data.lastError

theorem requestDone {outputNull : List Char} {out : Bool} {outcome : Outcome}
    {kept : Option LastError} {body : Body} (h : Tracks driver past self heap)
    (hb : body self = requestBody outputNull out outcome { self with lastError := kept })
    (hfailure : callback.failure = failureOf out outcome)
    (hpanics : callback.panics = panicsOf out outcome)
    (hkept : past.any Callback.panics = false → callback.failure = none →
      (kept.map fun last => last.error.status) = latestFailure (callback :: past)) :
    RequestDone driver past callback self kept heap (catchCallback self body).1
      (catchCallback self body).2 := by
  cases hp : self.panicked with
  | true =>
    rw [catchCallback_panicked hp]
    have hpast : past.any Callback.panics = true := h.panicked ▸ hp
    obtain ⟨message, hstays⟩ := h.stays hp
    refine ⟨⟨h.driver_eq, ?_, ?_, h.stays, h.storage⟩, fun _ hnone => ?_, nofun, fun _ => ⟨nofun, rfl, rfl⟩⟩
    · rw [List.any_cons, hpast, Bool.or_true, hp]
    · rw [latestFailure_panicked hpast]
      exact h.status
    · rw [hnone] at hstays
      cases hstays
  | false =>
    have hpast : past.any Callback.panics = false := h.panicked ▸ hp
    rcases catchCallback_request hp hb hp with ⟨hok, heq⟩ | ⟨last, errno, hfail, heq, hmessage⟩
    · rw [heq]
      have hnone : callback.failure = none := hfailure.trans hok
      have hno : callback.panics = false := by
        rw [hpanics, panicsOf_eq_false hok]
      refine ⟨⟨h.driver_eq, ?_, hkept hpast hnone, ?_, h.storage⟩, nofun, fun _ => rfl, ?_⟩
      · rw [List.any_cons, hpast, hno]
        exact hp
      · intro hp'
        exact absurd (hp.symm.trans hp') (by simp)
      · intro hp'
        exact absurd (hp.symm.trans hp') (by simp)
    · rw [heq]
      refine ⟨⟨h.driver_eq, ?_, ?_, ?_, h.storage⟩, nofun, nofun, ?_⟩
      · rw [List.any_cons, hpast, Bool.or_false, hpanics]
      · rw [latestFailure, hpast, hfailure, hfail]
        rfl
      · intro hpanicked
        obtain ⟨message, hm⟩ := hmessage hpanicked
        exact ⟨message, congrArg some hm⟩
      · intro hp'
        exact absurd (hp.symm.trans hp') (by simp)

theorem Storage.represents (h : Storage driver self.exportedError heap)
    (hd : self.privateDriver = driver) : ∃ held,
      Represents .v110 driver held { out := self.exportedError.getD self.blankError, heap } := by
  cases hexported : self.exportedError with
  | none =>
    rw [hexported] at h
    refine ⟨none, represents_none ⟨?_, ?_⟩ h rfl rfl rfl⟩
    · simp [PrivateData.blankError]
    · rw [← hd]
      rfl
  | some out =>
    rw [hexported] at h
    exact h

/-- A query that is no request leaves the past as it was. -/
theorem Tracks.query {data data' : PrivateData} {heap' : Heap Alloc}
    (h : Tracks driver past data heap) (hfailure : callback.failure = none)
    (hnext : callback.isNext = false) (hpanics : callback.panics = false)
    (hdriver : data'.privateDriver = data.privateDriver) (hp : data'.panicked = data.panicked)
    (hlast : data'.lastError = data.lastError) (hs : Storage driver data'.exportedError heap') :
    Tracks driver (callback :: past) data' heap' := by
  refine ⟨hdriver.trans h.driver_eq, ?_, ?_, ?_, hs⟩
  · rw [hp, h.panicked, List.any_cons, hpanics, Bool.false_or]
  · rw [hlast, h.status, latestFailure, hfailure, hnext]
    simp
  · rw [hp, hlast]
    exact h.stays

theorem errorFromArrayStream_eq (h : Tracks driver past self heap) : ∃ self' heap' error,
    Stream.errorFromArrayStream { data := some self, heap } =
      some ({ data := some self', heap := heap' },
        .structured error (self.lastError.map fun last => last.error.status)) ∧
    Tracks driver (.errorFromArrayStream :: past) self' heap' ∧ self'.lastError = self.lastError ∧
    self'.exportedError = some error ∧
    Represents .v110 driver (self.lastError.map LastError.error) { out := error, heap := heap' } := by
  obtain ⟨held, hrep⟩ := h.storage.represents h.driver_eq
  cases hlast : self.lastError with
  | none =>
    obtain ⟨m, hm, hrep'⟩ := releasePrevious_represents hrep
    refine ⟨{ self with exportedError := some m.out }, m.heap, m.out, ?_, ?_, hlast, rfl, hrep'⟩
    · simp only [Stream.errorFromArrayStream, hlast, hm]
      rfl
    · exact h.query rfl rfl rfl rfl rfl rfl ⟨none, hrep'⟩
  | some last =>
    obtain ⟨m, hm, hrep'⟩ := exportError_represents hrep last.error
    refine ⟨{ self with exportedError := some m.out }, m.heap, m.out, ?_, ?_, hlast, rfl, hrep'⟩
    · have hcode : (self.exportedError.getD self.blankError).vendorCode = privateDataSentinel :=
        hrep.advertises.sentinel.mpr rfl
      have hstamp : { (self.exportedError.getD self.blankError) with
          vendorCode := privateDataSentinel } = self.exportedError.getD self.blankError := by
        rw [← hcode]
      simp only [Stream.errorFromArrayStream, hlast, hstamp, hm]
      rfl
    · exact h.query rfl rfl rfl rfl rfl rfl ⟨some last.error, hrep'⟩

theorem release_eq (h : Tracks driver past self heap) : ∃ heap',
    Stream.release { data := some self, heap } = some { data := none, heap := heap' } ∧
      heap'.Owns [] := by
  have hs := h.storage
  cases hexported : self.exportedError with
  | none =>
    rw [hexported] at hs
    refine ⟨heap, ?_, hs⟩
    simp only [Stream.release, Option.bind_some, hexported]
  | some out =>
    rw [hexported] at hs
    obtain ⟨held, hrep⟩ := hs
    obtain ⟨m, hm, hrep'⟩ := releasePrevious_represents hrep
    obtain ⟨hmessage, hdata⟩ := hrep'.empty rfl
    have howns := hrep'.owns
    rw [hmessage, hdata] at howns
    refine ⟨m.heap, ?_, howns⟩
    simp only [Stream.release, Option.bind_some, hexported, hm]
    rfl

theorem exportedPointers_owned (h : Tracks driver past self heap) :
    heap.Owns (Stream.exportedPointers { data := some self, heap }) := by
  have hs := h.storage
  simp only [Stream.exportedPointers, Option.bind_some]
  cases hexported : self.exportedError with
  | none =>
    rw [hexported] at hs
    exact hs
  | some out =>
    rw [hexported] at hs
    obtain ⟨held, hrep⟩ := hs
    exact hrep.owns

end Steps

/-! ## Runs -/

/-- A request answers truthfully: a failure is recorded, a success leaves `kept`, and on a stream that
has panicked it fails without calling the reader. -/
def Truthful (s : Stream) (callback : Callback) (kept : Option LastError) (panicked : Bool) : Prop :=
  ∃ s' code reader, s.step callback = some (s', [.request code reader]) ∧
    (code ≠ none → s'.lastError ≠ none) ∧ (code = none → s'.lastError = kept) ∧
    (panicked = true → code ≠ none ∧ reader = false ∧ s'.lastError = s.lastError)

section Runs

variable {driver : Option Nat} {past : List Callback} {self : PrivateData} {heap : Heap Alloc}
  {callback : Callback}

theorem getSchema_done (h : Tracks driver past self heap) (out : Bool) (outcome : Outcome) :
    RequestDone driver past (.getSchema out outcome) self self.lastError heap
      (catchCallback self (schemaBody out outcome)).1
      (catchCallback self (schemaBody out outcome)).2 := by
  refine requestDone h rfl rfl rfl fun hpast hnone => ?_
  rw [h.status, latestFailure, hpast, hnone]
  rfl

theorem getNext_done (h : Tracks driver past self heap) (out : Bool) (outcome : Outcome) :
    RequestDone driver past (.getNext out outcome) self none heap
      (catchCallback self (nextBody out outcome)).1
      (catchCallback self (nextBody out outcome)).2 := by
  refine requestDone h rfl rfl rfl fun hpast hnone => ?_
  rw [latestFailure, hpast, hnone]
  rfl

theorem RequestDone.truthful {kept : Option LastError} {body : Body}
    (h : RequestDone driver past callback self kept heap (catchCallback self body).1
      (catchCallback self body).2)
    (hstep : Stream.step { data := some self, heap } callback =
      some ({ data := some (catchCallback self body).1.1, heap },
        [.request (catchCallback self body).1.2 (catchCallback self body).2])) :
    Truthful { data := some self, heap } callback kept self.panicked :=
  ⟨_, _, _, hstep, h.fails, h.succeeds, h.dead⟩

theorem step_tracks (h : Tracks driver past self heap) (hc : callback ≠ .release) :
    ∃ self' heap' reply,
      Stream.step { data := some self, heap } callback =
        some ({ data := some self', heap := heap' }, [reply]) ∧
      Tracks driver (callback :: past) self' heap' := by
  cases callback with
  | getSchema out outcome => exact ⟨_, heap, _, rfl, (getSchema_done h out outcome).tracks⟩
  | getNext out outcome => exact ⟨_, heap, _, rfl, (getNext_done h out outcome).tracks⟩
  | getLastError => exact ⟨self, heap, _, rfl, h.query rfl rfl rfl rfl rfl rfl h.storage⟩
  | errorFromArrayStream =>
    obtain ⟨self', heap', error, hstep, htracks, -⟩ := errorFromArrayStream_eq h
    refine ⟨self', heap', .structured error (self.lastError.map fun last => last.error.status),
      ?_, htracks⟩
    rw [Stream.step, hstep]
    rfl
  | release => exact absurd rfl hc

theorem run_tracks (h : Tracks driver past self heap) {calls : List Callback}
    (hcalls : ∀ c ∈ calls, c ≠ .release) : ∃ self' heap' replies,
      streamMachine.run { data := some self, heap } calls =
        some ({ data := some self', heap := heap' }, replies) ∧
      Tracks driver (calls.reverse ++ past) self' heap' := by
  induction calls generalizing past self heap with
  | nil => exact ⟨self, heap, [], rfl, h⟩
  | cons callback calls ih =>
    obtain ⟨hc, hrest⟩ := List.forall_mem_cons.mp hcalls
    obtain ⟨self₁, heap₁, reply, hstep, h₁⟩ := step_tracks h hc
    obtain ⟨self₂, heap₂, replies, hrun, h₂⟩ := ih h₁ hrest
    refine ⟨self₂, heap₂, _, Machine.run_cons.mpr ⟨_, _, _, hstep, hrun, rfl⟩, ?_⟩
    rwa [List.reverse_cons, List.append_assoc]

end Runs

theorem tracks_exportReader (driver : Option Nat) : Tracks driver []
    { privateDriver := driver, lastError := none, exportedError := none, panicked := false } .empty :=
  ⟨rfl, rfl, rfl, nofun, .empty⟩

/-- Over any sequence of callbacks and any reader, the recorded error is the one that it should be, all
views of it agree, and nothing that was exported is freed twice or lost. -/
theorem stream_errors_truthful (driver : Option Nat) {calls : List Callback}
    (hcalls : ∀ c ∈ calls, c ≠ .release) :
    ∃ s replies, streamMachine.run (.exportReader driver) calls = some (s, replies) ∧
      s.recorded = latestFailure calls.reverse ∧
      (∀ out outcome, Truthful s (.getSchema out outcome) s.lastError (calls.any Callback.panics)) ∧
      (∀ out outcome, Truthful s (.getNext out outcome) none (calls.any Callback.panics)) ∧
      (∃ message, s.step .getLastError = some (s, [.lastError message]) ∧
        (message = none ↔ s.recorded = none)) ∧
      (∃ s' error, s.step .errorFromArrayStream = some (s', [.structured error s.recorded]) ∧
        s'.lastError = s.lastError ∧
        Represents .v110 driver (s.lastError.map LastError.error) { out := error, heap := s'.heap }) ∧
      (calls.any Callback.panics = true →
        ∃ message, s.lastError.map LastError.error = some (streamPanicked message)) ∧
      s.heap.Owns s.exportedPointers ∧
      ∃ s', s.step .release = some (s', [.released]) ∧ s'.data = none ∧ s'.heap.Owns [] := by
  obtain ⟨self, heap, replies, hrun, h⟩ := run_tracks (tracks_exportReader driver) hcalls
  rw [List.append_nil] at h
  have hpanicked : self.panicked = calls.any Callback.panics := by
    rw [h.panicked, List.any_reverse]
  rw [← hpanicked]
  refine ⟨{ data := some self, heap }, replies, hrun, h.status,
    fun out outcome => (getSchema_done h out outcome).truthful rfl,
    fun out outcome => (getNext_done h out outcome).truthful rfl,
    ⟨_, rfl, ?_⟩, ?_, h.stays, exportedPointers_owned h, ?_⟩
  · simp only [Stream.getLastError, Stream.recorded, Stream.lastError, Option.map_eq_none_iff]
  · obtain ⟨self', heap', error, hstep, -, hlast, -, hrep⟩ := errorFromArrayStream_eq h
    refine ⟨{ data := some self', heap := heap' }, error, ?_, hlast, hrep⟩
    rw [Stream.step, hstep]
    rfl
  · obtain ⟨heap', hrelease, howns⟩ := release_eq h
    refine ⟨{ data := none, heap := heap' }, ?_, rfl, howns⟩
    rw [Stream.step, hrelease]
    rfl

/-- A cancelled read whose driver error is wrapped once, then a panic, then another read. -/
def cancelledThenPanic : List Callback :=
  [.getNext true (.error
      { variant := .other, text := "cancelled".toList
        chain := [none, some { cancelledErr with sqlstate := [] }] }),
    .errorFromArrayStream, .getSchema true .ok, .getNext true (.panic "boom".toList),
    .getNext true .ok]

theorem stream_errors_truthful_panic : ∃ s replies,
    streamMachine.run (.exportReader none) cancelledThenPanic = some (s, replies) ∧
      s.recorded = some .internal := by
  obtain ⟨s, replies, hrun, hrecorded, -⟩ := stream_errors_truthful none
    (show ∀ c ∈ cancelledThenPanic, c ≠ .release by simp [cancelledThenPanic])
  exact ⟨s, replies, hrun, hrecorded⟩

end Ffi
end SpannerAdbc
