import SpannerAdbc.Basic
import SpannerAdbc.Lib.Heap
import SpannerAdbc.Lib.Machine
import SpannerAdbc.Lib.Overwrite

/-!
# SpannerAdbc.Ffi.Handle

An exported database, connection or statement: the `private_data` slot of the caller's struct, the
reference-counted objects it has pointed to, and calls on it from any number of threads, one atomic
step at a time.

* A dispatched call (`dispatch`, `lock_state`) reads the slot, takes the state lock, loads the poison
  flag, runs its closure and unlocks. A panic of the closure is caught and stored in the flag before
  the lock is given back.
* `cancel` reads the slot, takes a reference of its own, and then only the lock of the cancel handle.
* `connection_init` installs the cancel handle before it publishes the state.
* `release` empties the slot and drops the reference that the slot had. The last reference that is
  dropped frees the object.

A step on an object that is not live is the event `fault`. Driver code may do anything to the driver
object and end in any way: that is in the answers of the actions. `Sys.admits` is what the caller owes
by the contract of the entry points: a `Release` overlaps only cancels that hold a reference. A `New`
reads the slot and fills it in separate steps, so two of them are safe only one after the other; that
is a condition of its own (`Sys.newsApart`).
-/

namespace SpannerAdbc
namespace Ffi
namespace Handle

open Lib

inductive Kind where
  | database
  | connection
  | statement
  deriving DecidableEq, Repr

/-- `KIND`. -/
def Kind.name : Kind → List Char
  | .database => "database".toList
  | .connection => "connection".toList
  | .statement => "statement".toList

/-! ## Errors -/

def uninitialized (kind : Kind) : Error :=
  invalidState (kind.name ++ " is uninitialized or already released".toList)

def poisoned (kind : Kind) : Error :=
  err (kind.name ++ " is unusable after an earlier panic in the driver".toList) .internal

def alreadyInitialized (kind : Kind) : Error :=
  invalidState (kind.name ++ " is already initialized".toList)

def alreadyPopulated (kind : Kind) : Error :=
  invalidState (kind.name ++
    " already holds a driver object; release it before creating another, and pass a ".toList ++
    "zero-initialized struct to a first one".toList)

def missingArgument (name : List Char) : Error := invalidArgument (name ++ " must not be null".toList)

def unreadable (kind : Kind) (key : List Char) : Error :=
  err ("Spanner ".toList ++ kind.name ++ " option ".toList ++ key ++
    " cannot be read before the ".toList ++ kind.name ++
    " is initialized; initialize it first".toList) .notFound

def caughtPanic (message : List Char) : Error :=
  err ("Uncaught panic in the Spanner driver: ".toList ++ message) .internal

/-! ## Objects and calls -/

/-- A statement is `ready` from the start. -/
inductive Staged (K V S : Type) where
  | pending (entries : List (K × V))
  | ready (state : S)

/-- The object behind `private_data`, with its reference count. The holder of a lock is the number of
the call that has it. -/
structure Exported (K V S H : Type) where
  strong : Nat
  poisoned : Bool
  cancel : Option H
  cancelHolder : Option Nat
  state : Staged K V S
  holder : Option Nat

/-- How driver code ends. -/
inductive Outcome where
  | ok
  | error (e : Error)
  | panic (message : List Char)

/-- What `catch` makes of it. -/
def Outcome.result : Outcome → Except Error Unit
  | .ok => .ok ()
  | .error e => .error e
  | .panic message => .error (caughtPanic message)

/-- What driver code answers. `operated` is a call on the driver object, which it may change however
it ends; `constructed` is a new driver object with its cancel handle. -/
inductive Answer (S H : Type) where
  | silent
  | operated (state : S) (outcome : Outcome)
  | constructed (state : S) (handle : H)
  | ended (outcome : Outcome)

/-- The entry points. `borrow` is the use of this object by an entry point of another one, that is
`lock_state`: `AdbcStatementNew` on the connection, `AdbcConnectionInit` on the database. -/
inductive Entry (K V : Type) where
  | new
  | setOption (key : Except Error K) (value : Except Error V)
  | getOption (key : Except Error K)
  | init
  /-- The argument checks that come before the driver object is asked for. -/
  | operation (arguments : Except Error Unit)
  | borrow
  | cancel
  | release

structure Call (K V : Type) where
  /-- The pointer to the caller's struct is not null. -/
  given : Bool
  entry : Entry K V

/-- Where a call on an object is. -/
inductive Pc (S H : Type) where
  /-- It has read the slot and takes the state lock next. -/
  | lock
  | locked
  /-- The poison flag was clear. -/
  | allowed
  | operating
  | constructing
  | install (state : S) (handle : H)
  | publish (state : S) (handle : H)
  /-- It has caught a panic of its closure. -/
  | poison (message : List Char)
  | unlock (result : Except Error Unit)
  /-- A cancel that has read the slot and takes its reference next. -/
  | strong
  | referenced
  | cancelLocked
  | cancelling
  | cancelUnlock (result : Except Error Unit)
  /-- Its own reference is dropped next. -/
  | drop (result : Except Error Unit)

inductive Phase (S H : Type) where
  | start
  /-- A `New` that has found the slot empty. -/
  | create
  | on (p : Nat) (pc : Pc S H)
  | done (result : Except Error Unit)

inductive Event (K V H : Type) where
  | created (p : Nat)
  /-- The slot is emptied by a release. -/
  | released (p : Nat)
  | freed (p : Nat)
  /-- A step on an object that is not live. -/
  | fault (p : Nat)
  /-- A call has loaded the poison flag. -/
  | checked (i p : Nat) (refused : Bool)
  | buffered (p : Nat) (key : K) (value : V)
  /-- Driver code is called on the driver object. -/
  | entered (i p : Nat)
  /-- The driver's constructor is called. -/
  | constructing (i p : Nat) (entries : List (K × V))
  | initialised (p : Nat) (handle : H)
  | panicked (p : Nat)
  /-- A cancel has looked for the cancel handle. -/
  | found (i p : Nat) (handle : Option H)

structure Sys (K V S H : Type) where
  /-- `private_data`. -/
  slot : Option Nat
  heap : Heap (Exported K V S H)
  calls : List (Call K V × Phase S H)

inductive Action (K V S H : Type) where
  | call (call : Call K V)
  | turn (i : Nat) (answer : Answer S H)

variable {K V S H : Type} [DecidableEq K]

/-! ## One call on its object -/

/-- What the closure of a dispatched call does. -/
inductive Body (K V : Type) where
  | buffer (key : K) (value : V) (entries : List (K × V))
  | operate
  | construct (entries : List (K × V))

/-- The closure up to the driver code that it calls. -/
def body (kind : Kind) (asRef : K → List Char) (entry : Entry K V) (state : Staged K V S) :
    Except Error (Body K V) :=
  match entry with
  | .setOption key value => do
    let key ← key
    let value ← value
    match state with
    | .pending entries => .ok (.buffer key value entries)
    | .ready _ => .ok .operate
  | .getOption key => do
    let key ← key
    match state with
    | .pending _ => .error (unreadable kind (asRef key))
    | .ready _ => .ok .operate
  | .init =>
    match state with
    | .pending entries => .ok (.construct entries)
    | .ready _ => .error (alreadyInitialized kind)
  | .operation arguments => do
    arguments
    match state with
    | .pending _ => .error (uninitialized kind)
    | .ready _ => .ok .operate
  | _ =>
    match state with
    | .pending _ => .error (uninitialized kind)
    | .ready _ => .ok .operate

/-- A panic is stored in the object that the call is dispatched on; a borrowed object is not marked. -/
def Entry.poisons : Entry K V → Bool
  | .borrow => false
  | _ => true

section Turn

variable (kind : Kind) (asRef : K → List Char) (i p : Nat) (call : Call K V)

/-- Where the call goes when its closure ends. -/
def closureEnded (outcome : Outcome) : Pc S H × List (Event K V H) :=
  match outcome with
  | .panic message =>
    if call.entry.poisons then (.poison message, [.panicked p])
    else (.unlock outcome.result, [])
  | _ => (.unlock outcome.result, [])

/-- The next step of a call on the object `p`. `none` where it has to wait for a lock, or where the
answer is not one that the driver code it runs can give. -/
def turn (answer : Answer S H) (o : Exported K V S H) :
    Pc S H → Option (Exported K V S H × Phase S H × List (Event K V H))
  | .lock =>
    if o.holder = none then some ({ o with holder := some i }, .on p .locked, []) else none
  | .locked =>
    if o.poisoned then some (o, .on p (.unlock (.error (poisoned kind))), [.checked i p true])
    else some (o, .on p .allowed, [.checked i p false])
  | .allowed =>
    match body kind asRef call.entry o.state with
    | .error e => some (o, .on p (.unlock (.error e)), [])
    | .ok (.buffer key value entries) =>
      some ({ o with state := .pending (upsert key value entries) }, .on p (.unlock (.ok ())),
        [.buffered p key value])
    | .ok .operate => some (o, .on p .operating, [.entered i p])
    | .ok (.construct entries) => some (o, .on p .constructing, [.constructing i p entries])
  | .operating =>
    match answer with
    | .operated state outcome =>
      some ({ o with state := .ready state }, .on p (closureEnded (K := K) (V := V) p call outcome).1,
        (closureEnded (S := S) p call outcome).2)
    | _ => none
  | .constructing =>
    match answer with
    | .constructed state handle =>
      some (o, .on p (if kind = .database then .publish state handle else .install state handle), [])
    | .ended .ok => none
    | .ended outcome =>
      some (o, .on p (closureEnded (K := K) (V := V) p call outcome).1,
        (closureEnded (S := S) p call outcome).2)
    | _ => none
  | .install state handle =>
    if o.cancelHolder = none then
      some ({ o with cancel := some handle }, .on p (.publish state handle), [])
    else none
  | .publish state handle =>
    some ({ o with state := .ready state }, .on p (.unlock (.ok ())), [.initialised p handle])
  | .poison message =>
    some ({ o with poisoned := true }, .on p (.unlock (.error (caughtPanic message))), [])
  | .unlock result => some ({ o with holder := none }, .done result, [])
  | .strong => some ({ o with strong := o.strong + 1 }, .on p .referenced, [])
  | .referenced =>
    if o.cancelHolder = none then
      some ({ o with cancelHolder := some i }, .on p .cancelLocked, [])
    else none
  | .cancelLocked =>
    match o.cancel with
    | none => some (o, .on p (.cancelUnlock (.error (uninitialized kind))), [.found i p none])
    | some handle => some (o, .on p .cancelling, [.found i p (some handle)])
  | .cancelling =>
    match answer with
    | .ended outcome => some (o, .on p (.cancelUnlock outcome.result), [])
    | _ => none
  | .cancelUnlock result => some ({ o with cancelHolder := none }, .on p (.drop result), [])
  | .drop result =>
    match answer with
    | .ended (.error _) => none
    | .ended outcome =>
      -- the destructor of the driver object runs with the last reference, and may panic
      some ({ o with strong := o.strong - 1 },
        .done (if o.strong = 1 then outcome.result.bind fun _ => result else result), [])
    | _ => none

end Turn

/-! ## The system -/

namespace Pc

/-- The call holds a reference of its own. -/
def owns : Pc S H → Bool
  | .referenced | .cancelLocked | .cancelling | .cancelUnlock _ | .drop _ => true
  | _ => false

/-- The call holds the state lock. -/
def locks : Pc S H → Bool
  | .locked | .allowed | .operating | .constructing | .install _ _ | .publish _ _ | .poison _
  | .unlock _ => true
  | _ => false

end Pc

namespace Phase

def owns : Phase S H → Bool
  | .on _ pc => pc.owns
  | _ => false

def isDone : Phase S H → Bool
  | .done _ => true
  | _ => false

end Phase

namespace Sys

def empty : Sys K V S H where
  slot := none
  heap := .empty
  calls := []

/-- A call that is under way leaves room for another one with this entry point. -/
def tolerates (entry : Entry K V) (other : Call K V × Phase S H) : Bool :=
  other.2.isDone ||
    match entry, other.1.entry with
    | .release, .cancel => other.2.owns
    | .release, _ => false
    | _, .release => false
    | _, _ => true

def admits (s : Sys K V S H) (call : Call K V) : Bool := s.calls.all (tolerates call.entry)

/-- No `New` is called while another one is under way. -/
def newsApart (s : Sys K V S H) : Action K V S H → Bool
  | .call ⟨_, .new⟩ => s.calls.all fun c =>
      c.2.isDone || match c.1.entry with
        | .new => false
        | _ => true
  | _ => true

/-- `slot_of`. -/
def slotOf (s : Sys K V S H) (call : Call K V) : Option Nat := if call.given then s.slot else none

/-- The first step of a call, on the slot. -/
def start (kind : Kind) (s : Sys K V S H) (call : Call K V) :
    Option Nat × Phase S H × List (Event K V H) :=
  match call.entry with
  | .new =>
    if !call.given then (s.slot, .done (.error (missingArgument kind.name)), [])
    else if s.slot.isSome then (s.slot, .done (.error (alreadyPopulated kind)), [])
    else (s.slot, .create, [])
  | .release =>
    if !call.given then (s.slot, .done (.error (missingArgument kind.name)), [])
    else
      match s.slot with
      | none => (s.slot, .done (.error (uninitialized kind)), [])
      | some p => (none, .on p (.drop (.ok ())), [.released p])
  | .cancel =>
    match s.slotOf call with
    | none => (s.slot, .done (.error (uninitialized kind)), [])
    | some p => (s.slot, .on p .strong, [])
  | .setOption _ (.error e) => (s.slot, .done (.error e), [])
  | _ =>
    match s.slotOf call with
    | none => (s.slot, .done (.error (uninitialized kind)), [])
    | some p => (s.slot, .on p .lock, [])

/-- `into_private_data_with_cancel`. -/
def exported (state : Staged K V S) (cancel : Option H) : Exported K V S H where
  strong := 1
  poisoned := false
  cancel := cancel
  cancelHolder := none
  state := state
  holder := none

/-- The object that a `New` makes, or why it makes none. -/
def made (kind : Kind) (answer : Answer S H) :
    Option (Except Error (Exported K V S H × Option H)) :=
  match kind, answer with
  | .statement, .constructed state handle =>
    some (.ok (exported (.ready state) (some handle), some handle))
  | .statement, .ended (.error e) => some (.error e)
  | .statement, .ended (.panic message) => some (.error (caughtPanic message))
  | .statement, _ => none
  | _, _ => some (.ok (exported (.pending []) none, none))

/-- The object back in its place, or freed if that was the last reference. -/
def settle (heap : Heap (Exported K V S H)) (p : Nat) (o : Exported K V S H) :
    Heap (Exported K V S H) :=
  if o.strong = 0 then heap.clear p else heap.write p o

def step (kind : Kind) (asRef : K → List Char) (s : Sys K V S H) :
    Action K V S H → Option (Sys K V S H × List (Event K V H))
  | .call call =>
    if s.admits call then some ({ s with calls := s.calls ++ [(call, .start)] }, []) else none
  | .turn i answer =>
    match s.calls[i]? with
    | some (call, .start) =>
      let begun := s.start kind call
      some ({ s with slot := begun.1, calls := s.calls.set i (call, begun.2.1) }, begun.2.2)
    | some (call, .create) =>
      match made kind answer with
      | none => none
      | some (.error e) => some ({ s with calls := s.calls.set i (call, .done (.error e)) }, [])
      | some (.ok (o, handle)) =>
        some ({ slot := some s.heap.fresh, heap := s.heap.alloc o,
                calls := s.calls.set i (call, .done (.ok ())) },
          .created s.heap.fresh :: handle.toList.map (.initialised s.heap.fresh))
    | some (call, .on p pc) =>
      match s.heap.read p with
      | none => some (s, [.fault p])
      | some o =>
        match turn kind asRef i p call answer o pc with
        | none => none
        | some (o', phase, es) =>
          some ({ s with heap := settle s.heap p o', calls := s.calls.set i (call, phase) },
            es ++ if o'.strong = 0 then [.freed p] else [])
    | _ => none

end Sys

def handle (kind : Kind) (asRef : K → List Char) :
    Machine (Sys K V S H) (Action K V S H) (Event K V H) where
  step := Sys.step kind asRef

end Handle
end Ffi
end SpannerAdbc
