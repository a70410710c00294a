import SpannerAdbc.Config.Database

/-!
# SpannerAdbc.Config.Staged

The exported database before and after `Init`. Before it, options are buffered with one entry for
each key (`OptionBuffer::set` is `Lib.upsert`); `Init` replays the buffer on a fresh database.

A buffer keeps the last value of a key, but the place of its first set. Keys that write fields of
their own do not notice. The connection URI writes fields of other keys too, so for such a field it
matters which of the two keys was set last in the calls (`callOrder`), and first in the buffer
(`bufferOrder`): `buffered_eq_live_iff`.
-/

namespace SpannerAdbc
namespace Config

open Lib Session

inductive Staged where
  | pending (entries : List (OptionDatabase × OptionValue))
  | ready (database : Database)

variable (K : Client)

namespace Staged

/-- A handle that `New` has made. -/
def new : Staged := .pending []

def set (self : Staged) (key : OptionDatabase) (value : OptionValue) : Except Error Staged :=
  match self with
  | .pending entries => .ok (.pending (upsert key value entries))
  | .ready database => do return .ready (← database.setOption K key value)

def setAll : Staged → List (OptionDatabase × OptionValue) → Except Error Staged
  | self, [] => .ok self
  | self, (key, value) :: sets => do
    let self ← self.set K key value
    setAll self sets

/-- `database_init`. -/
def init (self : Staged) : Except Error Staged :=
  match self with
  | .pending entries => do return .ready (← Database.new.setOptions K entries)
  | .ready _ => .error (err "database is already initialized".toList .invalidState)

theorem setAll_pending (entries sets : List (OptionDatabase × OptionValue)) :
    setAll K (.pending entries) sets =
      .ok (.pending (sets.foldl (fun entries s => upsert s.1 s.2 entries) entries)) := by
  induction sets generalizing entries with
  | nil => rfl
  | cons s sets ih => exact ih (upsert s.1 s.2 entries)

theorem setAll_ready (database : Database) (sets : List (OptionDatabase × OptionValue)) :
    setAll K (.ready database) sets = do return .ready (← database.setOptions K sets) := by
  induction sets generalizing database with
  | nil => rfl
  | cons s sets ih =>
    rw [setAll, set, Database.setOptions, bind_assoc, bind_assoc]
    exact bind_congr fun self => ih self

end Staged

/-! ## The two orders -/

section Orders

variable (sets : List (OptionDatabase × OptionValue)) (f : Field)

/-- What is written to a field last, in the order of the calls. -/
def callOrder : Option FieldValue := written (sets.flatMap (assigned K)) f

/-- What is written to a field last when its own key and the URI are set once, each with its last
value, in the order in which they were first set. -/
def bufferOrder : Option FieldValue :=
  if (sets.find? fun s => s.1 = f.key ∨ s.1 = .uri).map Prod.fst = some .uri then
    (part (assigned K) f sets f.key).or (part (assigned K) f sets .uri)
  else (part (assigned K) f sets .uri).or (part (assigned K) f sets f.key)

theorem written_buffer (hf : f.key ≠ .uri) :
    written ((collapse sets).flatMap (assigned K)) f = bufferOrder K sets f :=
  written_collapse hf fun _ _ hk hu => written_of_other_key K hk hu

end Orders

/-- Options buffered before `Init` mean what they mean on a live database if and only if every field
with an option of its own is left with the same value by both orders. -/
theorem buffered_eq_live_iff {sets : List (OptionDatabase × OptionValue)} {live : Database}
    (h : (Staged.ready .new).setAll K sets = .ok (.ready live)) :
    (Staged.new.setAll K sets >>= Staged.init K) = .ok (.ready live) ↔
      ∀ f : Field, f.key ≠ .uri → (callOrder K sets f).getD (Database.new.get f) =
        (bufferOrder K sets f).getD (Database.new.get f) := by
  have hlive : Database.new.setOptions K sets = .ok live := by
    rw [Staged.setAll_ready] at h
    obtain ⟨database, hd, he⟩ := bind_eq_ok.mp h
    cases he
    exact hd
  have hacc := accepted_of_setOptions K hlive
  have hacc' : ∀ s ∈ collapse sets, Accepted K s := fun s hs => hacc s (mem_of_mem_collapse hs)
  obtain ⟨live', hlive', hget⟩ := setOptions_accepted K hacc .new
  obtain rfl : live' = live := Except.ok.inj (hlive'.symm.trans hlive)
  obtain ⟨buffered, hbuffered, hget'⟩ := setOptions_accepted K hacc' .new
  have hinit : (Staged.new.setAll K sets >>= Staged.init K) = .ok (.ready buffered) := by
    rw [Staged.new, Staged.setAll_pending]
    exact bind_eq_ok.mpr ⟨_, rfl, bind_eq_ok.mpr ⟨buffered, hbuffered, rfl⟩⟩
  rw [hinit, Except.ok.injEq, Staged.ready.injEq]
  constructor
  · rintro rfl f hf
    rw [callOrder, ← hget, ← written_buffer K sets f hf, ← hget']
  · intro hall
    refine Database.ext_get fun f => ?_
    rw [hget, hget']
    by_cases hf : f.key = .uri
    · rw [written_uri_field K hacc hf, written_uri_field K hacc' hf, part, part,
        written_collapse_key]
    · rw [written_buffer K sets f hf]
      exact (hall f hf).symm

def uriWithHost : OptionValue :=
  .string "spanner://h:1/projects/p/instances/i/databases/d".toList

/-- The endpoint is set twice, both times after the URI. -/
def endpointRepeated : List (OptionDatabase × OptionValue) :=
  [(.uri, uriWithHost), (.other optionEndpoint, .string "a".toList),
    (.other optionEmulator, .string "true".toList), (.other optionEndpoint, .string "b".toList)]

def endpointRepeatedLive : Database :=
  { uri := some "spanner://h:1/projects/p/instances/i/databases/d".toList
    database := some "projects/p/instances/i/databases/d".toList
    endpoint := some "b".toList, emulator := true }

theorem buffered_eq_live_iff_repeated :
    (Staged.new.setAll plainClient endpointRepeated >>= Staged.init plainClient) =
      .ok (.ready endpointRepeatedLive) := by
  have hlive : (Staged.ready .new).setAll plainClient endpointRepeated = .ok (.ready endpointRepeatedLive) := by
    rw [Staged.setAll_ready]
    have h : Database.new.setOptions plainClient endpointRepeated = .ok endpointRepeatedLive := by decide +kernel
    rw [h]
    rfl
  refine (buffered_eq_live_iff plainClient hlive).mpr ?_
  intro f _
  cases f <;> decide +kernel

/-- The endpoint is set, then a URI with a host, then the endpoint again. -/
def endpointTwice : List (OptionDatabase × OptionValue) :=
  [(.other optionEndpoint, .string "a".toList), (.uri, uriWithHost),
    (.other optionEndpoint, .string "b".toList)]

def Staged.endpoint : Staged → Option (List Char)
  | .pending _ => none
  | .ready database => database.endpoint

/-- On a live database the endpoint is the one that was set last; from the buffer it is the one of
the URI. -/
theorem buffered_endpoint_lost :
    ((Staged.ready .new).setAll plainClient endpointTwice).map Staged.endpoint =
      .ok (some "b".toList) ∧
    (Staged.new.setAll plainClient endpointTwice >>= Staged.init plainClient).map Staged.endpoint =
      .ok (some "h:1".toList) := by
  decide +kernel

end Config
end SpannerAdbc
