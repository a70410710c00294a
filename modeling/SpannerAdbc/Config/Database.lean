import SpannerAdbc.Config.Uri
import SpannerAdbc.Lib.Overwrite
import SpannerAdbc.Lib.Result
import SpannerAdbc.Session.Client

/-!
# SpannerAdbc.Config.Database

`SpannerDatabase` and its options. `Database` holds the configuration; the cached client stack, which
every set drops, is left out.

A set writes fields: an individual option one field, the connection URI the database path, the
endpoint if it has an authority, the fields of its query parameters, and itself. What it writes, and
whether it is accepted, depends on its key and its value only (`assignments`): `writes_setOption`.
-/

namespace SpannerAdbc
namespace Config

open Lib Session

/-- The keys of database options. -/
inductive OptionDatabase where
  | uri
  | username
  | password
  | other (name : List Char)
  deriving DecidableEq, Repr

def OptionDatabase.asRef : OptionDatabase → List Char
  | .uri => "uri".toList
  | .username => "username".toList
  | .password => "password".toList
  | .other name => name

structure Database where
  /-- The URI as it was set. -/
  uri : Option (List Char) := none
  database : Option (List Char) := none
  endpoint : Option (List Char) := none
  emulator : Bool := false
  keyfile : Option (List Char) := none
  keyfileJson : Option (List Char) := none
  impersonateTargetPrincipal : Option (List Char) := none
  impersonateDelegates : List (List Char) := []
  impersonateScopes : List (List Char) := []
  impersonateLifetimeSecs : Option Nat := none
  accessToken : Option (List Char) := none
  quotaProject : Option (List Char) := none
  deriving DecidableEq, Repr

def Database.new : Database := {}

/-! ## Values -/

def option (key : List Char) : List Char := "option ".toList ++ key

def stringValue (key : List Char) (value : OptionValue) : Except Error (List Char) :=
  stringOption value (option key)

def commaSeparated (value : List Char) : List (List Char) :=
  ((value.splitOn ',').map Sql.trim).filter fun part => !part.isEmpty

/-- `str::parse::<u64>`. -/
def parseU64 (s : List Char) : Option Nat :=
  let digits := match s with
    | '+' :: digits => digits
    | digits => digits
  if digits = [] ∨ digits.any (fun c => !c.isDigit) then none
  else
    let n := Nat.ofDigitChars 10 digits 0
    if n < 2 ^ 64 then some n else none

def secondsRejected (key : List Char) : List Char :=
  option key ++ " expects a non-negative integer number of seconds".toList

variable (K : Client) {s : OptionDatabase × OptionValue}
  {sets : List (OptionDatabase × OptionValue)}

def boolValue (key : List Char) (value : OptionValue) : Except Error Bool :=
  boolOption K value (option key)

def u64SecondsValue (key : List Char) (value : OptionValue) : Except Error Nat :=
  match value with
  | .int seconds =>
    if seconds ≥ 0 then .ok seconds.toNat else .error (invalidArgument (secondsRejected key))
  | .string seconds =>
    match parseU64 (Sql.trim seconds) with
    | some n => .ok n
    | none => .error (invalidArgument (secondsRejected key ++ ", got ".toList ++ K.debug seconds))
  | _ => .error (invalidArgument (secondsRejected key))

def unknownOption (objectKind key : List Char) : Error :=
  unsupported ("unsupported Spanner ".toList ++ objectKind ++ " option: ".toList ++ key)

/-! ## Sets -/

namespace Database

variable (self : Database)

/-- The arms of `set_option` for the options with a name of their own. -/
def setOther (name : List Char) (value : OptionValue) : Except Error Database :=
  if name = optionEndpoint then do
    return { self with endpoint := some (← stringValue name value) }
  else if name = optionEmulator then do
    return { self with emulator := ← boolValue K name value }
  else if name = optionKeyfile then do
    return { self with keyfile := some (← stringValue name value) }
  else if name = optionKeyfileJson then do
    return { self with keyfileJson := some (← stringValue name value) }
  else if name = optionImpersonateTargetPrincipal then do
    return { self with impersonateTargetPrincipal := some (← stringValue name value) }
  else if name = optionImpersonateDelegates then do
    return { self with impersonateDelegates := commaSeparated (← stringValue name value) }
  else if name = optionImpersonateScopes then do
    return { self with impersonateScopes := commaSeparated (← stringValue name value) }
  else if name = optionImpersonateLifetime then do
    return { self with impersonateLifetimeSecs := some (← u64SecondsValue K name value) }
  else if name = optionAccessToken then do
    return { self with accessToken := some (← stringValue name value) }
  else if name = optionQuotaProject then do
    let project ← stringValue name value
    return { self with quotaProject := if project = [] then none else some project }
  else .error (unknownOption "database".toList name)

def setParams : Database → List (List Char × List Char) → Except Error Database
  | self, [] => .ok self
  | self, (key, value) :: params => do
    let self ← self.setOther K key (.string value)
    setParams self params

/-- The path and, if there is one, the authority of a URI. -/
def withPath (parsed : ParsedConnectionUri) : Database :=
  match parsed.endpoint with
  | some endpoint => { self with database := some parsed.database, endpoint := some endpoint }
  | none => { self with database := some parsed.database }

def applyConnectionUri (uri remainder : List Char) : Except Error Database := do
  let parsed ← parseConnectionUri K.debug uri remainder
  -- a dry run on a scratch database, so that a bad value is found before anything is written
  let _ ← setParams K new parsed.params
  setParams K (self.withPath parsed) parsed.params

def uriRejected (value : List Char) : Error :=
  invalidArgument ("the `uri` option value ".toList ++ K.debug value ++
    " is not a `spanner://` connection URI: a bare database path or a foreign scheme is not ".toList ++
    "accepted; write `spanner:///".toList ++ value ++
    "` (three slashes, no endpoint host) or `spanner://<host:port>/".toList ++ value ++ "`".toList)

def setUriOption (value : List Char) : Except Error Database := do
  match connectionUriRemainder value with
  | none => throw (uriRejected K value)
  | some remainder =>
    let self ← self.applyConnectionUri K value remainder
    return { self with uri := some value }

def setOption (key : OptionDatabase) (value : OptionValue) : Except Error Database :=
  match key with
  | .uri => do
    let value ← stringValue key.asRef value
    self.setUriOption K value
  | .other name => self.setOther K name value
  | .username | .password => .error (unknownOption "database".toList key.asRef)

/-- One set after the other; the first that is refused ends the sequence. -/
def setOptions : Database → List (OptionDatabase × OptionValue) → Except Error Database
  | self, [] => .ok self
  | self, (key, value) :: sets => do
    let self ← self.setOption K key value
    setOptions self sets

end Database

/-! ## Fields and what is written to them -/

inductive Field where
  | uri
  | database
  | endpoint
  | emulator
  | keyfile
  | keyfileJson
  | impersonateTargetPrincipal
  | impersonateDelegates
  | impersonateScopes
  | impersonateLifetimeSecs
  | accessToken
  | quotaProject
  deriving DecidableEq, Repr

inductive FieldValue where
  | text (value : Option (List Char))
  | flag (value : Bool)
  | texts (value : List (List Char))
  | seconds (value : Option Nat)
  deriving DecidableEq, Repr

variable {f : Field}

/-- The configuration as a function of its fields. -/
def Database.get (self : Database) : Field → FieldValue
  | .uri => .text self.uri
  | .database => .text self.database
  | .endpoint => .text self.endpoint
  | .emulator => .flag self.emulator
  | .keyfile => .text self.keyfile
  | .keyfileJson => .text self.keyfileJson
  | .impersonateTargetPrincipal => .text self.impersonateTargetPrincipal
  | .impersonateDelegates => .texts self.impersonateDelegates
  | .impersonateScopes => .texts self.impersonateScopes
  | .impersonateLifetimeSecs => .seconds self.impersonateLifetimeSecs
  | .accessToken => .text self.accessToken
  | .quotaProject => .text self.quotaProject

theorem Database.ext_get {a b : Database} (h : ∀ f, a.get f = b.get f) : a = b := by
  obtain ⟨a1, a2, a3, a4, a5, a6, a7, a8, a9, a10, a11, a12⟩ := a
  obtain ⟨b1, b2, b3, b4, b5, b6, b7, b8, b9, b10, b11, b12⟩ := b
  have h1 := h .uri
  have h2 := h .database
  have h3 := h .endpoint
  have h4 := h .emulator
  have h5 := h .keyfile
  have h6 := h .keyfileJson
  have h7 := h .impersonateTargetPrincipal
  have h8 := h .impersonateDelegates
  have h9 := h .impersonateScopes
  have h10 := h .impersonateLifetimeSecs
  have h11 := h .accessToken
  have h12 := h .quotaProject
  simp only [get, FieldValue.text.injEq, FieldValue.flag.injEq, FieldValue.texts.injEq,
    FieldValue.seconds.injEq] at h1 h2 h3 h4 h5 h6 h7 h8 h9 h10 h11 h12
  subst h1 h2 h3 h4 h5 h6 h7 h8 h9 h10 h11 h12
  rfl

/-- What an individual option writes. -/
def assignment (name : List Char) (value : OptionValue) :
    Except Error (List (Field × FieldValue)) :=
  if name = optionEndpoint then do return [(.endpoint, .text (some (← stringValue name value)))]
  else if name = optionEmulator then do return [(.emulator, .flag (← boolValue K name value))]
  else if name = optionKeyfile then do return [(.keyfile, .text (some (← stringValue name value)))]
  else if name = optionKeyfileJson then do
    return [(.keyfileJson, .text (some (← stringValue name value)))]
  else if name = optionImpersonateTargetPrincipal then do
    return [(.impersonateTargetPrincipal, .text (some (← stringValue name value)))]
  else if name = optionImpersonateDelegates then do
    return [(.impersonateDelegates, .texts (commaSeparated (← stringValue name value)))]
  else if name = optionImpersonateScopes then do
    return [(.impersonateScopes, .texts (commaSeparated (← stringValue name value)))]
  else if name = optionImpersonateLifetime then do
    return [(.impersonateLifetimeSecs, .seconds (some (← u64SecondsValue K name value)))]
  else if name = optionAccessToken then do
    return [(.accessToken, .text (some (← stringValue name value)))]
  else if name = optionQuotaProject then do
    let project ← stringValue name value
    return [(.quotaProject, .text (if project = [] then none else some project))]
  else .error (unknownOption "database".toList name)

def paramAssignments : List (List Char × List Char) → Except Error (List (Field × FieldValue))
  | [] => .ok []
  | (key, value) :: params => do
    return (← assignment K key (.string value)) ++ (← paramAssignments params)

/-- What a connection URI writes, in order. -/
def uriAssignments (value : List Char) : Except Error (List (Field × FieldValue)) :=
  match connectionUriRemainder value with
  | none => .error (Database.uriRejected K value)
  | some remainder => do
    let parsed ← parseConnectionUri K.debug value remainder
    let params ← paramAssignments K parsed.params
    return (.database, .text (some parsed.database)) ::
      (parsed.endpoint.toList.map fun e => (.endpoint, .text (some e))) ++ params ++
      [(.uri, .text (some value))]

def assignments (key : OptionDatabase) (value : OptionValue) :
    Except Error (List (Field × FieldValue)) :=
  match key with
  | .uri => do uriAssignments K (← stringValue key.asRef value)
  | .other name => assignment K name value
  | .username | .password => .error (unknownOption "database".toList key.asRef)

/-- A set that fails as `r` does, and otherwise writes what `r` says. -/
def Writes (r : Except Error (List (Field × FieldValue))) (set : Database → Except Error Database) :
    Prop :=
  ∀ self, (∃ e, r = .error e ∧ set self = .error e) ∨
    ∃ as self', r = .ok as ∧ set self = .ok self' ∧
      ∀ f, self'.get f = (written as f).getD (self.get f)

namespace Writes

variable {r r' : Except Error (List (Field × FieldValue))}
  {set set' : Database → Except Error Database}

theorem ok : Writes (.ok []) .ok := fun self => .inr ⟨[], self, rfl, rfl, fun _ => rfl⟩

theorem error (e : Error) : Writes (.error e) fun _ => .error e := fun _ => .inl ⟨e, rfl, rfl⟩

/-- One set behind another writes what both write, in order. -/
theorem bind (h : Writes r set) (h' : Writes r' set') :
    Writes (do return (← r) ++ (← r')) (fun self => set self >>= set') := by
  intro self
  dsimp only
  rcases h self with ⟨e, rfl, hs⟩ | ⟨as, self₁, rfl, hs, hget⟩
  · exact .inl ⟨e, rfl, by rw [hs]; rfl⟩
  · rw [hs]
    rcases h' self₁ with ⟨e, rfl, hs'⟩ | ⟨bs, self₂, rfl, hs', hget'⟩
    · exact .inl ⟨e, rfl, hs'⟩
    · refine .inr ⟨as ++ bs, self₂, rfl, hs', fun f => ?_⟩
      rw [hget', hget, written_append]
      cases written bs f <;> simp

theorem ite {c : Prop} [Decidable c] (h : Writes r set) (h' : Writes r' set') :
    Writes (if c then r else r') fun self => if c then set self else set' self := by
  by_cases hc : c
  · simpa only [if_pos hc] using h
  · simpa only [if_neg hc] using h'

/-- One field is written. -/
theorem field {α : Type} {v : Except Error α} {f : Field} {x : α → FieldValue}
    {put : Database → α → Database}
    (hput : ∀ self a g, (put self a).get g = if f = g then x a else self.get g) :
    Writes (do return [(f, x (← v))]) fun self => do return put self (← v) := by
  intro self
  cases v with
  | error e => exact .inl ⟨e, rfl, rfl⟩
  | ok a =>
    refine .inr ⟨[(f, x a)], put self a, rfl, rfl, fun g => ?_⟩
    rw [hput, written_singleton]
    split <;> rfl

end Writes

theorem writes_setOther (name : List Char) (value : OptionValue) :
    Writes (assignment K name value) fun self => self.setOther K name value := by
  unfold assignment Database.setOther
  refine .ite (.field ?_) (.ite (.field ?_) (.ite (.field ?_) (.ite (.field ?_) (.ite (.field ?_)
    (.ite (.field ?_) (.ite (.field ?_) (.ite (.field ?_) (.ite (.field ?_) (.ite (.field ?_)
    (.error _)))))))))) <;>
  · intro self a g
    cases g <;> rfl

theorem writes_setParams (params : List (List Char × List Char)) :
    Writes (paramAssignments K params) fun self => self.setParams K params := by
  induction params with
  | nil => exact .ok
  | cons param params ih => exact (writes_setOther K _ _).bind ih

theorem get_withPath (self : Database) (parsed : ParsedConnectionUri) (f : Field) :
    (self.withPath parsed).get f = (written ((.database, .text (some parsed.database)) ::
      (parsed.endpoint.toList.map fun e => (Field.endpoint, FieldValue.text (some e)))) f).getD
        (self.get f) := by
  unfold Database.withPath
  cases parsed.endpoint with
  | none => cases f <;> rfl
  | some endpoint => cases f <;> rfl

theorem get_setUri (self : Database) (value : List Char) (f : Field) :
    Database.get { self with uri := some value } f =
      (written [(Field.uri, FieldValue.text (some value))] f).getD (self.get f) := by
  cases f <;> rfl

theorem writes_setUriOption (value : List Char) :
    Writes (uriAssignments K value) fun self => self.setUriOption K value := by
  intro self
  unfold uriAssignments Database.setUriOption Database.applyConnectionUri
  cases connectionUriRemainder value with
  | none => exact .inl ⟨_, rfl, rfl⟩
  | some remainder =>
    dsimp only
    cases parseConnectionUri K.debug value remainder with
    | error e => exact .inl ⟨e, rfl, rfl⟩
    | ok parsed =>
      have hparams := writes_setParams K parsed.params
      rcases hparams .new with ⟨e, hr, hs⟩ | ⟨as, scratch, hr, hs, -⟩
      · refine .inl ⟨e, ?_, ?_⟩
        · simp only [hr, Bind.bind, Except.bind]
        · simp only [hs, Bind.bind, Except.bind]
      · -- the same parameters are accepted on the database itself
        rcases hparams (self.withPath parsed) with ⟨e, hr', -⟩ | ⟨as', self', hr', hs', hget⟩
        · rw [hr] at hr'
          cases hr'
        · rw [hr] at hr'
          cases hr'
          refine .inr ⟨_, { self' with uri := some value },
            bind_eq_ok.mpr ⟨parsed, rfl, bind_eq_ok.mpr ⟨as, hr, rfl⟩⟩,
            bind_eq_ok.mpr ⟨self', bind_eq_ok.mpr ⟨parsed, rfl, bind_eq_ok.mpr ⟨scratch, hs, hs'⟩⟩, rfl⟩,
            fun f => ?_⟩
          rw [get_setUri, hget, get_withPath, written_append, written_append]
          cases written [(Field.uri, FieldValue.text (some value))] f <;>
            cases written as f <;> simp

/-- What a set does depends on the set only, not on the configuration. -/
theorem writes_setOption (key : OptionDatabase) (value : OptionValue) :
    Writes (assignments K key value) fun self => self.setOption K key value := by
  cases key with
  | uri =>
    unfold assignments Database.setOption
    cases stringValue OptionDatabase.uri.asRef value with
    | error e => exact .error e
    | ok value => exact writes_setUriOption K value
  | username => exact .error _
  | password => exact .error _
  | other name => exact writes_setOther K name value

/-- The assignments of a set that is accepted. -/
def assigned (s : OptionDatabase × OptionValue) : List (Field × FieldValue) :=
  match assignments K s.1 s.2 with
  | .ok as => as
  | .error _ => []

def Accepted (s : OptionDatabase × OptionValue) : Prop := ∃ as, assignments K s.1 s.2 = .ok as

theorem assigned_eq {as : List (Field × FieldValue)} (h : assignments K s.1 s.2 = .ok as) :
    assigned K s = as := by
  rw [assigned, h]

theorem setOption_accepted (h : Accepted K s) (self : Database) :
    ∃ self', self.setOption K s.1 s.2 = .ok self' ∧
      ∀ f, self'.get f = (written (assigned K s) f).getD (self.get f) := by
  obtain ⟨as, h⟩ := h
  rcases writes_setOption K s.1 s.2 self with ⟨e, he, -⟩ | ⟨as', self', hr, hs, hget⟩
  · rw [h] at he
    cases he
  · rw [h] at hr
    cases hr
    refine ⟨self', hs, ?_⟩
    rw [assigned_eq K h]
    exact hget

theorem accepted_of_setOption {self self' : Database} (h : self.setOption K s.1 s.2 = .ok self') :
    Accepted K s := by
  rcases writes_setOption K s.1 s.2 self with ⟨e, -, hs⟩ | ⟨as, self₁, hr, -, -⟩
  · dsimp only at hs
    rw [h] at hs
    cases hs
  · exact ⟨as, hr⟩

/-- A sequence of accepted sets leaves in every field what was written last. -/
theorem setOptions_accepted (h : ∀ s ∈ sets, Accepted K s) (self : Database) :
    ∃ self', self.setOptions K sets = .ok self' ∧
      ∀ f, self'.get f = (written (sets.flatMap (assigned K)) f).getD (self.get f) := by
  induction sets generalizing self with
  | nil => exact ⟨self, rfl, fun _ => rfl⟩
  | cons s sets ih =>
    obtain ⟨self₁, hs, hget⟩ := setOption_accepted K (h s List.mem_cons_self) self
    obtain ⟨self₂, hs', hget'⟩ := ih (fun s' hs' => h s' (List.mem_cons_of_mem _ hs')) self₁
    refine ⟨self₂, bind_eq_ok.mpr ⟨self₁, hs, hs'⟩, fun f => ?_⟩
    rw [hget', hget, List.flatMap_cons, written_append]
    cases written (sets.flatMap (assigned K)) f <;> simp

theorem accepted_of_setOptions {self self' : Database} (h : self.setOptions K sets = .ok self') :
    ∀ s ∈ sets, Accepted K s := by
  induction sets generalizing self with
  | nil => simp
  | cons s sets ih =>
    obtain ⟨self₁, hs, hs'⟩ := bind_eq_ok.mp h
    intro s' hm
    rcases List.mem_cons.mp hm with rfl | hm
    · exact accepted_of_setOption K hs
    · exact ih hs' s' hm

/-! ## Who writes a field -/

/-- The key of the option that a field belongs to. -/
def Field.key : Field → OptionDatabase
  | .uri | .database => .uri
  | .endpoint => .other optionEndpoint
  | .emulator => .other optionEmulator
  | .keyfile => .other optionKeyfile
  | .keyfileJson => .other optionKeyfileJson
  | .impersonateTargetPrincipal => .other optionImpersonateTargetPrincipal
  | .impersonateDelegates => .other optionImpersonateDelegates
  | .impersonateScopes => .other optionImpersonateScopes
  | .impersonateLifetimeSecs => .other optionImpersonateLifetime
  | .accessToken => .other optionAccessToken
  | .quotaProject => .other optionQuotaProject

/-- All assignments are to fields of the key. -/
def WritesKey (key : OptionDatabase) (r : Except Error (List (Field × FieldValue))) : Prop :=
  ∀ as, r = .ok as → ∀ a ∈ as, a.1.key = key

namespace WritesKey

variable {key : OptionDatabase}

theorem ite {c : Prop} [Decidable c] {r r' : Except Error (List (Field × FieldValue))}
    (h : c → WritesKey key r) (h' : WritesKey key r') : WritesKey key (if c then r else r') := by
  by_cases hc : c
  · rw [if_pos hc]
    exact h hc
  · rw [if_neg hc]
    exact h'

theorem field {α : Type} {v : Except Error α} {f : Field} {x : α → FieldValue} (hf : f.key = key) :
    WritesKey key (do return [(f, x (← v))]) := by
  intro as hv a ha
  obtain ⟨y, -, hy⟩ := bind_eq_ok.mp hv
  cases hy
  rw [List.mem_singleton.mp ha]
  exact hf

end WritesKey

/-- An individual option writes the field of its own. -/
theorem writesKey_assignment (name : List Char) (value : OptionValue) :
    WritesKey (.other name) (assignment K name value) := by
  unfold assignment
  refine .ite (fun hn => .field ?_) (.ite (fun hn => .field ?_) (.ite (fun hn => .field ?_)
    (.ite (fun hn => .field ?_) (.ite (fun hn => .field ?_) (.ite (fun hn => .field ?_)
    (.ite (fun hn => .field ?_) (.ite (fun hn => .field ?_) (.ite (fun hn => .field ?_)
    (.ite (fun hn => .field ?_) ?_)))))))))
  case refine_11 =>
    intro as h
    cases h
  all_goals
    rw [hn]
    rfl

theorem written_of_other_key (hk : s.1 ≠ f.key) (hu : s.1 ≠ .uri) :
    written (assigned K s) f = none := by
  obtain ⟨key, value⟩ := s
  unfold assigned
  cases ha : assignments K key value with
  | error e => rfl
  | ok as =>
    cases key with
    | uri => exact absurd rfl hu
    | username => cases ha
    | password => cases ha
    | other name =>
      refine written_eq_none fun a hm hf => hk ?_
      rw [← hf]
      exact (writesKey_assignment K name value as ha a hm).symm

/-- An accepted URI writes itself and the database path. -/
theorem written_of_uri {value : OptionValue} (h : Accepted K (.uri, value)) (hf : f.key = .uri) :
    (written (assigned K (.uri, value)) f).isSome := by
  obtain ⟨as, h⟩ := h
  rw [assigned_eq K h]
  obtain ⟨text, -, hu⟩ := bind_eq_ok.mp h
  unfold uriAssignments at hu
  split at hu
  · cases hu
  · obtain ⟨parsed, -, hu⟩ := bind_eq_ok.mp hu
    obtain ⟨params, -, hu⟩ := bind_eq_ok.mp hu
    cases hu
    cases f with
    | uri => simp [written_append, written]
    | database => simp [written_append, written]
    | _ => cases hf

/-- In the fields that only the URI writes its last value counts. -/
theorem written_uri_field (h : ∀ s ∈ sets, Accepted K s) (hf : f.key = .uri) :
    written (sets.flatMap (assigned K)) f = part (assigned K) f sets .uri := by
  refine written_flatMap_one ?_ ?_
  · rintro ⟨key, value⟩ hm rfl
    exact written_of_uri K (h _ hm) hf
  · intro s _ hu
    exact written_of_other_key K (hf.symm ▸ hu) hu

/-! ## Reads -/

/-- The two options that hold a secret are write-only. -/
def writeOnly (name : List Char) : Error :=
  err ("option ".toList ++ name ++
    " is write-only (it holds a secret) and cannot be read back".toList) .notFound

def optionNotSet (key : List Char) : Error :=
  err ("option ".toList ++ key ++ " is not set or not recognized by this driver".toList) .notFound

namespace Database

variable (self : Database)

/-- The arms of `get_option_string` for the options with a name of their own. -/
def getOther (name : List Char) : Option (List Char) :=
  if name = optionEndpoint then self.endpoint
  else if name = optionEmulator then
    some (if self.emulator then "true".toList else "false".toList)
  else if name = optionKeyfile then self.keyfile
  else if name = optionImpersonateTargetPrincipal then self.impersonateTargetPrincipal
  else if name = optionImpersonateDelegates then
    if self.impersonateDelegates = [] then none
    else some (join ",".toList self.impersonateDelegates)
  else if name = optionImpersonateScopes then
    if self.impersonateScopes = [] then none else some (join ",".toList self.impersonateScopes)
  else if name = optionImpersonateLifetime then
    self.impersonateLifetimeSecs.map fun secs => Nat.toDigits 10 secs
  else if name = optionQuotaProject then self.quotaProject
  else none

def getOptionString (key : OptionDatabase) : Except Error (List Char) :=
  match key with
  | .uri => self.uri.elim (.error (optionNotSet key.asRef)) .ok
  | .other name =>
    if name = optionKeyfileJson ∨ name = optionAccessToken then .error (writeOnly name)
    else (self.getOther name).elim (.error (optionNotSet name)) .ok
  | .username | .password => .error (optionNotSet key.asRef)

end Database

end Config
end SpannerAdbc
