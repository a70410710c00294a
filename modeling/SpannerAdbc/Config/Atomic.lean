import SpannerAdbc.Config.Database

/-!
# SpannerAdbc.Config.Atomic

`set_option` writes the configuration in place, so what it has written before it fails stays written.
`SetM` is that: a state that survives an error. A connection URI writes several fields, and is atomic
because a dry run of its query parameters on a scratch database fails where the real one would
(`setUriOptionInPlace_atomic`).
-/

namespace SpannerAdbc
namespace Config

open Lib Session

/-- Updates of a configuration in place. -/
abbrev SetM := ExceptT Error (StateM Database)

/-- The operator `?`. -/
def ofResult {α : Type} (r : Except Error α) : SetM α := ExceptT.mk (pure r)

section Run

variable {α β : Type} (self : Database)

def runSet (m : SetM α) : Except Error α × Database := m.run.run self

@[simp] theorem runSet_pure (a : α) : runSet self (pure a) = (.ok a, self) := rfl

@[simp] theorem runSet_throw (e : Error) : runSet self (throw e : SetM α) = (.error e, self) := rfl

@[simp] theorem runSet_ofResult (r : Except Error α) : runSet self (ofResult r) = (r, self) := rfl

@[simp] theorem runSet_getThe : runSet self (getThe Database) = (.ok self, self) := rfl

@[simp] theorem runSet_set (self' : Database) : runSet self (set self' : SetM _) = (.ok ⟨⟩, self') := rfl

@[simp] theorem runSet_modify (f : Database → Database) :
    runSet self (modify f : SetM _) = (.ok ⟨⟩, f self) := rfl

theorem runSet_bind (m : SetM α) (f : α → SetM β) : runSet self (m >>= f) =
    match runSet self m with
    | (.ok a, self') => runSet self' (f a)
    | (.error e, self') => (.error e, self') := by
  simp only [runSet, ExceptT.run_bind, StateT.run_bind]
  rcases h : m.run.run self with ⟨r, self'⟩
  cases r <;> rfl

end Run

variable (K : Client) {as : List (Field × FieldValue)} {parsed : ParsedConnectionUri}
  {params before after : List (List Char × List Char)} {self' : Database} {m : SetM Unit}
  {f : Field} {remainder : List Char} {value : OptionValue}

namespace Database

/-- An arm converts its value and then writes one field. -/
def setOtherInPlace (name : List Char) (value : OptionValue) : SetM Unit := do
  let self ← getThe Database
  let self' ← ofResult (self.setOther K name value)
  set self'

def setParamsInPlace : List (List Char × List Char) → SetM Unit
  | [] => pure ()
  | (key, value) :: params => do
    setOtherInPlace K key (.string value)
    setParamsInPlace params

def applyConnectionUriInPlace (uri remainder : List Char) : SetM Unit := do
  let parsed ← ofResult (parseConnectionUri K.debug uri remainder)
  ofResult (runSet new (setParamsInPlace K parsed.params)).1
  modify fun self => { self with database := some parsed.database }
  match parsed.endpoint with
  | some endpoint => modify fun self => { self with endpoint := some endpoint }
  | none => pure ()
  setParamsInPlace K parsed.params

def setUriOptionInPlace (value : List Char) : SetM Unit := do
  match connectionUriRemainder value with
  | none => throw (uriRejected K value)
  | some remainder =>
    applyConnectionUriInPlace K value remainder
    modify fun self => { self with uri := some value }

def setOptionInPlace (key : OptionDatabase) (value : OptionValue) : SetM Unit :=
  match key with
  | .uri => do
    let value ← ofResult (stringValue key.asRef value)
    setUriOptionInPlace K value
  | .other name => setOtherInPlace K name value
  | .username | .password => throw (unknownOption "database".toList key.asRef)

end Database

/-! ## In place and as a whole -/

/-- The update that `set` describes, which a failure leaves undone. -/
def Atomic (m : SetM Unit) (set : Database → Except Error Database) : Prop :=
  ∀ self, (∃ self', set self = .ok self' ∧ runSet self m = (.ok (), self')) ∨
    ∃ e, set self = .error e ∧ runSet self m = (.error e, self)

/-- The same update, except that a failure may leave a part of it. -/
def Reports (m : SetM Unit) (set : Database → Except Error Database) : Prop :=
  ∀ self, (∃ self', set self = .ok self' ∧ runSet self m = (.ok (), self')) ∨
    ∃ e self', set self = .error e ∧ runSet self m = (.error e, self')

theorem Atomic.ok_iff {set : Database → Except Error Database} (h : Atomic m set)
    {self : Database} : runSet self m = (.ok (), self') ↔ set self = .ok self' := by
  rcases h self with ⟨self₁, hs, hm⟩ | ⟨e, hs, hm⟩
  · rw [hs, hm]
    simp
  · rw [hs, hm]
    simp

theorem Atomic.eq_of_error {set : Database → Except Error Database} (h : Atomic m set)
    {self : Database} {e : Error} (hm : runSet self m = (.error e, self')) : self' = self := by
  rcases h self with ⟨self₁, -, hm'⟩ | ⟨e', -, hm'⟩
  · cases hm'.symm.trans hm
  · cases hm'.symm.trans hm
    rfl

theorem Atomic.reports {set : Database → Except Error Database} (h : Atomic m set) :
    Reports m set := by
  intro self
  rcases h self with hok | ⟨e, hs, hm⟩
  · exact .inl hok
  · exact .inr ⟨e, self, hs, hm⟩

theorem Reports.bind {m' : SetM Unit} {set set' : Database → Except Error Database}
    (h : Reports m set) (h' : Reports m' set') :
    Reports (do m; m') fun self => set self >>= set' := by
  intro self
  dsimp only
  rcases h self with ⟨self₁, hs, hm⟩ | ⟨e, self₁, hs, hm⟩
  · rcases h' self₁ with ⟨self₂, hs', hm'⟩ | ⟨e, self₂, hs', hm'⟩
    · exact .inl ⟨self₂, by rw [hs]; exact hs', by rw [runSet_bind, hm]; exact hm'⟩
    · exact .inr ⟨e, self₂, by rw [hs]; exact hs', by rw [runSet_bind, hm]; exact hm'⟩
  · exact .inr ⟨e, self₁, by rw [hs]; rfl, by rw [runSet_bind, hm]⟩

theorem setOtherInPlace_atomic (name : List Char) (value : OptionValue) :
    Atomic (Database.setOtherInPlace K name value) fun self => self.setOther K name value := by
  intro self
  rw [Database.setOtherInPlace, runSet_bind, runSet_getThe]
  dsimp only
  rw [runSet_bind, runSet_ofResult]
  cases self.setOther K name value with
  | ok self' => exact .inl ⟨self', rfl, rfl⟩
  | error e => exact .inr ⟨e, rfl, rfl⟩

theorem setParamsInPlace_reports (params : List (List Char × List Char)) :
    Reports (Database.setParamsInPlace K params) fun self => self.setParams K params := by
  induction params with
  | nil => exact fun self => .inl ⟨self, rfl, rfl⟩
  | cons param params ih => exact (setOtherInPlace_atomic K _ _).reports.bind ih

/-- The real run succeeds after the dry run has: what a parameter does depends on it alone. -/
theorem setParams_of_scratch {scratch scratch' : Database}
    (h : scratch.setParams K params = .ok scratch') (self : Database) :
    ∃ self', self.setParams K params = .ok self' := by
  rcases writes_setParams K params scratch with ⟨e, -, hs⟩ | ⟨as, -, hr, -, -⟩
  · dsimp only at hs
    rw [h] at hs
    cases hs
  · rcases writes_setParams K params self with ⟨e, hr', -⟩ | ⟨-, self', -, hs, -⟩
    · rw [hr] at hr'
      cases hr'
    · exact ⟨self', hs⟩

theorem applyConnectionUriInPlace_atomic (uri remainder : List Char) :
    Atomic (Database.applyConnectionUriInPlace K uri remainder)
      fun self => self.applyConnectionUri K uri remainder := by
  intro self
  dsimp only
  rw [Database.applyConnectionUriInPlace, Database.applyConnectionUri, runSet_bind, runSet_ofResult]
  cases parseConnectionUri K.debug uri remainder with
  | error e => exact .inr ⟨e, rfl, rfl⟩
  | ok parsed =>
    have hparams := setParamsInPlace_reports K parsed.params
    dsimp only
    rw [runSet_bind, runSet_ofResult]
    rcases hparams .new with ⟨scratch, hs, hm⟩ | ⟨e, scratch, hs, hm⟩
    · obtain ⟨self', hself⟩ := setParams_of_scratch K hs (self.withPath parsed)
      refine .inl ⟨self', bind_eq_ok.mpr ⟨parsed, rfl, bind_eq_ok.mpr ⟨scratch, hs, hself⟩⟩, ?_⟩
      rcases hparams (self.withPath parsed) with ⟨_, hs', hm'⟩ | ⟨_, _, hs', -⟩
      · rw [hm]
        dsimp only
        rw [runSet_bind, runSet_modify]
        dsimp only
        cases Except.ok.inj (hs'.symm.trans hself)
        rw [← hm', Database.withPath]
        cases parsed.endpoint with
        | some endpoint => rfl
        | none => rfl
      · cases hs'.symm.trans hself
    · refine .inr ⟨e, ?_, ?_⟩
      · simp only [hs, Bind.bind, Except.bind]
      · rw [hm]

theorem setUriOptionInPlace_atomic (value : List Char) :
    Atomic (Database.setUriOptionInPlace K value) fun self => self.setUriOption K value := by
  intro self
  dsimp only
  rw [Database.setUriOptionInPlace, Database.setUriOption]
  cases connectionUriRemainder value with
  | none => exact .inr ⟨_, rfl, rfl⟩
  | some remainder =>
    dsimp only
    rw [runSet_bind]
    rcases applyConnectionUriInPlace_atomic K value remainder self with ⟨self', hs, hm⟩ | ⟨e, hs, hm⟩
    · dsimp only at hs
      rw [hs, hm]
      exact .inl ⟨_, rfl, rfl⟩
    · dsimp only at hs
      rw [hs, hm]
      exact .inr ⟨e, rfl, rfl⟩

/-- Every set is atomic. -/
theorem setOptionInPlace_atomic (key : OptionDatabase) (value : OptionValue) :
    Atomic (Database.setOptionInPlace K key value) fun self => self.setOption K key value := by
  cases key with
  | uri =>
    intro self
    dsimp only [Database.setOptionInPlace, Database.setOption]
    rw [runSet_bind, runSet_ofResult]
    cases stringValue OptionDatabase.uri.asRef value with
    | error e => exact .inr ⟨e, rfl, rfl⟩
    | ok value => exact setUriOptionInPlace_atomic K value self
  | username => exact fun _ => .inr ⟨_, rfl, rfl⟩
  | password => exact fun _ => .inr ⟨_, rfl, rfl⟩
  | other name => exact setOtherInPlace_atomic K name value

/-! ## What a URI leaves behind -/

/-- A query parameter of an accepted URI names an option that a URI may carry. -/
theorem parseParam_key {pair : List Char} {param : List Char × List Char}
    (h : parseParam K.debug pair = .ok param) : param.1 ∈ uriQueryOptions ∧
      param.1 ∉ uriSecretOptions := by
  unfold parseParam at h
  obtain ⟨key, -, h⟩ := bind_eq_ok.mp h
  split at h
  · cases h
  · rename_i hsecret
    split at h
    · cases h
    · rename_i hknown
      obtain ⟨value, -, h⟩ := bind_eq_ok.mp h
      cases h
      exact ⟨not_not.mp hknown, hsecret⟩

theorem parseParams_keys {pairs : List (List Char)} (h : parseParams K.debug pairs = .ok params) :
    ∀ p ∈ params, p.1 ∈ uriQueryOptions ∧ p.1 ∉ uriSecretOptions := by
  induction pairs generalizing params with
  | nil =>
    cases h
    simp
  | cons pair pairs ih =>
    obtain ⟨param, hparam, h⟩ := bind_eq_ok.mp h
    obtain ⟨rest, hrest, h⟩ := bind_eq_ok.mp h
    cases h
    exact List.forall_mem_cons.mpr ⟨parseParam_key K hparam, ih hrest⟩

theorem parseConnectionUri_keys {uri : List Char}
    (h : parseConnectionUri K.debug uri remainder = .ok parsed) :
    ∀ p ∈ parsed.params, p.1 ∈ uriQueryOptions ∧ p.1 ∉ uriSecretOptions := by
  unfold parseConnectionUri at h
  split at h
  · cases h
  · dsimp only at h
    split at h
    · cases h
    · obtain ⟨database, -, h⟩ := bind_eq_ok.mp h
      obtain ⟨params, hparams, h⟩ := bind_eq_ok.mp h
      cases h
      exact parseParams_keys K hparams

/-- The configuration `now` that an accepted URI makes of `old`. -/
structure UriApplied (old now : Database) (value : List Char) (parsed : ParsedConnectionUri) :
    Prop where
  readBack : now.getOptionString .uri = .ok value
  database : now.database = some parsed.database
  /-- The last parameter of a key means what the option of that key means. -/
  param : ∀ before key text after, parsed.params = before ++ (key, text) :: after →
    (∀ p ∈ after, p.1 ≠ key) → ∃ f alone, f.key = .other key ∧
      Database.new.setOther K key (.string text) = .ok alone ∧ now.get f = alone.get f
  authority : ∀ host, parsed.endpoint = some host → (∀ p ∈ parsed.params, p.1 ≠ optionEndpoint) →
    now.endpoint = some host
  frame : ∀ f, f.key ≠ .uri → (f = .endpoint → parsed.endpoint = none) →
    (∀ p ∈ parsed.params, f.key ≠ .other p.1) → now.get f = old.get f

/-- One assignment is made. -/
def WritesOne (r : Except Error (List (Field × FieldValue))) : Prop :=
  ∀ as, r = .ok as → ∃ a, as = [a]

theorem WritesOne.ite {c : Prop} [Decidable c] {r r' : Except Error (List (Field × FieldValue))}
    (h : WritesOne r) (h' : WritesOne r') : WritesOne (if c then r else r') := by
  by_cases hc : c
  · rw [if_pos hc]
    exact h
  · rw [if_neg hc]
    exact h'

theorem WritesOne.field {α : Type} {v : Except Error α} {x : α → FieldValue} :
    WritesOne (do return [(f, x (← v))]) := by
  intro as h
  obtain ⟨a, -, ha⟩ := bind_eq_ok.mp h
  cases ha
  exact ⟨_, rfl⟩

/-- An individual option writes one field. -/
theorem assignment_eq_singleton {name : List Char} (h : assignment K name value = .ok as) :
    ∃ f x, as = [(f, x)] ∧ f.key = .other name := by
  have hkey := writesKey_assignment K name value as h
  have hone : WritesOne (assignment K name value) := by
    unfold assignment
    refine .ite .field (.ite .field (.ite .field (.ite .field (.ite .field (.ite .field
      (.ite .field (.ite .field (.ite .field (.ite .field ?_)))))))))
    intro as h
    cases h
  obtain ⟨⟨f, x⟩, rfl⟩ := hone as h
  exact ⟨f, x, rfl, hkey (f, x) List.mem_cons_self⟩

theorem paramAssignments_append (h : paramAssignments K (before ++ after) = .ok as) :
    ∃ as₁ as₂, paramAssignments K before = .ok as₁ ∧ paramAssignments K after = .ok as₂ ∧
      as = as₁ ++ as₂ := by
  induction before generalizing as with
  | nil => exact ⟨[], as, rfl, h, rfl⟩
  | cons param before ih =>
    obtain ⟨as₀, h₀, h⟩ := bind_eq_ok.mp h
    obtain ⟨rest, hrest, h⟩ := bind_eq_ok.mp h
    cases h
    obtain ⟨as₁, as₂, h₁, h₂, rfl⟩ := ih hrest
    refine ⟨as₀ ++ as₁, as₂, ?_, h₂, (List.append_assoc ..).symm⟩
    exact bind_eq_ok.mpr ⟨as₀, h₀, bind_eq_ok.mpr ⟨as₁, h₁, rfl⟩⟩

/-- Parameters leave the fields alone that they do not name. -/
theorem written_params_eq_none (h : paramAssignments K params = .ok as)
    (hf : ∀ p ∈ params, f.key ≠ .other p.1) : written as f = none := by
  induction params generalizing as with
  | nil =>
    cases h
    rfl
  | cons param params ih =>
    obtain ⟨hparam, hparams⟩ := List.forall_mem_cons.mp hf
    obtain ⟨as₀, h₀, h⟩ := bind_eq_ok.mp h
    obtain ⟨rest, hrest, h⟩ := bind_eq_ok.mp h
    cases h
    obtain ⟨g, x, rfl, hg⟩ := assignment_eq_singleton K h₀
    have hne : g ≠ f := by
      rintro rfl
      exact hparam hg
    rw [written_append, ih hrest hparams, written_singleton, if_neg hne]
    rfl

theorem written_last_param {key text : List Char}
    (h : paramAssignments K (before ++ (key, text) :: after) = .ok as)
    (hafter : ∀ p ∈ after, p.1 ≠ key) : ∃ f x, f.key = .other key ∧
      assignment K key (.string text) = .ok [(f, x)] ∧ written as f = some x := by
  obtain ⟨as₁, as₂, -, h₂, rfl⟩ := paramAssignments_append K h
  obtain ⟨as₀, h₀, h₂⟩ := bind_eq_ok.mp h₂
  obtain ⟨rest, hrest, h₂⟩ := bind_eq_ok.mp h₂
  cases h₂
  obtain ⟨f, x, rfl, hf⟩ := assignment_eq_singleton K h₀
  have hnone : written rest f = none := by
    refine written_params_eq_none K hrest fun p hp hkey => hafter p hp ?_
    rw [hf] at hkey
    exact (OptionDatabase.other.inj hkey).symm
  refine ⟨f, x, hf, h₀, ?_⟩
  rw [written_append, written_append, hnone, written_singleton, if_pos rfl]
  rfl

theorem setOther_of_assignment {key : List Char} {x : FieldValue}
    (h : assignment K key value = .ok [(f, x)]) (self : Database) :
    ∃ self', self.setOther K key value = .ok self' ∧ self'.get f = x := by
  rcases writes_setOther K key value self with ⟨e, hr, -⟩ | ⟨as, self', hr, hs, hget⟩
  · rw [h] at hr
    cases hr
  · rw [h] at hr
    cases hr
    refine ⟨self', hs, ?_⟩
    rw [hget, written_singleton, if_pos rfl]
    rfl

/-- An accepted URI was parsed, and its parameters say what they write. -/
theorem uriAssignments_eq_ok {value : List Char} (h : uriAssignments K value = .ok as) :
    ∃ remainder parsed params,
      connectionUriRemainder value = some remainder ∧
      parseConnectionUri K.debug value remainder = .ok parsed ∧
      paramAssignments K parsed.params = .ok params ∧
      as = (.database, .text (some parsed.database)) ::
        (parsed.endpoint.toList.map fun e => (.endpoint, .text (some e))) ++ params ++
        [(.uri, .text (some value))] := by
  unfold uriAssignments at h
  split at h
  · cases h
  · rename_i remainder hremainder
    obtain ⟨parsed, hparsed, h⟩ := bind_eq_ok.mp h
    obtain ⟨params, hparams, h⟩ := bind_eq_ok.mp h
    cases h
    exact ⟨remainder, parsed, params, hremainder, hparsed, hparams, rfl⟩

/-- What the path and the authority of a URI write. -/
def pathAssignments (parsed : ParsedConnectionUri) : List (Field × FieldValue) :=
  (.database, .text (some parsed.database)) ::
    parsed.endpoint.toList.map fun e => (.endpoint, .text (some e))

theorem written_path_eq_none (hf : f.key ≠ .uri) (he : f = .endpoint → parsed.endpoint = none) :
    written (pathAssignments parsed) f = none := by
  refine written_eq_none fun a ha hfield => ?_
  rcases List.mem_cons.mp ha with rfl | ha
  · exact hf (hfield ▸ rfl)
  · obtain ⟨host, hhost, rfl⟩ := List.mem_map.mp ha
    rw [he hfield.symm] at hhost
    cases hhost

theorem uriApplied_of_get {self : Database} {value : List Char}
    {params : List (Field × FieldValue)} (hparams : paramAssignments K parsed.params = .ok params)
    (hget : ∀ f, self'.get f = (written (pathAssignments parsed ++ params ++
      [(.uri, .text (some value))]) f).getD (self.get f)) :
    UriApplied K self self' value parsed := by
  have huri : self'.get .uri = .text (some value) := by
    rw [hget, written_append, written_singleton, if_pos rfl]
    rfl
  have hother : ∀ f, f ≠ .uri → self'.get f =
      ((written params f).or (written (pathAssignments parsed) f)).getD (self.get f) := by
    intro f hf
    rw [hget, written_append, written_append, written_singleton, if_neg (Ne.symm hf), Option.none_or]
  refine ⟨?_, ?_, ?_, ?_, ?_⟩
  · have hvalue : self'.uri = some value := FieldValue.text.inj huri
    rw [Database.getOptionString, hvalue]
    rfl
  · have hdatabase := hother .database (by decide)
    rw [written_params_eq_none K hparams fun p _ => by simp [Field.key], Option.none_or] at hdatabase
    refine FieldValue.text.inj (hdatabase.trans ?_)
    cases hend : parsed.endpoint <;> simp [pathAssignments, written, hend]
  · intro before key text after hsplit hafter
    rw [hsplit] at hparams
    obtain ⟨f, x, hkey, hassign, hwritten⟩ := written_last_param K hparams hafter
    obtain ⟨alone, halone, hx⟩ := setOther_of_assignment K hassign .new
    have hne : f ≠ .uri := by
      rintro rfl
      cases hkey
    refine ⟨f, alone, hkey, halone, ?_⟩
    rw [hother f hne, hwritten, hx]
    rfl
  · intro host hhost hno
    have hend := hother .endpoint (by decide)
    have hnone : written params .endpoint = none := by
      refine written_params_eq_none K hparams fun p hp hkey => hno p hp ?_
      exact (OptionDatabase.other.inj hkey).symm
    rw [hnone, Option.none_or] at hend
    refine FieldValue.text.inj (hend.trans ?_)
    simp [pathAssignments, written, hhost]
  · intro f hkey hend hno
    have hne : f ≠ .uri := by
      rintro rfl
      exact hkey rfl
    rw [hother f hne, written_params_eq_none K hparams hno, written_path_eq_none hkey hend]
    rfl

theorem uriApplied_of_setUriOption {self : Database} {value : List Char}
    (h : self.setUriOption K value = .ok self') : ∃ remainder parsed,
      connectionUriRemainder value = some remainder ∧
      parseConnectionUri K.debug value remainder = .ok parsed ∧
      UriApplied K self self' value parsed := by
  rcases writes_setUriOption K value self with ⟨e, -, hs⟩ | ⟨as, self₁, hr, hs, hget⟩
  · cases hs.symm.trans h
  · cases hs.symm.trans h
    obtain ⟨remainder, parsed, params, hremainder, hparsed, hparams, rfl⟩ := uriAssignments_eq_ok K hr
    exact ⟨remainder, parsed, hremainder, hparsed, uriApplied_of_get K hparams hget⟩

/-- What a set writes does not depend on the configuration, so a second one changes nothing. -/
theorem setUriOption_again {self : Database} {value : List Char}
    (h : self.setUriOption K value = .ok self') : self'.setUriOption K value = .ok self' := by
  rcases writes_setUriOption K value self with ⟨e, -, hs⟩ | ⟨as, self₁, hr, hs, hget⟩
  · cases hs.symm.trans h
  · cases hs.symm.trans h
    rcases writes_setUriOption K value self' with ⟨e, hr', -⟩ | ⟨as', self₂, hr', hs', hget'⟩
    · cases hr'.symm.trans hr
    · cases hr'.symm.trans hr
      have hsame : self₂ = self' := by
        refine Database.ext_get fun f => ?_
        rw [hget', hget]
        cases written as f <;> rfl
      exact hs'.trans (by rw [hsame])

theorem UriApplied.secret {old now : Database} {uri value : List Char}
    (h : UriApplied K old now value parsed)
    (hparsed : parseConnectionUri K.debug uri remainder = .ok parsed) {name : List Char}
    (hkey : f.key = .other name) (hname : name ∈ uriSecretOptions) (hend : f ≠ .endpoint) :
    now.get f = old.get f := by
  refine h.frame f (by simp [hkey]) (fun hf => absurd hf hend) fun p hp hp' => ?_
  rw [hkey] at hp'
  cases hp'
  exact (parseConnectionUri_keys K hparsed p hp).2 hname

/-- A URI is applied as a whole or not at all, it changes what it carries, and never a secret. -/
theorem uri_set_atomic (self : Database) (value : List Char) :
    (∀ e self', runSet self (Database.setOptionInPlace K .uri (.string value)) = (.error e, self') →
      self' = self) ∧
    ∀ self', runSet self (Database.setOptionInPlace K .uri (.string value)) = (.ok (), self') →
      (∃ remainder parsed, connectionUriRemainder value = some remainder ∧
        parseConnectionUri K.debug value remainder = .ok parsed ∧
        UriApplied K self self' value parsed) ∧
      runSet self' (Database.setOptionInPlace K .uri (.string value)) = (.ok (), self') ∧
      self'.keyfileJson = self.keyfileJson ∧ self'.accessToken = self.accessToken := by
  have hatomic := setOptionInPlace_atomic K .uri (.string value)
  refine ⟨fun e self' h => hatomic.eq_of_error h, fun self' h => ?_⟩
  have hset : self.setUriOption K value = .ok self' := hatomic.ok_iff.mp h
  obtain ⟨remainder, parsed, hremainder, hparsed, happlied⟩ := uriApplied_of_setUriOption K hset
  refine ⟨⟨remainder, parsed, hremainder, hparsed, happlied⟩,
    hatomic.ok_iff.mpr (setUriOption_again K hset), ?_, ?_⟩
  · exact FieldValue.text.inj (happlied.secret K hparsed (f := .keyfileJson) rfl (by decide) (by decide))
  · exact FieldValue.text.inj (happlied.secret K hparsed (f := .accessToken) rfl (by decide) (by decide))

end Config
end SpannerAdbc
