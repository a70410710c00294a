import SpannerAdbc.Config.Database

/-!
# SpannerAdbc.Driver.Connect

How a database connects: the effective configuration of `driver.rs`, the credential ladder of
`driver/credentials.rs`, and the client stack that the connections share.

* `credentials_as_configured`: which of the configured credentials the client has when a connect
  succeeds. A token next to another credential and any credential in emulator mode are refused, but
  an inline key goes before a key file, and without a principal the other options of an
  impersonation do nothing.
* `connections_share_stack`: a connection never gets a stack from before the last set.
-/

namespace SpannerAdbc
namespace Driver

open Lib Session Config

/-! ## Credentials -/

/-- The `type` of a credential JSON. -/
inductive KeyType where
  | serviceAccount
  | authorizedUser
  | impersonatedServiceAccount
  | externalAccount
  deriving DecidableEq, Repr

def KeyType.parse (name : List Char) : Option KeyType :=
  if name = "service_account".toList then some .serviceAccount
  else if name = "authorized_user".toList then some .authorizedUser
  else if name = "impersonated_service_account".toList then some .impersonatedServiceAccount
  else if name = "external_account".toList then some .externalAccount
  else none

/-- Credentials, as the builders of `google-cloud-auth` are asked for them. -/
inductive Credentials where
  | anonymous
  | token (token : List Char) (quotaProject : Option (List Char))
  | key (type : KeyType) (json : List Char) (quotaProject : Option (List Char))
  | adc (quotaProject : Option (List Char))
  | impersonated (source : Credentials) (targetPrincipal : List Char)
      (delegates scopes : List (List Char)) (lifetimeSecs : Nat) (quotaProject : Option (List Char))
  deriving DecidableEq, Repr

/-- What a builder's error says of itself. -/
structure BuildError where
  isMissingField : Bool
  isParsing : Bool
  isUnknownType : Bool
  isNotSupported : Bool
  isLoading : Bool

def scrubCredentialError (error : BuildError) : List Char :=
  if error.isMissingField then "a required field is missing or has the wrong type".toList
  else if error.isParsing then "the credential JSON could not be parsed".toList
  else if error.isUnknownType then "the credential type is unknown or invalid".toList
  else if error.isNotSupported then "the credential type is not supported for this use".toList
  else if error.isLoading then "the credentials could not be loaded".toList
  else "the credentials could not be built".toList

/-- What a client is built with. -/
structure Target where
  database : List Char
  endpoint : Option (List Char)
  /-- Without any, the client looks for Application Default Credentials itself. -/
  credentials : Option Credentials
  deriving DecidableEq, Repr

/-- What a connect meets outside the driver, at its time. -/
structure Outside (H : Type) where
  /-- `SPANNER_EMULATOR_HOST`. -/
  emulatorHost : Option (List Char)
  readToString : List Char → Except (List Char) (List Char)
  /-- `serde_json`: its complaint, or the string in the field `type`. -/
  jsonType : List Char → Except (List Char) (Option (List Char))
  /-- `HeaderValue::from_str` takes the text. -/
  headerValue : List Char → Bool
  build : Credentials → Option BuildError
  client : Target → Except Error H

section Connect

variable {H : Type} (K : Client) (W : Outside H) (self : Database)

/-- The builder has its say, and its error is reduced to a fixed phrase. -/
def built (what : List Char) (credentials : Credentials) : Except Error Credentials :=
  match W.build credentials with
  | none => .ok credentials
  | some error => .error (invalidArgument
      ("failed to build ".toList ++ what ++ ": ".toList ++ scrubCredentialError error))

def supportedCredentialTypes : List Char :=
  ("service_account, authorized_user, impersonated_service_account, " ++ "external_account").toList

def buildCredentialsFromJson (json : List Char) (quotaProject : Option (List Char)) :
    Except Error Credentials :=
  match W.jsonType json with
  | .error e => .error (invalidArgument ("invalid credential JSON key: ".toList ++ e))
  | .ok none => .error (invalidArgument
      ("credential JSON is missing a string `type` field; expected one of ".toList ++
        supportedCredentialTypes))
  | .ok (some name) =>
    match KeyType.parse name with
    | none => .error (invalidArgument ("unsupported credential `type` ".toList ++ K.debug name ++
        "; expected one of ".toList ++ supportedCredentialTypes))
    | some type => built W (name ++ " credentials".toList) (.key type json quotaProject)

def invalidHeader (option : List Char) (value : String) : Error :=
  invalidArgument ("the `".toList ++ option ++
    "` option contains characters that are not valid in an ".toList ++ value.toList)

def buildStaticTokenCredentials (token : List Char) (quotaProject : Option (List Char)) :
    Except Error Credentials :=
  if W.headerValue ("Bearer ".toList ++ token) then
    if quotaProject.all W.headerValue then .ok (.token token quotaProject)
    else .error (invalidHeader optionQuotaProject "HTTP header value")
  else .error (invalidHeader optionAccessToken "HTTP Authorization header value")

def credentialsJson : Except Error (Option (List Char)) :=
  match self.keyfileJson, self.keyfile with
  | some json, _ => .ok (some json)
  | none, some path =>
    match W.readToString path with
    | .ok json => .ok (some json)
    | .error e => .error (invalidArgument
        ("failed to read keyfile ".toList ++ K.debug path ++ ": ".toList ++ e))
  | none, none => .ok none

def explicitCredentialOption : Option (List Char) :=
  if self.keyfileJson.isSome then some optionKeyfileJson
  else if self.keyfile.isSome then some optionKeyfile
  else if self.impersonateTargetPrincipal.isSome then some optionImpersonateTargetPrincipal
  else if self.accessToken.isSome then some optionAccessToken
  else none

def conflictingCredentialWithAccessToken : Option (List Char) :=
  (explicitCredentialOption self).filter fun option => option ≠ optionAccessToken

inductive CredentialChoice where
  | anonymous
  | accessToken
  | impersonate
  | keyfile
  | adc

def credentialChoice (emulator : Bool) : CredentialChoice :=
  if emulator then .anonymous
  else if self.accessToken.isSome then .accessToken
  else if self.impersonateTargetPrincipal.isSome then .impersonate
  else if self.keyfileJson.isSome || self.keyfile.isSome then .keyfile
  else .adc

def defaultImpersonationLifetimeSecs : Nat := 3600

/-- `Option::transpose`. -/
def transpose {α : Type} : Option (Except Error α) → Except Error (Option α)
  | none => .ok none
  | some r => r.map some

/-- The base of an impersonation: the key, or ADC without one. -/
def impersonationSource (target : List Char) : Option (List Char) → Except Error Credentials
  | some json => buildCredentialsFromJson K W json none
  | none => built W ("Application Default Credentials to impersonate ".toList ++ K.debug target)
      (.adc none)

def buildCredentials (emulator : Bool) (json : Option (List Char)) :
    Except Error (Option Credentials) :=
  match credentialChoice self emulator with
  | .anonymous => .ok (some .anonymous)
  | .accessToken => transpose (self.accessToken.map fun token =>
      buildStaticTokenCredentials W token self.quotaProject)
  | .impersonate => transpose (self.impersonateTargetPrincipal.map fun target => do
      let source ← impersonationSource K W target json
      built W ("impersonated credentials for ".toList ++ K.debug target)
        (.impersonated source target self.impersonateDelegates self.impersonateScopes
          (self.impersonateLifetimeSecs.getD defaultImpersonationLifetimeSecs) self.quotaProject))
  | .keyfile => transpose (json.map fun json =>
      buildCredentialsFromJson K W json self.quotaProject)
  | .adc => transpose (self.quotaProject.map fun project => built W
      ("Application Default Credentials with quota project ".toList ++ K.debug project)
      (.adc (some project)))

/-! ## Connecting -/

def ensureScheme (host : List Char) : List Char :=
  if "http://".toList <+: host ∨ "https://".toList <+: host then host else "http://".toList ++ host

/-- The emulator host that the environment names. -/
def hostFromEnv : Option (List Char) := W.emulatorHost.filter fun host => !host.isEmpty

def emulatorMode : Bool := self.emulator || (hostFromEnv W).isSome

def emulatorRejected (option : List Char) (advice : String) : Error :=
  invalidState ("emulator mode (enabled by ".toList ++
    (if self.emulator then "the `spanner.emulator` option".toList
      else "the `SPANNER_EMULATOR_HOST` environment variable".toList) ++
    ") forces anonymous plaintext credentials and would silently ignore the configured `".toList ++
    option ++ "` option; ".toList ++ advice.toList)

def checkEmulator : Except Error Unit :=
  if emulatorMode W self then
    match explicitCredentialOption self with
    | some option => .error (emulatorRejected self option
        "unset the credential option(s) or disable emulator mode")
    | none =>
      if self.quotaProject.isSome then .error (emulatorRejected self optionQuotaProject
        "unset it or disable emulator mode")
      else .ok ()
  else .ok ()

def checkAccessToken : Except Error Unit :=
  match self.accessToken, conflictingCredentialWithAccessToken self with
  | some _, some conflict => .error (invalidState ("the `".toList ++ optionAccessToken ++
      "` option supplies a complete OAuth2 credential and cannot be combined with the `".toList ++
      conflict ++ "` option; set only one".toList))
  | _, _ => .ok ()

/-- The effective configuration. -/
def resolve : Except Error Target := do
  let database ← self.database.elim (.error (invalidState ("Spanner database path is not set; " ++
    "provide the `uri` option (projects/<p>/instances/<i>/databases/<d>)").toList)) .ok
  checkEmulator W self
  checkAccessToken self
  let json ← credentialsJson K W self
  let credentials ← buildCredentials K W self (emulatorMode W self) json
  return { database, credentials, endpoint := self.endpoint.or ((hostFromEnv W).map ensureScheme) }

/-- A client and what it was built with. -/
structure Connected (H : Type) where
  client : H
  target : Target

def connect : Except Error (Connected H) := do
  let target ← resolve K W self
  let client ← W.client target
  return { client, target }

/-! ## What the credentials hold -/

namespace Credentials

@[simp] def token? : Credentials → Option (List Char)
  | .token t _ => some t
  | _ => none

/-- The principal, the delegates, the scopes and the lifetime. -/
@[simp] def impersonation? : Credentials →
    Option (List Char × List (List Char) × List (List Char) × Nat)
  | .impersonated _ principal delegates scopes lifetime _ => some (principal, delegates, scopes, lifetime)
  | _ => none

/-- The key, or the key behind an impersonation. -/
@[simp] def json? : Credentials → Option (List Char)
  | .key _ j _ => some j
  | .impersonated source _ _ _ _ _ => source.json?
  | _ => none

@[simp] def quotaProject? : Credentials → Option (List Char)
  | .anonymous => none
  | .token _ project | .key _ _ project | .adc project | .impersonated _ _ _ _ _ project => project

end Credentials

variable {K W self} {credentials : Credentials} {project json : Option (List Char)}

theorem built_eq_ok {what : List Char} {asked : Credentials}
    (h : built W what asked = .ok credentials) : credentials = asked := by
  unfold built at h
  split at h <;> cases h
  rfl

theorem buildCredentialsFromJson_eq_ok {json : List Char}
    (h : buildCredentialsFromJson K W json project = .ok credentials) :
    ∃ type, credentials = .key type json project := by
  unfold buildCredentialsFromJson at h
  split at h
  · cases h
  · cases h
  · split at h
    · cases h
    · exact ⟨_, built_eq_ok h⟩

theorem impersonationSource_json {principal : List Char} {source : Credentials}
    (h : impersonationSource K W principal json = .ok source) :
    source.json? = json := by
  cases json with
  | some json =>
    obtain ⟨type, rfl⟩ := buildCredentialsFromJson_eq_ok h
    rfl
  | none =>
    obtain rfl := built_eq_ok h
    rfl

theorem credentialsJson_isSome (h : credentialsJson K W self = .ok json) :
    (self.keyfileJson.isSome || self.keyfile.isSome) = json.isSome := by
  unfold credentialsJson at h
  split at h
  · cases h
    simp_all
  · split at h <;> cases h
    simp_all
  · cases h
    simp_all

theorem buildStaticTokenCredentials_eq_ok {token : List Char}
    (h : buildStaticTokenCredentials W token project = .ok credentials) :
    credentials = .token token project := by
  unfold buildStaticTokenCredentials at h
  split at h
  · split at h <;> cases h
    rfl
  · cases h

theorem explicitCredentialOption_eq_none (h : explicitCredentialOption self = none) :
    self.keyfileJson = none ∧ self.keyfile = none ∧ self.impersonateTargetPrincipal = none ∧
      self.accessToken = none := by
  unfold explicitCredentialOption at h
  cases hj : self.keyfileJson <;> cases hk : self.keyfile <;>
    cases ht : self.impersonateTargetPrincipal <;> cases ha : self.accessToken <;> simp_all

/-- The token stands last in the ladder, so what is in front of it is a conflict. -/
theorem conflicting_eq_none (h : conflictingCredentialWithAccessToken self = none) :
    self.keyfileJson = none ∧ self.keyfile = none ∧ self.impersonateTargetPrincipal = none := by
  have hnames : optionKeyfileJson ≠ optionAccessToken ∧ optionKeyfile ≠ optionAccessToken ∧
      optionImpersonateTargetPrincipal ≠ optionAccessToken := by decide
  unfold conflictingCredentialWithAccessToken explicitCredentialOption at h
  cases hj : self.keyfileJson <;> cases hk : self.keyfile <;>
    cases ht : self.impersonateTargetPrincipal <;> simp_all

theorem transpose_some {α : Type} {r : Except Error α} {a : Option α}
    (h : transpose (some r) = .ok a) : ∃ b, r = .ok b ∧ a = some b := by
  cases r with
  | error e => cases h
  | ok b =>
    cases h
    exact ⟨b, rfl, rfl⟩

/-- The key that the options name: the inline one, and the contents of the key file only if there is
none. -/
def ConfiguredKey (W : Outside H) (self : Database) (key : Option (List Char)) : Prop :=
  match self.keyfileJson, self.keyfile with
  | some json, _ => key = some json
  | none, some path => ∃ json, W.readToString path = .ok json ∧ key = some json
  | none, none => key = none

theorem configuredKey_of_ok {key : Option (List Char)} (h : credentialsJson K W self = .ok key) :
    ConfiguredKey W self key := by
  unfold credentialsJson at h
  unfold ConfiguredKey
  split at h
  · exact (Except.ok.inj h).symm
  · split at h
    · rename_i json hread
      exact ⟨json, hread, (Except.ok.inj h).symm⟩
    · cases h
  · exact (Except.ok.inj h).symm

/-- Emulator mode is refused with a credential or a quota project. -/
theorem checkEmulator_ok (h : checkEmulator W self = .ok ()) (hmode : emulatorMode W self = true) :
    (self.keyfileJson = none ∧ self.keyfile = none ∧ self.impersonateTargetPrincipal = none ∧
      self.accessToken = none) ∧ self.quotaProject = none := by
  unfold checkEmulator at h
  rw [hmode] at h
  cases hexplicit : explicitCredentialOption self with
  | some option => simp [hexplicit] at h
  | none =>
    refine ⟨explicitCredentialOption_eq_none hexplicit, ?_⟩
    cases hquota : self.quotaProject with
    | some project => simp [hexplicit, hquota] at h
    | none => rfl

/-- A token is refused with any other credential. -/
theorem checkAccessToken_ok {token : List Char} (h : checkAccessToken self = .ok ())
    (ha : self.accessToken = some token) :
    self.keyfileJson = none ∧ self.keyfile = none ∧ self.impersonateTargetPrincipal = none := by
  unfold checkAccessToken at h
  cases hconflict : conflictingCredentialWithAccessToken self with
  | some conflict => simp [ha, hconflict] at h
  | none => exact conflicting_eq_none hconflict

theorem connect_ok {c : Connected H} (h : connect K W self = .ok c) :
    checkEmulator W self = .ok () ∧ checkAccessToken self = .ok () ∧
      ∃ json, credentialsJson K W self = .ok json ∧
        buildCredentials K W self (emulatorMode W self) json = .ok c.target.credentials := by
  obtain ⟨target, htarget, h⟩ := bind_eq_ok.mp h
  obtain ⟨client, -, h⟩ := bind_eq_ok.mp h
  cases h
  obtain ⟨database, -, h⟩ := bind_eq_ok.mp htarget
  obtain ⟨_, hemulator, h⟩ := bind_eq_ok.mp h
  obtain ⟨_, htoken, h⟩ := bind_eq_ok.mp h
  obtain ⟨json, hjson, h⟩ := bind_eq_ok.mp h
  obtain ⟨credentials, hbuild, h⟩ := bind_eq_ok.mp h
  cases h
  exact ⟨hemulator, htoken, json, hjson, hbuild⟩

/-- Whatever the options, the environment, the key file and the builders are: a client that is handed
out is anonymous in emulator mode only, and it has the access token, the key and the quota project
that are configured, and none that is not. It impersonates the configured principal, with the
delegates, the scopes and the lifetime, which do nothing without a principal. -/
theorem credentials_as_configured {c : Connected H} (h : connect K W self = .ok c) :
    (c.target.credentials = some .anonymous ↔ emulatorMode W self = true) ∧
    c.target.credentials.bind (·.token?) = self.accessToken ∧
    c.target.credentials.bind (·.impersonation?) = self.impersonateTargetPrincipal.map (fun principal =>
      (principal, self.impersonateDelegates, self.impersonateScopes,
        self.impersonateLifetimeSecs.getD defaultImpersonationLifetimeSecs)) ∧
    ConfiguredKey W self (c.target.credentials.bind (·.json?)) ∧
    c.target.credentials.bind (·.quotaProject?) = self.quotaProject := by
  obtain ⟨hemulator, htoken, json, hjson, hbuild⟩ := connect_ok h
  have hkey := configuredKey_of_ok hjson
  unfold buildCredentials credentialChoice at hbuild
  cases hmode : emulatorMode W self with
  | true =>
    obtain ⟨⟨hj, hk, ht, ha⟩, hquota⟩ := checkEmulator_ok hemulator hmode
    rw [hmode] at hbuild
    simp [← Except.ok.inj hbuild, ConfiguredKey, hj, hk, ht, ha, hquota]
  | false =>
    rw [hmode] at hbuild
    cases ha : self.accessToken with
    | some token =>
      obtain ⟨hj, hk, ht⟩ := checkAccessToken_ok htoken ha
      simp only [ha, Option.isSome_some, Bool.false_eq_true, if_false, if_true] at hbuild
      obtain ⟨b, hb, hc⟩ := transpose_some hbuild
      obtain rfl := buildStaticTokenCredentials_eq_ok hb
      simp [hc, ConfiguredKey, hj, hk, ht]
    | none =>
      cases ht : self.impersonateTargetPrincipal with
      | some principal =>
        simp only [ha, ht, Option.isSome_some, Option.isSome_none, Bool.false_eq_true, if_false,
          if_true] at hbuild
        obtain ⟨b, hb, hc⟩ := transpose_some hbuild
        obtain ⟨source, hsource, hb⟩ := bind_eq_ok.mp hb
        obtain rfl := built_eq_ok hb
        simp [hc, impersonationSource_json hsource, hkey]
      | none =>
        simp only [ha, ht, Option.isSome_none, Bool.false_eq_true, if_false,
          credentialsJson_isSome hjson] at hbuild
        cases json with
        | some json =>
          obtain ⟨b, hb, hc⟩ := transpose_some hbuild
          obtain ⟨type, rfl⟩ := buildCredentialsFromJson_eq_ok hb
          simp [hc, hkey]
        | none =>
          cases hquota : self.quotaProject with
          | none =>
            rw [hquota] at hbuild
            simp [← Except.ok.inj hbuild, hkey]
          | some project =>
            rw [hquota] at hbuild
            obtain ⟨b, hb, hc⟩ := transpose_some hbuild
            obtain rfl := built_eq_ok hb
            simp [hc, hkey]

/-- Outside an emulator, with builders that refuse nothing. -/
def plainOutside : Outside Unit where
  emulatorHost := some []
  readToString _ := .error []
  jsonType _ := .ok (some "service_account".toList)
  headerValue _ := true
  build _ := none
  client _ := .ok ()

/-- Both keys and a principal. -/
def delegated : Database where
  database := some "d".toList
  keyfileJson := some "key".toList
  keyfile := some "path".toList
  impersonateTargetPrincipal := some "principal".toList
  quotaProject := some "project".toList

theorem credentials_as_configured_delegated : ∃ c : Connected Unit,
    connect plainClient plainOutside delegated = .ok c ∧
    c.target.credentials = some (.impersonated (.key .serviceAccount "key".toList none)
      "principal".toList [] [] 3600 (some "project".toList)) ∧
    c.target.credentials.bind (·.quotaProject?) = some "project".toList := by
  have h : connect plainClient plainOutside delegated = .ok ⟨(), "d".toList, none,
      some (.impersonated _ _ _ _ _ _)⟩ := rfl
  exact ⟨_, h, rfl, (credentials_as_configured h).2.2.2.2⟩

end Connect

/-! ## The shared stack -/

section Cache

variable {H : Type} (K : Client)

/-- A database: its configuration, and the client stack while it is cached. -/
structure SpannerDatabase (H : Type) where
  config : Database := {}
  connected : Option (Connected H) := none

inductive DatabaseOp (H : Type) where
  | setOption (key : OptionDatabase) (value : OptionValue)
  | newConnection (W : Outside H)

def connectShared (self : SpannerDatabase H) (W : Outside H) :
    Except Error (Connected H) × SpannerDatabase H :=
  match self.connected with
  | some connected => (.ok connected, self)
  | none =>
    match connect K W self.config with
    | .ok connected => (.ok connected, { self with connected := some connected })
    | .error e => (.error e, self)

def SpannerDatabase.apply (self : SpannerDatabase H) : DatabaseOp H → SpannerDatabase H
  | .setOption key value =>
    -- the stack is dropped even if the set is rejected
    match self.config.setOption K key value with
    | .ok config => { config }
    | .error _ => { config := self.config }
  | .newConnection W => (connectShared K self W).2

/-- A new database behind some operations. -/
def behind (ops : List (DatabaseOp H)) : SpannerDatabase H := ops.foldl (SpannerDatabase.apply K) {}

/-- What the connects since the last set have met. -/
def outsides (ops : List (DatabaseOp H)) : List (Outside H) :=
  ops.foldl (fun met op =>
    match op with
    | .setOption _ _ => []
    | .newConnection W => met ++ [W]) []

/-- A connection gets the cached stack, or one that is built and cached then; or nothing happens. -/
theorem connectShared_cases (s : SpannerDatabase H) (W : Outside H) :
    (∃ c, connectShared K s W = (.ok c, { s with connected := some c }) ∧
      (s.connected = some c ∨ connect K W s.config = .ok c)) ∨
    ∃ e, connectShared K s W = (.error e, s) := by
  obtain ⟨config, _ | c⟩ := s
  · unfold connectShared
    dsimp only
    cases connect K W config with
    | ok c => exact .inl ⟨c, rfl, .inr rfl⟩
    | error e => exact .inr ⟨e, rfl⟩
  · exact .inl ⟨c, rfl, .inl rfl⟩

theorem behind_append (ops ops' : List (DatabaseOp H)) :
    behind K (ops ++ ops') = ops'.foldl (SpannerDatabase.apply K) (behind K ops) :=
  List.foldl_append

/-- What is cached was built since the last set. -/
theorem connected_built (ops : List (DatabaseOp H)) {c : Connected H}
    (h : (behind K ops).connected = some c) :
    ∃ W ∈ outsides ops, connect K W (behind K ops).config = .ok c := by
  induction ops using List.reverseRecOn generalizing c with
  | nil => cases h
  | append_singleton ops op ih =>
    rw [behind_append, List.foldl_cons, List.foldl_nil] at h ⊢
    cases op with
    | setOption key value =>
      simp only [SpannerDatabase.apply] at h
      split at h <;> cases h
    | newConnection W =>
      have hmet : outsides (ops ++ [.newConnection W]) = outsides ops ++ [W] := by simp [outsides]
      rw [hmet]
      simp only [SpannerDatabase.apply] at h ⊢
      rcases connectShared_cases K (behind K ops) W with ⟨c', hc', hfrom⟩ | ⟨e, he⟩
      · rw [hc'] at h ⊢
        cases h
        rcases hfrom with hcached | hnew
        · obtain ⟨W', hW', hbuilt⟩ := ih hcached
          exact ⟨W', List.mem_append_left _ hW', hbuilt⟩
        · exact ⟨W, List.mem_append_right _ List.mem_cons_self, hnew⟩
      · rw [he] at h ⊢
        obtain ⟨W', hW', hbuilt⟩ := ih h
        exact ⟨W', List.mem_append_left _ hW', hbuilt⟩

theorem foldl_connects {s : SpannerDatabase H} {c : Connected H} (h : s.connected = some c)
    (later : List (Outside H)) :
    (later.map DatabaseOp.newConnection).foldl (SpannerDatabase.apply K) s = s := by
  induction later with
  | nil => rfl
  | cons W later ih => rwa [List.map_cons, List.foldl_cons, SpannerDatabase.apply, connectShared, h]

/-- Whatever was set and connected before: a connection gets a stack that a connect since the last set
has built, from the configuration that still holds, and every connection up to the next set gets the
same one. -/
theorem connections_share_stack (ops : List (DatabaseOp H)) (W : Outside H) {c : Connected H}
    (h : (connectShared K (behind K ops) W).1 = .ok c) :
    (∃ W' ∈ outsides (ops ++ [.newConnection W]), connect K W' (behind K ops).config = .ok c) ∧
    ∀ (later : List (Outside H)) (W' : Outside H), (connectShared K
      (behind K (ops ++ .newConnection W :: later.map .newConnection)) W').1 = .ok c := by
  have hnext : behind K (ops ++ [.newConnection W]) =
      { behind K ops with connected := some c } := by
    rw [behind_append]
    rcases connectShared_cases K (behind K ops) W with ⟨c', hc', -⟩ | ⟨e, he⟩
    · rw [hc'] at h
      cases h
      exact congrArg Prod.snd hc'
    · rw [he] at h
      cases h
  constructor
  · have hbuilt := connected_built K (ops ++ [.newConnection W]) (c := c) (by rw [hnext])
    rwa [hnext] at hbuilt
  · intro later W'
    rw [List.append_cons, behind_append, hnext, foldl_connects K rfl, connectShared]

/-- The first connect fails, as no database is set, and a second set follows the first stack. -/
def located : List (DatabaseOp Unit) :=
  [.newConnection plainOutside,
    .setOption .uri (.string "spanner:///projects/p/instances/i/databases/d".toList),
    .newConnection plainOutside,
    .setOption .uri (.string "spanner:///projects/p/instances/i/databases/e".toList)]

theorem connections_share_stack_located : ∃ c,
    (connectShared plainClient (behind plainClient located) plainOutside).1 = .ok c ∧
    c.target.database = "projects/p/instances/i/databases/e".toList ∧
    ∀ (later : List (Outside Unit)) (W' : Outside Unit),
      (connectShared plainClient (behind plainClient
        (located ++ .newConnection plainOutside :: later.map .newConnection)) W').1 = .ok c := by
  have h : (connectShared plainClient (behind plainClient located) plainOutside).1 = .ok _ := rfl
  exact ⟨_, h, rfl, (connections_share_stack plainClient _ _ h).2⟩

end Cache

end Driver
end SpannerAdbc
