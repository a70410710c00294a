import SpannerAdbc.Basic
import SpannerAdbc.Lib.Split
import SpannerAdbc.Sql.Keyword

/-!
# SpannerAdbc.Config.Uri

The `spanner:` connection URI: its grammar (`parseConnectionUri`) and percent-decoding. A component
is decoded byte by byte and has to be UTF-8 again afterwards.

`debug` is the `{:?}` form of a string.
-/

namespace SpannerAdbc
namespace Config

def optionEndpoint : List Char := "spanner.endpoint".toList
def optionEmulator : List Char := "spanner.emulator".toList
def optionKeyfile : List Char := "spanner.auth.keyfile".toList
def optionKeyfileJson : List Char := "spanner.auth.keyfile_json".toList
def optionImpersonateTargetPrincipal : List Char :=
  "spanner.auth.impersonate.target_principal".toList
def optionImpersonateDelegates : List Char := "spanner.auth.impersonate.delegates".toList
def optionImpersonateScopes : List Char := "spanner.auth.impersonate.scopes".toList
def optionImpersonateLifetime : List Char := "spanner.auth.impersonate.lifetime".toList
def optionAccessToken : List Char := "spanner.auth.access_token".toList
def optionQuotaProject : List Char := "spanner.auth.quota_project".toList

def uriQueryOptions : List (List Char) :=
  [optionEndpoint, optionEmulator, optionKeyfile, optionImpersonateTargetPrincipal,
    optionImpersonateDelegates, optionImpersonateScopes, optionImpersonateLifetime,
    optionQuotaProject]

def uriSecretOptions : List (List Char) := [optionKeyfileJson, optionAccessToken]

/-! ## Texts -/

/-- `str::split_once`. -/
def splitOnce (c : Char) : List Char → Option (List Char × List Char)
  | [] => none
  | d :: s => if d = c then some ([], s) else (splitOnce c s).map fun r => (d :: r.1, r.2)

variable {a b s : List Char} {c : Char}

theorem splitOnce_eq_none : splitOnce c s = none ↔ c ∉ s := by
  induction s with
  | nil => simp [splitOnce]
  | cons d s ih =>
    rw [splitOnce, List.mem_cons, not_or]
    split
    · rename_i h
      simp [h]
    · rename_i h
      rw [Option.map_eq_none_iff, ih]
      exact (and_iff_right (Ne.symm h)).symm

theorem splitOnce_eq_some :
    splitOnce c s = some (a, b) ↔ s = a ++ c :: b ∧ c ∉ a := by
  induction s generalizing a with
  | nil => simp [splitOnce]
  | cons d s ih =>
    rw [splitOnce]
    split
    · rename_i h
      subst h
      cases a with
      | nil => simp [eq_comm]
      | cons d' a =>
        simp only [Option.some.injEq, Prod.mk.injEq, List.cons_append, List.cons.injEq, List.mem_cons]
        grind
    · rename_i h
      cases a with
      | nil => simp [h]
      | cons d' a =>
        rw [Option.map_eq_some_iff]
        constructor
        · rintro ⟨⟨a', b'⟩, hsplit, e⟩
          obtain ⟨⟨rfl, rfl⟩, rfl⟩ : (d = d' ∧ a' = a) ∧ b' = b := by simpa using e
          obtain ⟨rfl, hfree⟩ := ih.mp hsplit
          refine ⟨rfl, ?_⟩
          rw [List.mem_cons, not_or]
          exact ⟨Ne.symm h, hfree⟩
        · rintro ⟨e, hfree⟩
          obtain ⟨rfl, rfl⟩ := List.cons.inj e
          exact ⟨(a, b), ih.mpr ⟨rfl, fun hc => hfree (List.mem_cons_of_mem _ hc)⟩, rfl⟩

/-- The text around the first separator; a text without it is all front. -/
def Halves (c : Char) (s front back : List Char) : Prop :=
  c ∉ front ∧ (s = front ++ c :: back ∨ s = front ∧ back = [])

theorem getD_splitOnce {front back : List Char} :
    (splitOnce c s).getD (s, []) = (front, back) ↔ Halves c s front back := by
  cases h : splitOnce c s with
  | none =>
    have hfree := splitOnce_eq_none.mp h
    simp only [Option.getD_none, Prod.mk.injEq]
    constructor
    · rintro ⟨rfl, rfl⟩
      exact ⟨hfree, .inr ⟨rfl, rfl⟩⟩
    · rintro ⟨-, rfl | ⟨rfl, rfl⟩⟩
      · exact absurd (by simp) hfree
      · exact ⟨rfl, rfl⟩
  | some r =>
    obtain ⟨a, b⟩ := r
    obtain ⟨rfl, ha⟩ := splitOnce_eq_some.mp h
    simp only [Option.getD_some, Prod.mk.injEq]
    constructor
    · rintro ⟨rfl, rfl⟩
      exact ⟨ha, .inl rfl⟩
    · rintro ⟨hfront, e | ⟨rfl, rfl⟩⟩
      · have hsplit := splitOnce_eq_some.mpr ⟨e, hfront⟩
        rw [h] at hsplit
        simpa using hsplit
      · exact absurd (by simp) hfront

theorem Halves.unique {a' b' : List Char} (h : Halves c s a b) (h' : Halves c s a' b') :
    a = a' ∧ b = b' := by
  have e := (getD_splitOnce.mpr h).symm.trans (getD_splitOnce.mpr h')
  exact Prod.mk.inj e

/-- A front without the separator. -/
theorem Halves.append_left {w : List Char} (hw : c ∉ w) :
    Halves c (w ++ s) (w ++ a) b ↔ Halves c s a b := by
  simp [Halves, hw, List.append_cancel_left_eq]

theorem Halves.mem_of_front {d : Char} (h : Halves c s a b) (hd : d ∈ a) :
    d ∈ s := by
  rcases h.2 with rfl | ⟨rfl, -⟩
  · exact List.mem_append_left _ hd
  · exact hd

theorem Halves.sublist (h : Halves c s a b) :
    a.Sublist s ∧ b.Sublist s := by
  rcases h.2 with rfl | ⟨rfl, rfl⟩
  · exact ⟨List.sublist_append_left _ _,
      (List.sublist_cons_self _ _).trans (List.sublist_append_right _ _)⟩
  · exact ⟨List.Sublist.refl _, List.nil_sublist _⟩

/-- `str::strip_prefix`. -/
def stripPrefix (lead s : List Char) : Option (List Char) :=
  if lead.isPrefixOf s then some (s.drop lead.length) else none

theorem stripPrefix_eq_some {lead rest : List Char} :
    stripPrefix lead s = some rest ↔ s = lead ++ rest := by
  rw [stripPrefix]
  split
  · rename_i h
    obtain ⟨t, rfl⟩ := List.isPrefixOf_iff_prefix.mp h
    simp
  · rename_i h
    constructor
    · intro e
      cases e
    · rintro rfl
      exact absurd (List.isPrefixOf_iff_prefix.mpr (List.prefix_append lead rest)) h

/-- `[T]::join`. -/
def join (separator : List Char) (parts : List (List Char)) : List Char :=
  List.intercalate separator parts

/-! ## Percent-decoding -/

def hexDigit (b : UInt8) : Option UInt8 :=
  if 48 ≤ b ∧ b ≤ 57 then some (b - 48)
  else if 65 ≤ b ∧ b ≤ 70 then some (b - 55)
  else if 97 ≤ b ∧ b ≤ 102 then some (b - 87)
  else none

/-- The loop of `percent_decode`: `none` where an escape is malformed. -/
def decodeEscapes : List UInt8 → Option (List UInt8)
  | [] => some []
  | b :: bytes =>
    -- '%'
    if b = 37 then
      match bytes with
      | hi :: lo :: rest => do
        let hi ← hexDigit hi
        let lo ← hexDigit lo
        let out ← decodeEscapes rest
        return (16 * hi + lo) :: out
      | _ => none
    else do
      let out ← decodeEscapes bytes
      return b :: out

section Decode

variable {bytes : List UInt8}

theorem decodeEscapes_cons {b : UInt8} (hb : b ≠ 37) :
    decodeEscapes (b :: bytes) = (decodeEscapes bytes).map (b :: ·) := by
  rw [decodeEscapes.eq_def]
  simp only [hb, if_false]
  cases decodeEscapes bytes <;> rfl

theorem decodeEscapes_escape {hi lo : UInt8} :
    decodeEscapes (37 :: hi :: lo :: bytes) = do
      let h ← hexDigit hi
      let l ← hexDigit lo
      let out ← decodeEscapes bytes
      return (16 * h + l) :: out := rfl

theorem decodeEscapes_escape_eq_some {hi lo : UInt8} {out : List UInt8} :
    decodeEscapes (37 :: hi :: lo :: bytes) = some out ↔ ∃ h l rest, hexDigit hi = some h ∧
      hexDigit lo = some l ∧ decodeEscapes bytes = some rest ∧ out = (16 * h + l) :: rest := by
  rw [decodeEscapes_escape]
  simp only [Option.bind_eq_bind, Option.bind_eq_some_iff, Option.pure_def, Option.some.injEq]
  constructor
  · rintro ⟨h, hh, l, hl, rest, hrest, rfl⟩
    exact ⟨h, l, rest, hh, hl, hrest, rfl⟩
  · rintro ⟨h, l, rest, hh, hl, hrest, rfl⟩
    exact ⟨h, hh, l, hl, rest, hrest, rfl⟩

theorem decodeEscapes_short (h : bytes.length < 2) : decodeEscapes (37 :: bytes) = none := by
  rcases bytes with _ | ⟨b, _ | ⟨b', bytes⟩⟩
  · rfl
  · rfl
  · rw [List.length_cons, List.length_cons] at h
    omega

theorem decodeEscapes_append {front : List UInt8} (h : ∀ b ∈ front, b ≠ 37) :
    decodeEscapes (front ++ bytes) = (decodeEscapes bytes).map (front ++ ·) := by
  induction front with
  | nil => simp
  | cons b front ih =>
    obtain ⟨hb, hfront⟩ := List.forall_mem_cons.mp h
    rw [List.cons_append, decodeEscapes_cons hb, ih hfront, Option.map_map]
    rfl

end Decode

section Parse

variable (debug : List Char → List Char)

def malformedEscape (s : List Char) : Error :=
  invalidArgument ("malformed percent-encoding in connection URI component ".toList ++ debug s)

def invalidUtf8 (s : List Char) : Error :=
  invalidArgument ("connection URI component ".toList ++ debug s ++
    " percent-decodes to invalid UTF-8".toList)

def percentDecode (s : List Char) : Except Error (List Char) :=
  if '%' ∉ s then .ok s
  else
    match decodeEscapes (s.flatMap String.utf8EncodeChar) with
    | none => .error (malformedEscape debug s)
    | some out =>
      match ByteArray.utf8Decode? ⟨out.toArray⟩ with
      | none => .error (invalidUtf8 debug s)
      | some decoded => .ok decoded.toList

/-! ## The URI -/

/-- What follows the scheme, when it is `spanner:` in any case. -/
def connectionUriRemainder (value : List Char) : Option (List Char) :=
  if Sql.eqIgnoreAsciiCase (value.take 8) "spanner:".toList then some (value.drop 8) else none

structure ParsedConnectionUri where
  database : List Char
  endpoint : Option (List Char)
  /-- The decoded query parameters in source order. -/
  params : List (List Char × List Char)

def fragmentRejected : Error := invalidArgument "connection URI must not carry a #fragment".toList

def formRejected (uri : List Char) : Error :=
  invalidArgument ("the `uri` option value ".toList ++ debug uri ++
    " does not use the required `spanner://` form: the scheme must be followed by two ".toList ++
    "slashes; write `spanner:///projects/...` (three slashes) when no endpoint host is ".toList ++
    "intended".toList)

def pathRejected (path : List Char) : Error :=
  invalidArgument ("the `uri` option's connection URI path ".toList ++ debug path ++
    " is not a Spanner database path: it must be ".toList ++
    "projects/<project>/instances/<instance>/databases/<database>, and in ".toList ++
    "`spanner://projects/...` the `projects` segment parses as a host authority; ".toList ++
    "write `spanner:///projects/...` (three slashes) when no endpoint host is intended".toList)

def secretRejected (key : List Char) : Error :=
  invalidArgument ("connection URI query parameter ".toList ++ debug key ++
    " is not supported because its value is a secret, and a connection URI is routinely ".toList ++
    "logged (shell history, process listings, tracing spans); set the `".toList ++ key ++
    "` database option directly instead".toList)

def parameterRejected (key : List Char) : Error :=
  invalidArgument ("unknown connection URI query parameter ".toList ++ debug key ++
    "; supported parameters: ".toList ++ join ", ".toList uriQueryOptions)

def parseDatabasePath (path : List Char) : Except Error (List Char) :=
  match path.splitOn '/' with
  | [projects, p, instances, i, databases, d] =>
    if projects = "projects".toList ∧ instances = "instances".toList ∧
        databases = "databases".toList ∧ p ≠ [] ∧ i ≠ [] ∧ d ≠ [] then .ok path
    else .error (pathRejected debug path)
  | _ => .error (pathRejected debug path)

def parseParam (pair : List Char) : Except Error (List Char × List Char) := do
  let (key, value) := (splitOnce '=' pair).getD (pair, [])
  let key ← percentDecode debug key
  if key ∈ uriSecretOptions then throw (secretRejected debug key)
  else if key ∉ uriQueryOptions then throw (parameterRejected debug key)
  else return (key, ← percentDecode debug value)

def parseParams : List (List Char) → Except Error (List (List Char × List Char))
  | [] => .ok []
  | pair :: pairs => do
    let param ← parseParam debug pair
    let params ← parseParams pairs
    return param :: params

def parseConnectionUri (uri remainder : List Char) : Except Error ParsedConnectionUri :=
  if (splitOnce '#' remainder).isSome then .error fragmentRejected
  else
    let (beforeQuery, query) := (splitOnce '?' remainder).getD (remainder, [])
    match stripPrefix "//".toList beforeQuery with
    | none => .error (formRejected debug uri)
    | some afterAuthority => do
      let (authority, path) := (splitOnce '/' afterAuthority).getD (afterAuthority, [])
      let database ← parseDatabasePath debug path
      let params ← parseParams debug ((query.splitOn '&').filter fun pair => !pair.isEmpty)
      return { database, endpoint := if authority = [] then none else some authority, params }

end Parse

end Config
end SpannerAdbc
