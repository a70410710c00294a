import SpannerAdbc.Config.UriChecked
import SpannerAdbc.Lib.Percent

/-!
# SpannerAdbc.Config.UriGrammar

The texts of a connection URI (`Spells`), without the parser: `readUri_eq_ok` says that these are what
is accepted, and with which path, endpoint and options. Rendering with any mix of escapes gives such a
text (`Encoded.spells`), and a text with a reason to be rejected is none (`Malformed.not_spells`).

The parser splits at the hash, the question mark, the first slash behind the authority, the ampersands
and the first equals sign, in this order; each component is free of the separators that it is found by.
-/

namespace SpannerAdbc
namespace Config

open Lib Lib.Percent Session

/-! ## Percent-decoding -/

variable {uri s : List Char} {bytes : List UInt8} {c : Char} {debug : List Char → List Char}
  {options params : List (List Char × List Char)} {pairs : List (List Char)}
  {option : List Char × List Char}

theorem hexDigit_of_ascii (hc : c.toNat < 128) :
    hexDigit (UInt8.ofNat c.toNat) = hexChar c := by
  have hall : ∀ n < 128, hexDigit (UInt8.ofNat n) = hexChar (Char.ofNat n) := by decide +kernel
  have := hall c.toNat hc
  rwa [Char.ofNat_toNat] at this

theorem hexDigit_of_le {b : UInt8} (hb : 128 ≤ b.toNat) : hexDigit b = none := by
  have hle (n : UInt8) (hn : n.toNat < 128) : ¬ b ≤ n := by
    rw [UInt8.le_iff_toNat_le]
    omega
  simp [hexDigit, hle 57 (by decide), hle 70 (by decide), hle 102 (by decide)]

/-- A byte that is a digit is a character. -/
theorem cons_of_hexDigit {b v : UInt8} (hs : asBytes s = b :: bytes) (hb : hexDigit b = some v) :
    ∃ c rest, s = c :: rest ∧ hexChar c = some v ∧ asBytes rest = bytes := by
  cases s with
  | nil => cases hs
  | cons c rest =>
    rcases Nat.lt_or_ge c.toNat 128 with hlt | hge
    · rw [asBytes_cons_of_ascii hlt] at hs
      obtain ⟨rfl, rfl⟩ := List.cons.inj hs
      rw [hexDigit_of_ascii hlt] at hb
      exact ⟨c, rest, rfl, hb, rfl⟩
    · have hmem : b ∈ String.utf8EncodeChar c := by
        have hne : String.utf8EncodeChar c ≠ [] := String.utf8EncodeChar_ne_nil
        obtain ⟨b', bs, hc⟩ := List.exists_cons_of_ne_nil hne
        rw [asBytes, List.flatMap_cons, hc] at hs
        obtain ⟨rfl, -⟩ := List.cons.inj hs
        rw [hc]
        exact List.mem_cons_self
      rw [hexDigit_of_le (le_of_mem_utf8EncodeChar hge hmem)] at hb
      cases hb

theorem ascii_of_hexChar {v : UInt8} (h : hexChar c = some v) : c.toNat < 128 := by
  by_contra hc
  have hgt (d : Char) (hd : d.toNat < 128) : ¬ c ≤ d := by
    intro hle
    have : c.toNat ≤ d.toNat := hle
    omega
  simp [hexChar, hgt '9' (by decide), hgt 'F' (by decide), hgt 'f' (by decide)] at h

theorem decodeEscapes_plain (hc : c ≠ '%') (s : List Char) :
    decodeEscapes (asBytes (c :: s)) =
      (decodeEscapes (asBytes s)).map (String.utf8EncodeChar c ++ ·) := by
  rw [asBytes, List.flatMap_cons, decodeEscapes_append (ne_of_mem_utf8EncodeChar (a := '%') (by decide) hc)]
  rfl

/-- A character beyond ASCII has no byte of a digit, so the two bytes of an escape are characters. -/
theorem decodeEscapes_percent :
    decodeEscapes (asBytes ('%' :: s)) = some bytes ↔ ∃ hi lo rest h l out, s = hi :: lo :: rest ∧
      hexChar hi = some h ∧ hexChar lo = some l ∧ decodeEscapes (asBytes rest) = some out ∧
      bytes = (16 * h + l) :: out := by
  have hpercent : asBytes ('%' :: s) = 37 :: asBytes s := asBytes_cons_of_ascii (by decide) s
  rw [hpercent]
  constructor
  · intro h
    rcases hbytes : asBytes s with _ | ⟨b, _ | ⟨b', bs⟩⟩
    · rw [hbytes, decodeEscapes_short (by decide)] at h
      cases h
    · rw [hbytes, decodeEscapes_short (by simp)] at h
      cases h
    · rw [hbytes] at h
      obtain ⟨v, w, out, hv, hw, hout, rfl⟩ := decodeEscapes_escape_eq_some.mp h
      obtain ⟨hi, s₁, rfl, hhi, hs₁⟩ := cons_of_hexDigit hbytes hv
      obtain ⟨lo, s₂, rfl, hlo, rfl⟩ := cons_of_hexDigit hs₁ hw
      exact ⟨hi, lo, s₂, v, w, out, rfl, hhi, hlo, hout, rfl⟩
  · rintro ⟨hi, lo, rest, h, l, out, rfl, hhi, hlo, hout, rfl⟩
    rw [asBytes_cons_of_ascii (ascii_of_hexChar hhi), asBytes_cons_of_ascii (ascii_of_hexChar hlo)]
    refine decodeEscapes_escape_eq_some.mpr ⟨h, l, out, ?_, ?_, hout, rfl⟩
    · rw [hexDigit_of_ascii (ascii_of_hexChar hhi), hhi]
    · rw [hexDigit_of_ascii (ascii_of_hexChar hlo), hlo]

/-- The escapes of a text are those of its bytes. -/
theorem decodeEscapes_eq_some :
    decodeEscapes (asBytes s) = some bytes ↔ Unescapes s bytes := by
  constructor
  · intro h
    -- an escape is three characters, so the induction is on the length
    induction hn : s.length using Nat.strongRecOn generalizing s bytes with
    | ind n ih =>
      cases s with
      | nil =>
        obtain rfl := Option.some.inj h
        exact .nil
      | cons c s =>
        rw [List.length_cons] at hn
        by_cases hc : c = '%'
        · subst hc
          obtain ⟨hi, lo, rest, v, w, out, rfl, hhi, hlo, hout, rfl⟩ := decodeEscapes_percent.mp h
          rw [List.length_cons, List.length_cons] at hn
          exact .escape hhi hlo (ih rest.length (by omega) hout rfl)
        · rw [decodeEscapes_plain hc, Option.map_eq_some_iff] at h
          obtain ⟨out, hout, rfl⟩ := h
          exact .plain hc (ih s.length (by omega) hout rfl)
  · intro h
    induction h with
    | nil => rfl
    | @plain c s bytes hc _ ih =>
      rw [decodeEscapes_plain hc, ih]
      rfl
    | @escape hi lo h l s bytes hhi hlo _ ih =>
      exact decodeEscapes_percent.mpr ⟨hi, lo, s, h, l, bytes, rfl, hhi, hlo, ih, rfl⟩

theorem percentDecode_eq_ok {t : List Char} :
    percentDecode debug s = .ok t ↔ Decodes s t := by
  rw [Decodes, ← decodeEscapes_eq_some, percentDecode]
  split
  · rename_i hfree
    have hbytes : ∀ b ∈ asBytes s, b ≠ 37 := by
      intro b hb
      obtain ⟨c, hc, hmem⟩ := List.mem_flatMap.mp hb
      exact ne_of_mem_utf8EncodeChar (a := '%') (by decide) (fun e => hfree (e ▸ hc)) b hmem
    have hplain : decodeEscapes (asBytes s ++ []) = _ := decodeEscapes_append hbytes
    rw [List.append_nil] at hplain
    rw [hplain]
    simp only [decodeEscapes, Option.map_some, List.append_nil, Option.some.injEq, Except.ok.injEq]
    exact ⟨fun h => by rw [h], asBytes_injective⟩
  · have hbytes : s.flatMap String.utf8EncodeChar = asBytes s := rfl
    rw [hbytes]
    cases decodeEscapes (asBytes s) with
    | none => simp
    | some out =>
      dsimp only
      cases hdecode : ByteArray.utf8Decode? ⟨out.toArray⟩ with
      | none =>
        have hinvalid : out ≠ asBytes t := by
          intro e
          have hsome : ByteArray.utf8Decode? ⟨out.toArray⟩ = some t.toArray :=
            utf8Decode?_eq_some.mpr e
          rw [hdecode] at hsome
          cases hsome
        simp [hinvalid]
      | some decoded =>
        obtain rfl := utf8Decode?_eq_some.mp hdecode
        simp only [Except.ok.injEq, Option.some.injEq]
        exact ⟨fun h => by rw [h], asBytes_injective⟩

/-! ## The grammar -/

/-- Free of the characters that end a component in front of the query. -/
structure Plain (s : List Char) : Prop where
  slash : '/' ∉ s
  question : '?' ∉ s
  hash : '#' ∉ s

structure Segment where
  text : List Char
  nonempty : text ≠ []
  plain : Plain text

structure DatabasePath where
  project : Segment
  instanceId : Segment
  database : Segment

def pathText (p i d : List Char) : List Char :=
  ['/'].intercalate ["projects".toList, p, "instances".toList, i, "databases".toList, d]

def DatabasePath.text (path : DatabasePath) : List Char :=
  pathText path.project.text path.instanceId.text path.database.text

/-- What a connection URI says. -/
structure ConnectionUri where
  authority : List Char
  path : DatabasePath
  options : List (List Char × List Char)
  plain : Plain authority
  supported : ∀ option ∈ options, option.1 ∈ uriQueryOptions

/-- The authority is the endpoint unless it is empty. -/
def ConnectionUri.parsed (u : ConnectionUri) : ParsedConnectionUri where
  database := u.path.text
  endpoint := if u.authority = [] then none else some u.authority
  params := u.options

/-- The text between the scheme and the query. -/
def ConnectionUri.front (u : ConnectionUri) : List Char :=
  "//".toList ++ (u.authority ++ '/' :: u.path.text)

/-- A key and a value around the first equals sign; without one the value is empty. -/
def ParamText (pair : List Char) (param : List Char × List Char) : Prop :=
  ∃ key value, Halves '=' pair key value ∧ Decodes key param.1 ∧ Decodes value param.2 ∧
    param.1 ∈ uriQueryOptions

/-- Parameters between ampersands, of which any number may stand together. -/
def QueryText (query : List Char) (params : List (List Char × List Char)) : Prop :=
  ∃ pairs, query = ['&'].intercalate pairs ∧ (∀ pair ∈ pairs, '&' ∉ pair) ∧
    List.Forall₂ ParamText (pairs.filter fun pair => !pair.isEmpty) params

/-- The texts of a connection URI. -/
def Spells (u : ConnectionUri) (uri : List Char) : Prop :=
  ∃ scheme tail, IsScheme scheme ∧ uri = scheme ++ (u.front ++ tail) ∧
    (tail = [] ∧ u.options = [] ∨
      ∃ query, tail = '?' :: query ∧ '#' ∉ query ∧ QueryText query u.options)

/-! ## What is accepted -/

section Accept

variable {debug : List Char → List Char} {params : List (List Char × List Char)}

theorem not_secret {key : List Char} (h : key ∈ uriQueryOptions) : key ∉ uriSecretOptions := by
  revert key
  decide +kernel

theorem parseParam_eq_ok {pair : List Char} {param : List Char × List Char} :
    parseParam debug pair = .ok param ↔ ParamText pair param := by
  obtain ⟨name, text⟩ := param
  cases hsplit : (splitOnce '=' pair).getD (pair, []) with
  | mk key value =>
    have hhalves := getD_splitOnce.mp hsplit
    rw [parseParam, hsplit]
    dsimp only
    rw [bind_eq_ok]
    constructor
    · rintro ⟨decoded, hkey, h⟩
      split at h
      · cases h
      · split at h
        · cases h
        · rename_i hknown
          obtain ⟨decoded', hvalue, h⟩ := bind_eq_ok.mp h
          obtain ⟨rfl, rfl⟩ : decoded = name ∧ decoded' = text := by simpa [pure, Except.pure] using h
          exact ⟨key, value, hhalves, percentDecode_eq_ok.mp hkey, percentDecode_eq_ok.mp hvalue,
            not_not.mp hknown⟩
    · rintro ⟨key', value', hhalves', hkey, hvalue, hknown⟩
      obtain ⟨rfl, rfl⟩ := hhalves.unique hhalves'
      refine ⟨name, percentDecode_eq_ok.mpr hkey, ?_⟩
      rw [if_neg (not_secret hknown), if_neg (not_not.mpr hknown), percentDecode_eq_ok.mpr hvalue]
      rfl

theorem parseParams_eq_ok {pairs : List (List Char)} :
    parseParams debug pairs = .ok params ↔ List.Forall₂ ParamText pairs params := by
  induction pairs generalizing params with
  | nil => simp [parseParams, eq_comm]
  | cons pair pairs ih =>
    rw [parseParams, bind_eq_ok, List.forall₂_cons_left_iff]
    constructor
    · rintro ⟨param, hparam, h⟩
      obtain ⟨rest, hrest, h⟩ := bind_eq_ok.mp h
      exact ⟨param, rest, parseParam_eq_ok.mp hparam, ih.mp hrest, (Except.ok.inj h).symm⟩
    · rintro ⟨param, rest, hparam, hrest, rfl⟩
      exact ⟨param, parseParam_eq_ok.mpr hparam, bind_eq_ok.mpr ⟨rest, ih.mpr hrest, rfl⟩⟩

theorem queryText_iff {query : List Char} :
    QueryText query params ↔
      List.Forall₂ ParamText ((query.splitOn '&').filter fun pair => !pair.isEmpty) params := by
  constructor
  · rintro ⟨pairs, rfl, hfree, hparams⟩
    cases pairs with
    | nil => exact hparams
    | cons pair pairs =>
      rw [List.splitOn_intercalate '&' hfree (List.cons_ne_nil _ _)]
      exact hparams
  · intro h
    obtain ⟨hjoin, -, hfree⟩ := splitOn_eq_iff.mp (rfl : query.splitOn '&' = _)
    exact ⟨query.splitOn '&', hjoin, hfree, h⟩

theorem parseDatabasePath_eq_ok {path database : List Char} :
    parseDatabasePath debug path = .ok database ↔ database = path ∧
      ∃ p i d, path = pathText p i d ∧ (p ≠ [] ∧ i ≠ [] ∧ d ≠ []) ∧ '/' ∉ p ∧ '/' ∉ i ∧ '/' ∉ d := by
  rw [parseDatabasePath]
  constructor
  · intro h
    split at h
    · rename_i projects p instances i databases d hsplit
      split at h
      · rename_i hpath
        obtain ⟨rfl, rfl, rfl, hne⟩ := hpath
        obtain ⟨hjoin, -, hfree⟩ := splitOn_eq_iff.mp hsplit
        exact ⟨(Except.ok.inj h).symm, p, i, d, hjoin, hne, hfree p (by simp), hfree i (by simp),
          hfree d (by simp)⟩
      · cases h
    · cases h
  · rintro ⟨rfl, p, i, d, rfl, hne, hp, hi, hd⟩
    have hsplit : (pathText p i d).splitOn '/' =
        ["projects".toList, p, "instances".toList, i, "databases".toList, d] := by
      refine splitOn_eq_iff.mpr ⟨rfl, List.cons_ne_nil _ _, ?_⟩
      simp only [List.forall_mem_cons, hp, hi, hd]
      decide
    rw [hsplit]
    dsimp only
    rw [if_pos ⟨rfl, rfl, rfl, hne⟩]

/-- The separators in their order: the hash, the question mark, the slash behind the authority. -/
theorem parseConnectionUri_eq_ok {uri remainder : List Char} {parsed : ParsedConnectionUri} :
    parseConnectionUri debug uri remainder = .ok parsed ↔ '#' ∉ remainder ∧
      ∃ query authority path after, Halves '?' remainder ("//".toList ++ after) query ∧
        Halves '/' after authority path ∧ parseDatabasePath debug path = .ok parsed.database ∧
        QueryText query parsed.params ∧
        parsed.endpoint = if authority = [] then none else some authority := by
  rw [parseConnectionUri]
  by_cases hhash : '#' ∈ remainder
  · have hsome : (splitOnce '#' remainder).isSome = true := by
      rw [Option.isSome_iff_ne_none, Ne, splitOnce_eq_none]
      exact not_not.mpr hhash
    simp [hsome, hhash]
  rw [splitOnce_eq_none.mpr hhash]
  cases hquery : (splitOnce '?' remainder).getD (remainder, []) with
  | mk before query =>
    have hhalves := getD_splitOnce.mp hquery
    simp only [Option.isSome_none, Bool.false_eq_true, if_false, hhash, not_false_eq_true, true_and]
    cases hstrip : stripPrefix "//".toList before with
    | none =>
      dsimp only
      constructor
      · intro h
        cases h
      · rintro ⟨query', authority, path, after, hhalves', -⟩
        obtain ⟨rfl, -⟩ := hhalves.unique hhalves'
        rw [stripPrefix_eq_some.mpr rfl] at hstrip
        cases hstrip
    | some after =>
      obtain rfl := stripPrefix_eq_some.mp hstrip
      cases hslash : (splitOnce '/' after).getD (after, []) with
      | mk authority path =>
        have hauthority := getD_splitOnce.mp hslash
        simp only [hslash]
        rw [bind_eq_ok]
        constructor
        · rintro ⟨database, hdatabase, h⟩
          obtain ⟨params, hparams, h⟩ := bind_eq_ok.mp h
          obtain rfl := Except.ok.inj h
          exact ⟨query, authority, path, after, hhalves, hauthority, hdatabase,
            queryText_iff.mpr (parseParams_eq_ok.mp hparams), rfl⟩
        · rintro ⟨query', authority', path', after', hhalves', hauthority', hdatabase, hparams,
            hendpoint⟩
          obtain ⟨e, rfl⟩ := hhalves.unique hhalves'
          obtain rfl := List.append_cancel_left e
          obtain ⟨rfl, rfl⟩ := hauthority.unique hauthority'
          have hpairs := queryText_iff.mp hparams
          refine ⟨_, hdatabase, bind_eq_ok.mpr ⟨_, parseParams_eq_ok.mpr hpairs, ?_⟩⟩
          rw [← hendpoint]
          rfl

end Accept

/-! ## Reading a URI -/

theorem setUriOption_of_error {K : Client} {e : Error} (h : readUri K uri = .error e)
    (self : Database) : self.setUriOption K uri = .error e := by
  rw [readUri] at h
  rw [Database.setUriOption]
  cases hremainder : connectionUriRemainder uri with
  | none =>
    rw [hremainder] at h
    exact congrArg Except.error (Except.error.inj h)
  | some remainder =>
    rw [hremainder] at h
    dsimp only at h ⊢
    rw [Database.applyConnectionUri, h]
    rfl

theorem mem_pathText {p i d : List Char} (hc : c = '?' ∨ c = '#') :
    c ∈ pathText p i d ↔ c ∈ p ∨ c ∈ i ∨ c ∈ d := by
  have hslash : c ≠ '/' := by rcases hc with rfl | rfl <;> decide
  have hnames : c ∉ "projects".toList ∧ c ∉ "instances".toList ∧ c ∉ "databases".toList := by
    rcases hc with rfl | rfl <;> decide
  rw [pathText, mem_intercalate hslash]
  simp only [List.mem_cons, List.not_mem_nil, or_false, exists_eq_or_imp, exists_eq_left, hnames,
    false_or]

theorem DatabasePath.not_mem (hc : c = '?' ∨ c = '#') (path : DatabasePath) :
    c ∉ path.text := by
  have hseg (s : Segment) : c ∉ s.text := by
    rcases hc with rfl | rfl
    · exact s.plain.question
    · exact s.plain.hash
  rw [DatabasePath.text, mem_pathText hc]
  simp [hseg]

/-- A path that is accepted, without the characters that cannot be in it. -/
theorem exists_databasePath {path database : List Char}
    (h : parseDatabasePath debug path = .ok database) (hquestion : '?' ∉ path)
    (hhash : '#' ∉ path) :
    ∃ d : DatabasePath, d.text = path ∧ database = path := by
  obtain ⟨rfl, p, i, d, rfl, ⟨hp, hi, hd⟩, hp', hi', hd'⟩ := parseDatabasePath_eq_ok.mp h
  rw [mem_pathText (.inl rfl), not_or, not_or] at hquestion
  rw [mem_pathText (.inr rfl), not_or, not_or] at hhash
  exact ⟨⟨⟨p, hp, hp', hquestion.1, hhash.1⟩, ⟨i, hi, hi', hquestion.2.1, hhash.2.1⟩,
    ⟨d, hd, hd', hquestion.2.2, hhash.2.2⟩⟩, rfl, rfl⟩

theorem parseDatabasePath_text (path : DatabasePath) :
    parseDatabasePath debug path.text = .ok path.text :=
  parseDatabasePath_eq_ok.mpr ⟨rfl, path.project.text, path.instanceId.text, path.database.text, rfl,
    ⟨path.project.nonempty, path.instanceId.nonempty, path.database.nonempty⟩,
    path.project.plain.slash, path.instanceId.plain.slash, path.database.plain.slash⟩

theorem QueryText.nil : QueryText [] params ↔ params = [] := by
  rw [queryText_iff]
  exact List.forall₂_nil_left_iff

theorem QueryText.supported {query : List Char} (h : QueryText query params) :
    ∀ param ∈ params, param.1 ∈ uriQueryOptions := by
  obtain ⟨pairs, -, -, hparams⟩ := h
  refine forall_mem_right hparams ?_
  rintro pair param ⟨key, value, -, -, -, hknown⟩
  exact hknown

theorem IsScheme.not_mem {scheme : List Char} (h : IsScheme scheme) (hc : c = '?' ∨ c = '#') :
    c ∉ scheme := by
  intro hmem
  have hlower := h.toLower_mem hmem
  rcases hc with rfl | rfl
  · revert hlower
    decide
  · revert hlower
    decide

theorem ConnectionUri.not_mem_front (hc : c = '?' ∨ c = '#') (u : ConnectionUri) :
    c ∉ u.front := by
  have hslash : c ≠ '/' := by rcases hc with rfl | rfl <;> decide
  have hauthority : c ∉ u.authority := by
    rcases hc with rfl | rfl
    · exact u.plain.question
    · exact u.plain.hash
  simp [front, hslash, hauthority, u.path.not_mem hc]

/-- The URI around its question mark. -/
theorem spells_iff {u : ConnectionUri} :
    Spells u uri ↔ ∃ scheme query, IsScheme scheme ∧ '#' ∉ uri ∧ QueryText query u.options ∧
      Halves '?' uri (scheme ++ u.front) query := by
  constructor
  · rintro ⟨scheme, tail, hscheme, rfl, htail⟩
    have hfront {c : Char} (hc : c = '?' ∨ c = '#') : c ∉ scheme ++ u.front := by
      rw [List.mem_append, not_or]
      exact ⟨hscheme.not_mem hc, u.not_mem_front hc⟩
    have hhash := hfront (.inr rfl)
    rcases htail with ⟨rfl, hnil⟩ | ⟨query, rfl, hfree, hquery⟩
    · rw [List.append_nil]
      exact ⟨scheme, [], hscheme, hhash, QueryText.nil.mpr hnil, hfront (.inl rfl), .inr ⟨rfl, rfl⟩⟩
    · rw [← List.append_assoc]
      refine ⟨scheme, query, hscheme, ?_, hquery, hfront (.inl rfl), .inl rfl⟩
      rw [List.mem_append, List.mem_cons, not_or, not_or]
      exact ⟨hhash, by decide, hfree⟩
  · rintro ⟨scheme, query, hscheme, hhash, hquery, -, rfl | ⟨rfl, rfl⟩⟩
    · refine ⟨scheme, '?' :: query, hscheme, List.append_assoc _ _ _, .inr ⟨query, rfl, ?_, hquery⟩⟩
      exact fun h => hhash (List.mem_append_right _ (List.mem_cons_of_mem _ h))
    · refine ⟨scheme, [], hscheme, ?_, .inl ⟨rfl, QueryText.nil.mp hquery⟩⟩
      rw [List.append_nil]

theorem readUri_eq_ok {K : Client} {parsed : ParsedConnectionUri} :
    readUri K uri = .ok parsed ↔ ∃ u, Spells u uri ∧ u.parsed = parsed := by
  simp only [spells_iff, readUri]
  constructor
  · intro h
    obtain ⟨database, endpoint, params⟩ := parsed
    cases hremainder : connectionUriRemainder uri with
    | none =>
      rw [hremainder] at h
      cases h
    | some remainder =>
      rw [hremainder] at h
      obtain ⟨scheme, hscheme, rfl⟩ := connectionUriRemainder_eq_some.mp hremainder
      obtain ⟨hhash, query, authority, path, after, hhalves, hafter, hpath, hquery, hendpoint⟩ :=
        parseConnectionUri_eq_ok.mp h
      have hquestion : '?' ∉ after := fun hc => hhalves.1 (List.mem_append_right _ hc)
      have hhash' : '#' ∉ after := fun hc => hhash (hhalves.mem_of_front (List.mem_append_right _ hc))
      -- a database path is not empty, so a slash ends the authority
      obtain rfl : after = authority ++ '/' :: path := by
        rcases hafter.2 with e | ⟨-, rfl⟩
        · exact e
        · cases hpath
      have hmem {c : Char} (hc : c ∉ authority ++ '/' :: path) : c ∉ authority ∧ c ∉ path := by
        rw [List.mem_append, List.mem_cons, not_or, not_or] at hc
        exact ⟨hc.1, hc.2.2⟩
      obtain ⟨d, rfl, rfl⟩ := exists_databasePath hpath (hmem hquestion).2 (hmem hhash').2
      obtain rfl := hendpoint
      refine ⟨⟨authority, d, params, ⟨hafter.1, (hmem hquestion).1, (hmem hhash').1⟩,
        hquery.supported⟩, ⟨scheme, query, hscheme, ?_, hquery, ?_⟩, rfl⟩
      · rw [List.mem_append, not_or]
        exact ⟨hscheme.not_mem (.inr rfl), hhash⟩
      · exact (Halves.append_left (hscheme.not_mem (.inl rfl))).mpr hhalves
  · rintro ⟨u, ⟨scheme, query, hscheme, hhash, hquery, hhalves⟩, rfl⟩
    obtain ⟨remainder, rfl⟩ : ∃ remainder, uri = scheme ++ remainder := by
      rcases hhalves.2 with e | ⟨e, -⟩
      · exact ⟨u.front ++ '?' :: query, by rw [e, List.append_assoc]⟩
      · exact ⟨u.front, e⟩
    rw [connectionUriRemainder_eq_some.mpr ⟨scheme, hscheme, rfl⟩]
    dsimp only
    refine parseConnectionUri_eq_ok.mpr ⟨fun hc => hhash (List.mem_append_right _ hc), query,
      u.authority, u.path.text, _, (Halves.append_left (hscheme.not_mem (.inl rfl))).mp hhalves,
      ⟨u.plain.slash, .inl rfl⟩, parseDatabasePath_text u.path, hquery, rfl⟩

/-! ## Rendering -/

/-- An option with its key and value percent-encoded. -/
def EncodedParam (option : List Char × List Char) (pair : List Char) : Prop :=
  ∃ key value, Encodes ['&', '#'] option.1 key ∧ Encodes ['&', '#'] option.2 value ∧
    pair = key ++ '=' :: value

/-- The URI with any mix of escapes. -/
def Encoded (u : ConnectionUri) (uri : List Char) : Prop :=
  ∃ scheme tail, IsScheme scheme ∧ uri = scheme ++ (u.front ++ tail) ∧
    (tail = [] ∧ u.options = [] ∨
      ∃ pairs, List.Forall₂ EncodedParam u.options pairs ∧ tail = '?' :: ['&'].intercalate pairs)

theorem EncodedParam.not_mem {pair : List Char} (h : EncodedParam option pair)
    (hc : c = '&' ∨ c = '#') : c ∉ pair := by
  obtain ⟨key, value, hkey, hvalue, rfl⟩ := h
  have hreserved : c ∈ ['&', '#'] := by simpa using hc
  have hne : c ≠ '%' ∧ c ≠ '=' := by rcases hc with rfl | rfl <;> decide
  have hhex : hexChar c = none := by rcases hc with rfl | rfl <;> decide
  rw [List.mem_append, List.mem_cons, not_or, not_or]
  exact ⟨fun hmem => (hkey.mem hmem hne.1 hhex).2 hreserved, hne.2,
    fun hmem => (hvalue.mem hmem hne.1 hhex).2 hreserved⟩

theorem not_equals_mem {key : List Char} (h : key ∈ uriQueryOptions) : '=' ∉ key := by
  revert key
  decide +kernel

theorem EncodedParam.paramText {pair : List Char} (h : EncodedParam option pair)
    (hknown : option.1 ∈ uriQueryOptions) : ParamText pair option := by
  obtain ⟨key, value, hkey, hvalue, rfl⟩ := h
  refine ⟨key, value, ⟨?_, .inl rfl⟩, hkey.decodes, hvalue.decodes, hknown⟩
  exact fun hmem => not_equals_mem hknown (hkey.mem hmem (by decide) (by decide)).1

theorem paramTexts_of_encoded (h : List.Forall₂ EncodedParam options pairs)
    (hknown : ∀ option ∈ options, option.1 ∈ uriQueryOptions) :
    List.Forall₂ ParamText pairs options := by
  induction h with
  | nil => exact .nil
  | cons hab _ ih =>
    obtain ⟨hfirst, hrest⟩ := List.forall_mem_cons.mp hknown
    exact .cons (hab.paramText hfirst) (ih hrest)

theorem queryText_of_encoded (h : List.Forall₂ EncodedParam options pairs)
    (hknown : ∀ option ∈ options, option.1 ∈ uriQueryOptions) :
    QueryText (['&'].intercalate pairs) options := by
  refine ⟨pairs, rfl, ?_, ?_⟩
  · exact forall_mem_right h fun _ _ hab => hab.not_mem (.inl rfl)
  · have hfilter : (pairs.filter fun pair => !pair.isEmpty) = pairs := by
      apply List.filter_eq_self.mpr
      refine forall_mem_right h ?_
      rintro option pair ⟨key, value, -, -, rfl⟩
      simp
    rw [hfilter]
    exact paramTexts_of_encoded h hknown

theorem Encoded.spells {u : ConnectionUri} (h : Encoded u uri) : Spells u uri := by
  obtain ⟨scheme, tail, hscheme, rfl, htail⟩ := h
  refine ⟨scheme, tail, hscheme, rfl, htail.imp_right ?_⟩
  rintro ⟨pairs, hpairs, rfl⟩
  refine ⟨_, rfl, ?_, queryText_of_encoded hpairs u.supported⟩
  rw [mem_intercalate (by decide)]
  rintro ⟨pair, hpair, hmem⟩
  exact forall_mem_right hpairs (fun _ _ hab => hab.not_mem (.inr rfl)) pair hpair hmem

/-! ## What is rejected -/

/-- A parameter, as it stands in the query of a URI. -/
def InQuery (uri pair : List Char) : Prop :=
  ∃ front pairs, uri = front ++ '?' :: ['&'].intercalate pairs ∧ '?' ∉ front ∧
    (∀ p ∈ pairs, '&' ∉ p) ∧ pair ∈ pairs

/-- The reasons of a rejection. -/
inductive Malformed : List Char → Prop where
  | scheme {uri : List Char} : (∀ lead rest, uri = lead ++ rest → ¬ IsScheme lead) → Malformed uri
  | slashes {scheme rest : List Char} : IsScheme scheme → (∀ after, rest ≠ "//".toList ++ after) →
      Malformed (scheme ++ rest)
  | fragment {uri : List Char} : '#' ∈ uri → Malformed uri
  /-- A path that is no database path, in front of a query or of the end. -/
  | path {scheme authority path tail : List Char} : IsScheme scheme → Plain authority → '?' ∉ path →
      (∀ d : DatabasePath, path ≠ d.text) → (∀ c ∈ tail.head?, c = '?') →
      Malformed (scheme ++ ("//".toList ++ (authority ++ '/' :: (path ++ tail))))
  | noPath {scheme authority tail : List Char} : IsScheme scheme → Plain authority →
      (∀ c ∈ tail.head?, c = '?') → Malformed (scheme ++ ("//".toList ++ (authority ++ tail)))
  /-- A key that is secret or unknown once it is decoded. -/
  | key {uri pair key value name : List Char} : InQuery uri pair → pair ≠ [] →
      Halves '=' pair key value → Decodes key name →
      name ∈ uriSecretOptions ∨ name ∉ uriQueryOptions → Malformed uri
  /-- A percent sign without two digits behind it. -/
  | escape {front a b : List Char} : '?' ∉ front →
      (¬ ∃ hi lo rest, b = hi :: lo :: rest ∧ (hexChar hi).isSome ∧ (hexChar lo).isSome) →
      Malformed (front ++ '?' :: (a ++ '%' :: b))
  | utf8 {uri pair key value part : List Char} {bytes : List UInt8} : InQuery uri pair →
      Halves '=' pair key value → part = key ∨ part = value → Unescapes part bytes →
      (∀ text, bytes ≠ asBytes text) → Malformed uri

theorem unescapes_unique {bytes' : List UInt8} (h : Unescapes s bytes) (h' : Unescapes s bytes') :
    bytes = bytes' := by
  have e := (decodeEscapes_eq_some.mpr h).symm.trans (decodeEscapes_eq_some.mpr h')
  exact Option.some.inj e

theorem IsScheme.append_inj {s' rest rest' : List Char} (h : IsScheme s) (h' : IsScheme s')
    (e : s ++ rest = s' ++ rest') : rest = rest' :=
  (List.append_inj e (h.length.trans h'.length.symm)).2

section Reject

variable {u : ConnectionUri} {params : List (List Char × List Char)} {pair : List Char}

/-- Where the question mark is the first, what follows is the query. -/
theorem Spells.queryText {front query : List Char} (h : Spells u (front ++ '?' :: query))
    (hfront : '?' ∉ front) : QueryText query u.options := by
  obtain ⟨scheme, query', -, -, hquery, hhalves⟩ := spells_iff.mp h
  obtain ⟨-, rfl⟩ := hhalves.unique ⟨hfront, .inl rfl⟩
  exact hquery

theorem exists_paramText {pairs : List (List Char)}
    (h : List.Forall₂ ParamText (pairs.filter fun pair => !pair.isEmpty) params)
    (hpair : pair ∈ pairs) (hne : pair ≠ []) : ∃ option, ParamText pair option := by
  have hall := forall_mem_left h fun _ option hab => (⟨option, hab⟩ : ∃ option, ParamText _ option)
  exact hall pair (List.mem_filter.mpr ⟨hpair, by simpa using hne⟩)

theorem Spells.paramText {uri : List Char} (h : Spells u uri) (hpair : InQuery uri pair)
    (hne : pair ≠ []) : ∃ option, ParamText pair option := by
  obtain ⟨front, pairs, rfl, hfront, hfree, hmem⟩ := hpair
  have hquery := queryText_iff.mp (h.queryText hfront)
  rw [List.splitOn_intercalate '&' hfree (List.ne_nil_of_mem hmem)] at hquery
  exact exists_paramText hquery hmem hne

/-- The authority and the path are what stands between the two slashes and the query. -/
theorem Spells.after {scheme after tail : List Char}
    (h : Spells u (scheme ++ ("//".toList ++ (after ++ tail)))) (hscheme : IsScheme scheme)
    (hafter : '?' ∉ after) (htail : ∀ c ∈ tail.head?, c = '?') :
    after = u.authority ++ '/' :: u.path.text := by
  obtain ⟨scheme', query, hscheme', -, -, hhalves⟩ := spells_iff.mp h
  have hfree : '?' ∉ scheme ++ ("//".toList ++ after) := by
    rw [List.mem_append, List.mem_append, not_or, not_or]
    exact ⟨hscheme.not_mem (.inl rfl), by decide, hafter⟩
  have e : scheme' ++ u.front = scheme ++ ("//".toList ++ after) := by
    cases tail with
    | nil =>
      rw [List.append_nil] at hhalves
      exact (hhalves.unique ⟨hfree, .inr ⟨rfl, rfl⟩⟩).1
    | cons c tail =>
      obtain rfl := htail c rfl
      have hjoin : scheme ++ ("//".toList ++ (after ++ '?' :: tail)) =
          (scheme ++ ("//".toList ++ after)) ++ '?' :: tail := by simp
      exact (hhalves.unique ⟨hfree, .inl hjoin⟩).1
  exact (List.append_cancel_left (hscheme'.append_inj hscheme e)).symm

theorem ParamText.part {key value part : List Char} {option : List Char × List Char}
    (h : ParamText pair option) (hhalves : Halves '=' pair key value)
    (hpart : part = key ∨ part = value) : ∃ text, Decodes part text := by
  obtain ⟨key', value', hhalves', hkey, hvalue, -⟩ := h
  obtain ⟨rfl, rfl⟩ := hhalves.unique hhalves'
  rcases hpart with rfl | rfl
  · exact ⟨_, hkey⟩
  · exact ⟨_, hvalue⟩

/-- A percent sign of a query begins an escape. -/
theorem QueryText.percent {query a b : List Char} (h : QueryText query params)
    (hquery : query = a ++ '%' :: b) :
    ∃ hi lo rest, b = hi :: lo :: rest ∧ (hexChar hi).isSome ∧ (hexChar lo).isSome := by
  obtain ⟨pairs, rfl, hfree, hparams⟩ := h
  obtain ⟨pair, hpair, front, back, rfl, hback⟩ := exists_part (by decide) hquery
  obtain ⟨option, key, value, hhalves, hkey, hvalue, -⟩ := exists_paramText hparams hpair (by simp)
  obtain ⟨part, hpart, front', back', rfl, hback'⟩ :
      ∃ part, (part = key ∨ part = value) ∧ ∃ front' back', part = front' ++ '%' :: back' ∧
        back' <+: back := by
    rcases hhalves.2 with e | ⟨e, -⟩
    · have hjoin : ['='].intercalate [key, value] = front ++ '%' :: back := by rw [e]; simp
      obtain ⟨part, hpart, hplace⟩ := exists_part (by decide) hjoin
      exact ⟨part, by simpa using hpart, hplace⟩
    · exact ⟨key, .inl rfl, front, back, e.symm, List.prefix_rfl⟩
  have hescapes : ∃ bytes, Unescapes (front' ++ '%' :: back') bytes := by
    rcases hpart with e | e
    · exact ⟨_, e ▸ hkey⟩
    · exact ⟨_, e ▸ hvalue⟩
  obtain ⟨bytes, hbytes⟩ := hescapes
  obtain ⟨hi, lo, rest, rfl, hhi, hlo⟩ := hbytes.percent rfl
  obtain ⟨more, rfl⟩ := hback'.trans hback
  exact ⟨hi, lo, rest ++ more, rfl, hhi, hlo⟩

theorem Malformed.not_spells {uri : List Char} (h : Malformed uri) : ¬ Spells u uri := by
  intro hspells
  cases h with
  | scheme hscheme =>
    obtain ⟨scheme, tail, hvalid, rfl, -⟩ := hspells
    exact hscheme scheme _ rfl hvalid
  | @slashes scheme rest hscheme hrest =>
    obtain ⟨scheme', tail, hscheme', e, -⟩ := hspells
    obtain rfl := hscheme.append_inj hscheme' e
    exact hrest _ (List.append_assoc _ _ _)
  | fragment hhash =>
    obtain ⟨scheme, query, -, hfree, -⟩ := spells_iff.mp hspells
    exact hfree hhash
  | @path scheme authority path tail hscheme hauthority hpath hother htail =>
    have hfree : '?' ∉ authority ++ '/' :: path := by
      rw [List.mem_append, List.mem_cons, not_or, not_or]
      exact ⟨hauthority.question, by decide, hpath⟩
    have hspells : Spells u (scheme ++ ("//".toList ++ ((authority ++ '/' :: path) ++ tail))) := by
      simpa using hspells
    have hhalves : Halves '/' (authority ++ '/' :: path) u.authority u.path.text :=
      ⟨u.plain.slash, .inl (hspells.after hscheme hfree htail)⟩
    exact hother u.path (hhalves.unique ⟨hauthority.slash, .inl rfl⟩).2.symm
  | @noPath scheme authority tail hscheme hauthority htail =>
    apply hauthority.slash
    rw [hspells.after hscheme hauthority.question htail]
    simp
  | @key uri pair key value name hpair hne hhalves hname hunknown =>
    obtain ⟨option, key', value', hhalves', hkey, -, hknown⟩ := hspells.paramText hpair hne
    obtain ⟨rfl, rfl⟩ := hhalves.unique hhalves'
    obtain rfl : name = option.1 := asBytes_injective (unescapes_unique hname hkey)
    exact hunknown.elim (not_secret hknown) fun h => h hknown
  | escape hfront hdigits => exact hdigits ((hspells.queryText hfront).percent rfl)
  | @utf8 uri pair key value part bytes hpair hhalves hpart hbytes hinvalid =>
    by_cases hne : pair = []
    · subst hne
      have hnil : part = [] := by
        rcases hhalves.sublist with ⟨hkey, hvalue⟩
        rcases hpart with rfl | rfl
        · exact List.sublist_nil.mp hkey
        · exact List.sublist_nil.mp hvalue
      subst hnil
      exact hinvalid [] (unescapes_unique hbytes .nil)
    · obtain ⟨option, hoption⟩ := hspells.paramText hpair hne
      obtain ⟨text, htext⟩ := hoption.part hhalves hpart
      exact hinvalid text (unescapes_unique hbytes htext)

end Reject

theorem Malformed.rejected (h : Malformed uri) (K : Client) :
    ∃ e, readUri K uri = .error e := by
  cases hread : readUri K uri with
  | error e => exact ⟨e, rfl⟩
  | ok parsed =>
    obtain ⟨u, hspells, -⟩ := readUri_eq_ok.mp hread
    exact absurd hspells h.not_spells

/-- A connection URI, rendered with any mix of escapes, is read back; what is accepted has the shape of
one; what is malformed is rejected, and leaves the database as it is; nothing panics. -/
theorem connection_uri_grammar (K : Client) :
    (∀ u uri, Encoded u uri → readUri K uri = .ok u.parsed) ∧
    (∀ uri parsed, readUri K uri = .ok parsed → ∃ u, Spells u uri ∧ u.parsed = parsed) ∧
    (∀ uri, Malformed uri →
      ∃ e, readUri K uri = .error e ∧ ∀ self : Database, self.setUriOption K uri = .error e) ∧
    ∀ uri : Str, Checked.readUri K uri.chars = CheckedResult.returns (readUri K uri.chars) := by
  refine ⟨?_, ?_, ?_, Checked.readUri_eq K⟩
  · intro u uri h
    exact readUri_eq_ok.mpr ⟨u, h.spells, rfl⟩
  · intro uri parsed h
    exact readUri_eq_ok.mp h
  · intro uri h
    obtain ⟨e, he⟩ := h.rejected K
    exact ⟨e, he, setUriOption_of_error he⟩

def accentUri : ConnectionUri where
  authority := "h:1".toList
  path := {
    project := ⟨"p".toList, by decide, by constructor <;> decide⟩
    instanceId := ⟨"i".toList, by decide, by constructor <;> decide⟩
    database := ⟨"d".toList, by decide, by constructor <;> decide⟩ }
  options := [(optionKeyfile, "é&x".toList)]
  plain := by constructor <;> decide
  supported := by decide +kernel

def accentText : List Char :=
  "Spanner://h:1/projects/p/instances/i/databases/d?spanner.auth.keyfile=%C3%a9%26x".toList

theorem connection_uri_grammar_accent :
    readUri plainClient accentText = .ok accentUri.parsed ∧
    ∃ e, readUri plainClient (accentText ++ "%2".toList) = .error e ∧
      ∀ self : Database, self.setUriOption plainClient (accentText ++ "%2".toList) = .error e := by
  obtain ⟨hread, -, hreject, -⟩ := connection_uri_grammar plainClient
  have haccent : Escapes (String.utf8EncodeChar 'é') "%C3%a9".toList :=
    .cons (h := 12) (l := 3) (by decide) (by decide)
      (.cons (h := 10) (l := 9) (by decide) (by decide) .nil)
  have hampersand : Escapes (String.utf8EncodeChar '&') "%26".toList :=
    .cons (h := 2) (l := 6) (by decide) (by decide) .nil
  have hvalue : Encodes ['&', '#'] "é&x".toList "%C3%a9%26x".toList :=
    .escaped haccent (.escaped hampersand (.plain (by decide) (by decide) .nil))
  have hkey : Encodes ['&', '#'] optionKeyfile optionKeyfile := encodes_self (by decide +kernel)
  have hpair : EncodedParam (optionKeyfile, "é&x".toList)
      (optionKeyfile ++ '=' :: "%C3%a9%26x".toList) := ⟨_, _, hkey, hvalue, rfl⟩
  constructor
  · apply hread
    exact ⟨"Spanner:".toList, _, by decide, by decide +kernel, .inr ⟨_, .cons hpair .nil, rfl⟩⟩
  · apply hreject
    have hsplit : accentText ++ "%2".toList =
        "Spanner://h:1/projects/p/instances/i/databases/d".toList ++
          '?' :: ("spanner.auth.keyfile=%C3%a9%26x".toList ++ '%' :: ['2']) := by decide +kernel
    rw [hsplit]
    exact .escape (by decide +kernel) (by simp)

end Config
end SpannerAdbc
