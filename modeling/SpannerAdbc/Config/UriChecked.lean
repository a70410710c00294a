import SpannerAdbc.Config.Database
import SpannerAdbc.Lib.Digits
import SpannerAdbc.Lib.Panic

/-!
# SpannerAdbc.Config.UriChecked

The parser of connection URIs once more, with what would make it panic: the scheme is cut off at a byte
position, which has to be a character boundary, and the decoding loop reserves a vector, indexes bytes
and adds to its index. It does not panic, and gives what `readUri` gives (`Checked.readUri_eq`).
-/

namespace SpannerAdbc
namespace Config

open Lib Session

/-- What `set_uri_option` does before anything is written. -/
def readUri (K : Client) (value : List Char) : Except Error ParsedConnectionUri :=
  match connectionUriRemainder value with
  | none => .error (Database.uriRejected K value)
  | some remainder => parseConnectionUri K.debug value remainder

/-! ## The scheme -/

/-- `spanner:` in any case. -/
def IsScheme (s : List Char) : Prop := Sql.eqIgnoreAsciiCase s "spanner:".toList = true

instance (s : List Char) : Decidable (IsScheme s) :=
  inferInstanceAs (Decidable (Sql.eqIgnoreAsciiCase s "spanner:".toList = true))

variable {s : List Char}

theorem IsScheme.length (h : IsScheme s) : s.length = 8 := by
  have hmap : s.map Char.toLower = "spanner:".toList.map Char.toLower := beq_iff_eq.mp h
  have hlength := congrArg List.length hmap
  simpa using hlength

theorem IsScheme.toLower_mem (h : IsScheme s) {c : Char} (hc : c ∈ s) :
    c.toLower ∈ "spanner:".toList := by
  have hmap : s.map Char.toLower = "spanner:".toList.map Char.toLower := beq_iff_eq.mp h
  have hmem : c.toLower ∈ s.map Char.toLower := List.mem_map_of_mem hc
  rw [hmap] at hmem
  exact hmem

theorem IsScheme.ascii (h : IsScheme s) : ∀ c ∈ s, c.toNat < 128 := by
  intro c hc
  by_contra hlarge
  have hupper : ¬ (c.val ≥ 'A'.val ∧ c.val ≤ 'Z'.val) := by
    rintro ⟨-, hle⟩
    have : c.toNat ≤ 'Z'.toNat := hle
    simp at this
    omega
  have hlower : c.toLower = c := dif_neg hupper
  have hmem := h.toLower_mem hc
  rw [hlower] at hmem
  have hall : ("spanner:".toList.all fun d => decide (d.toNat < 128)) = true := by decide
  exact hlarge (of_decide_eq_true (List.all_eq_true.mp hall c hmem))

theorem connectionUriRemainder_eq_some {value remainder : List Char} :
    connectionUriRemainder value = some remainder ↔
      ∃ scheme, IsScheme scheme ∧ value = scheme ++ remainder := by
  rw [connectionUriRemainder]
  constructor
  · intro h
    split at h
    · rename_i hscheme
      obtain rfl := Option.some.inj h
      exact ⟨value.take 8, hscheme, (List.take_append_drop 8 value).symm⟩
    · cases h
  · rintro ⟨scheme, hscheme, rfl⟩
    rw [List.take_left' hscheme.length, List.drop_left' hscheme.length]
    exact if_pos hscheme

/-- A string: at most `isize::MAX` bytes. -/
structure Str where
  chars : List Char
  bound : (asBytes chars).length < 2 ^ 63

theorem length_asBytes_le {t : List Char} (h : s.Sublist t) :
    (asBytes s).length ≤ (asBytes t).length := by
  induction h with
  | slnil => rfl
  | @cons s t c _ ih =>
    rw [asBytes, asBytes, List.flatMap_cons, List.length_append]
    exact ih.trans (Nat.le_add_left _ _)
  | @cons_cons s t c _ ih =>
    rw [asBytes, asBytes, List.flatMap_cons, List.flatMap_cons, List.length_append, List.length_append]
    exact Nat.add_le_add_left ih _

namespace Checked

open Lib.Checked

def usize : Nat → Checked Nat := below (2 ^ 64)

/-- A string around a byte position, when it is a character boundary. -/
def splitAtByte : Nat → List Char → Option (List Char × List Char)
  | 0, s => some ([], s)
  | _ + 1, [] => none
  | n + 1, c :: s =>
    if c.utf8Size ≤ n + 1 then (splitAtByte (n + 1 - c.utf8Size) s).map fun r => (c :: r.1, r.2)
    else none

/-- `&s[n..]`. -/
def sliceFrom (s : List Char) (n : Nat) : Checked (List Char) :=
  match splitAtByte n s with
  | some (_, rest) => return rest
  | none => OptionT.mk (.error .outOfBounds)

def connectionUriRemainder (value : List Char) : Checked (List Char) := do
  let (lead, _) ← returns (splitAtByte 8 value)
  if Sql.eqIgnoreAsciiCase lead "spanner:".toList then sliceFrom value 8 else failure

theorem splitAtByte_append {n : Nat} {s a b : List Char} (h : splitAtByte n s = some (a, b)) :
    s = a ++ b := by
  induction s generalizing n a with
  | nil =>
    cases n with
    | zero =>
      obtain ⟨rfl, rfl⟩ : [] = a ∧ [] = b := by simpa [splitAtByte] using h
      rfl
    | succ n => cases h
  | cons c s ih =>
    cases n with
    | zero =>
      obtain ⟨rfl, rfl⟩ : [] = a ∧ c :: s = b := by simpa [splitAtByte] using h
      rfl
    | succ n =>
      rw [splitAtByte] at h
      split at h
      · obtain ⟨⟨a', b'⟩, hrest, e⟩ := Option.map_eq_some_iff.mp h
        obtain ⟨rfl, rfl⟩ : c :: a' = a ∧ b' = b := by simpa using e
        rw [ih hrest]
        rfl
      · cases h

theorem splitAtByte_of_ascii {s : List Char} (hs : ∀ c ∈ s, c.toNat < 128) (rest : List Char) :
    splitAtByte s.length (s ++ rest) = some (s, rest) := by
  induction s with
  | nil => simp [splitAtByte]
  | cons c s ih =>
    obtain ⟨hc, hs⟩ := List.forall_mem_cons.mp hs
    have hsize : c.utf8Size = 1 := by
      rw [Char.utf8Size_eq_one_iff, UInt32.le_iff_toNat_le]
      exact Nat.le_of_lt_succ hc
    rw [List.length_cons, List.cons_append, splitAtByte, hsize, if_pos (Nat.le_add_left 1 _),
      Nat.add_sub_cancel, ih hs]
    rfl

/-- Eight characters of a scheme are eight bytes. -/
theorem connectionUriRemainder_eq (value : List Char) :
    connectionUriRemainder value = returns (Config.connectionUriRemainder value) := by
  rw [connectionUriRemainder, Config.connectionUriRemainder]
  by_cases hvalue : Sql.eqIgnoreAsciiCase (value.take 8) "spanner:".toList = true
  · have hscheme : IsScheme (value.take 8) := hvalue
    have hsplit : splitAtByte 8 value = some (value.take 8, value.drop 8) := by
      have h := splitAtByte_of_ascii hscheme.ascii (value.drop 8)
      rwa [hscheme.length, List.take_append_drop] at h
    rw [hsplit, some_bind]
    dsimp only
    rw [if_pos hvalue, if_pos hvalue, sliceFrom, hsplit]
    rfl
  · rw [if_neg hvalue]
    cases hsplit : splitAtByte 8 value with
    | none => rfl
    | some r =>
      obtain ⟨lead, rest⟩ := r
      have hlead : ¬ IsScheme lead := by
        intro h
        apply hvalue
        rw [splitAtByte_append hsplit, List.take_left' h.length]
        exact h
      rw [some_bind]
      exact if_neg hlead

/-! ## Percent-decoding -/

/-- `bytes.get(start..stop)`. -/
def getRange (bytes : List UInt8) (start stop : Nat) : Option (List UInt8) :=
  if start ≤ stop ∧ stop ≤ bytes.length then some ((bytes.take stop).drop start) else none

/-- The byte of two digits: `u8::from_str_radix` does not fail on these. -/
def hexByte : List UInt8 → Option UInt8
  | [hi, lo] => do return 16 * (← hexDigit hi) + (← hexDigit lo)
  | _ => none

/-- The loop of `percent_decode` from the index on. -/
def decodeLoop (bytes : List UInt8) (i : Nat) (out : List UInt8) : Checked (List UInt8) :=
  if i < bytes.length then do
    if (← index bytes i) = 37 then
      let start ← usize (i + 1)
      let stop ← usize (i + 3)
      let hex ← returns (getRange bytes start stop)
      let byte ← returns (hexByte hex)
      let _ ← usize (i + 3)
      decodeLoop bytes (i + 3) (out ++ [byte])
    else
      let b ← index bytes i
      let _ ← usize (i + 1)
      decodeLoop bytes (i + 1) (out ++ [b])
  else return out
termination_by bytes.length - i

/-- The bytes are reserved before the loop. -/
def decodeEscapes (bytes : List UInt8) : Checked (List UInt8) := do
  let _ ← below (2 ^ 63) bytes.length
  decodeLoop bytes 0 []

theorem decodeLoop_eq {bytes : List UInt8} (hlen : bytes.length < 2 ^ 63) (i : Nat) (out : List UInt8) :
    decodeLoop bytes i out = returns ((Config.decodeEscapes (bytes.drop i)).map (out ++ ·)) := by
  induction hn : bytes.length - i using Nat.strongRecOn generalizing i out with
  | ind n ih =>
    rw [decodeLoop]
    by_cases hi : i < bytes.length
    · have hdrop : bytes.drop i = bytes.getD i 0 :: bytes.drop (i + 1) := by
        rw [List.drop_eq_getElem_cons hi, List.getD_eq_getElem _ 0 hi]
      have hstart : usize (i + 1) = returns (some (i + 1)) := below_eq (by omega)
      have hstop : usize (i + 3) = returns (some (i + 3)) := below_eq (by omega)
      rw [if_pos hi, index_eq hi 0, some_bind, hdrop]
      by_cases hb : bytes.getD i 0 = 37
      · rw [if_pos hb, hb, hstart, some_bind, hstop, some_bind]
        by_cases hfit : i + 3 ≤ bytes.length
        · obtain ⟨hi, lo, hhex⟩ : ∃ hi lo, bytes.drop (i + 1) = hi :: lo :: bytes.drop (i + 3) := by
            refine ⟨bytes[i + 1], bytes[i + 2], ?_⟩
            rw [List.drop_eq_getElem_cons (by omega), List.drop_eq_getElem_cons (by omega)]
          have hrange : getRange bytes (i + 1) (i + 3) = some [hi, lo] := by
            rw [getRange, if_pos ⟨by omega, hfit⟩, List.drop_take, hhex, Nat.add_sub_add_left]
            rfl
          rw [hrange, some_bind, hhex, decodeEscapes_escape, hexByte]
          cases hexDigit hi with
          | none => rfl
          | some h =>
            cases hexDigit lo with
            | none => rfl
            | some l =>
              change decodeLoop bytes (i + 3) (out ++ [16 * h + l]) = _
              rw [ih _ (by omega) (i + 3) _ rfl]
              cases Config.decodeEscapes (bytes.drop (i + 3)) with
              | none => rfl
              | some rest => simp
        · have hnone : getRange bytes (i + 1) (i + 3) = none := if_neg fun h => hfit h.2
          rw [hnone, decodeEscapes_short (by rw [List.length_drop]; omega)]
          rfl
      · rw [if_neg hb, some_bind, hstart, some_bind, ih _ (by omega) (i + 1) _ rfl,
          decodeEscapes_cons hb, Option.map_map]
        simp [Function.comp_def]
    · rw [if_neg hi, List.drop_eq_nil_of_le (Nat.le_of_not_lt hi)]
      simp [Config.decodeEscapes, pure_eq]

/-! ## The parser -/

section Parse

variable (debug : List Char → List Char)

def percentDecode (s : List Char) : CheckedResult Error (List Char) :=
  if '%' ∉ s then return s
  else do
    let out ← CheckedResult.okOr (malformedEscape debug s) (decodeEscapes (asBytes s))
    match ByteArray.utf8Decode? ⟨out.toArray⟩ with
    | none => throw (invalidUtf8 debug s)
    | some decoded => return decoded.toList

theorem percentDecode_eq {s : List Char} (hlen : (asBytes s).length < 2 ^ 63) :
    percentDecode debug s = CheckedResult.returns (Config.percentDecode debug s) := by
  rw [percentDecode, Config.percentDecode]
  split
  · rfl
  · have hdecode : decodeEscapes (asBytes s) = returns (Config.decodeEscapes (asBytes s)) := by
      rw [decodeEscapes, below_eq hlen, some_bind, decodeLoop_eq hlen]
      simp
    have hbytes : s.flatMap String.utf8EncodeChar = asBytes s := rfl
    rw [hdecode, CheckedResult.okOr_returns, hbytes]
    cases Config.decodeEscapes (asBytes s) with
    | none => rfl
    | some out =>
      rw [Option.elim_some, CheckedResult.ok_bind]
      dsimp only
      cases ByteArray.utf8Decode? ⟨out.toArray⟩ <;> rfl

def parseParam (pair : List Char) : CheckedResult Error (List Char × List Char) := do
  let (key, value) := (splitOnce '=' pair).getD (pair, [])
  let key ← percentDecode debug key
  if uriSecretOptions.contains key then throw (secretRejected debug key)
  else if !uriQueryOptions.contains key then throw (parameterRejected debug key)
  else return (key, ← percentDecode debug value)

theorem parseParam_eq {pair : List Char} (hlen : (asBytes pair).length < 2 ^ 63) :
    parseParam debug pair = CheckedResult.returns (Config.parseParam debug pair) := by
  rw [parseParam, Config.parseParam]
  cases hsplit : (splitOnce '=' pair).getD (pair, []) with
  | mk key value =>
    have hhalves := getD_splitOnce.mp hsplit
    refine CheckedResult.bind_returns (percentDecode_eq debug ?_) ?_
    · exact (length_asBytes_le hhalves.sublist.1).trans_lt hlen
    · intro name _
      have hunknown : (!uriQueryOptions.contains name) = true ↔ name ∉ uriQueryOptions := by simp
      simp only [List.contains_iff_mem, hunknown]
      split
      · rfl
      · split
        · rfl
        · refine CheckedResult.bind_returns (percentDecode_eq debug ?_) fun _ _ => rfl
          exact (length_asBytes_le hhalves.sublist.2).trans_lt hlen

def parseParams : List (List Char) → CheckedResult Error (List (List Char × List Char))
  | [] => return []
  | pair :: pairs => do
    let param ← parseParam debug pair
    let params ← parseParams pairs
    return param :: params

theorem parseParams_eq {pairs : List (List Char)}
    (hlen : ∀ pair ∈ pairs, (asBytes pair).length < 2 ^ 63) :
    parseParams debug pairs = CheckedResult.returns (Config.parseParams debug pairs) := by
  induction pairs with
  | nil => rfl
  | cons pair pairs ih =>
    obtain ⟨hpair, hpairs⟩ := List.forall_mem_cons.mp hlen
    rw [parseParams, Config.parseParams]
    refine CheckedResult.bind_returns (parseParam_eq debug hpair) fun param _ => ?_
    exact CheckedResult.bind_returns (ih hpairs) fun _ _ => rfl

def parseConnectionUri (uri remainder : List Char) : CheckedResult Error ParsedConnectionUri :=
  if (splitOnce '#' remainder).isSome then throw fragmentRejected
  else
    let (beforeQuery, query) := (splitOnce '?' remainder).getD (remainder, [])
    match stripPrefix "//".toList beforeQuery with
    | none => throw (formRejected debug uri)
    | some afterAuthority => do
      let (authority, path) := (splitOnce '/' afterAuthority).getD (afterAuthority, [])
      let database ← CheckedResult.returns (parseDatabasePath debug path)
      let params ← parseParams debug ((query.splitOn '&').filter fun pair => !pair.isEmpty)
      return { database, endpoint := if authority = [] then none else some authority, params }

theorem parseConnectionUri_eq (uri : List Char) {remainder : List Char}
    (hlen : (asBytes remainder).length < 2 ^ 63) :
    parseConnectionUri debug uri remainder =
      CheckedResult.returns (Config.parseConnectionUri debug uri remainder) := by
  rw [parseConnectionUri, Config.parseConnectionUri]
  split
  · rfl
  · cases hsplit : (splitOnce '?' remainder).getD (remainder, []) with
    | mk beforeQuery query =>
      have hquery : query.Sublist remainder := (getD_splitOnce.mp hsplit).sublist.2
      have hpairs : ∀ pair ∈ (query.splitOn '&').filter fun pair => !pair.isEmpty,
          (asBytes pair).length < 2 ^ 63 := by
        intro pair hpair
        have hsub := sublist_of_mem_splitOn (List.mem_of_mem_filter hpair)
        exact (length_asBytes_le (hsub.trans hquery)).trans_lt hlen
      dsimp only
      cases stripPrefix "//".toList beforeQuery with
      | none => rfl
      | some afterAuthority =>
        refine CheckedResult.bind_returns rfl fun database _ => ?_
        exact CheckedResult.bind_returns (parseParams_eq debug hpairs) fun _ _ => rfl

end Parse

def readUri (K : Client) (value : List Char) : CheckedResult Error ParsedConnectionUri := do
  let remainder ← CheckedResult.okOr (Database.uriRejected K value) (connectionUriRemainder value)
  parseConnectionUri K.debug value remainder

theorem readUri_eq (K : Client) (uri : Str) :
    readUri K uri.chars = CheckedResult.returns (Config.readUri K uri.chars) := by
  rw [readUri, Config.readUri, connectionUriRemainder_eq, CheckedResult.okOr_returns]
  cases hremainder : Config.connectionUriRemainder uri.chars with
  | none => rfl
  | some remainder =>
    obtain ⟨scheme, -, happend⟩ := connectionUriRemainder_eq_some.mp hremainder
    have hsub : remainder.Sublist uri.chars := happend ▸ List.sublist_append_right _ _
    exact parseConnectionUri_eq K.debug uri.chars ((length_asBytes_le hsub).trans_lt uri.bound)

end Checked
end Config
end SpannerAdbc
