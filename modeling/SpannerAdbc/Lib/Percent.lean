import SpannerAdbc.Lib.Digits

/-!
# SpannerAdbc.Lib.Percent

Percent-encoding of Unicode text: `Unescapes` gives the bytes that a text with escapes stands for, and
`Decodes` the text when the bytes are its UTF-8 form. `Encodes` is the converse with any mix of escaped
and plain characters, the digits of the escapes in any case; `Encodes.decodes` says that it is undone.
-/

namespace SpannerAdbc
namespace Lib
namespace Percent

/-- The value of a hexadecimal digit. -/
def hexChar (c : Char) : Option UInt8 :=
  if '0' ≤ c ∧ c ≤ '9' then some (UInt8.ofNat (c.toNat - 48))
  else if 'A' ≤ c ∧ c ≤ 'F' then some (UInt8.ofNat (c.toNat - 55))
  else if 'a' ≤ c ∧ c ≤ 'f' then some (UInt8.ofNat (c.toNat - 87))
  else none

inductive Unescapes : List Char → List UInt8 → Prop where
  | nil : Unescapes [] []
  | plain {c : Char} {s : List Char} {bytes : List UInt8} : c ≠ '%' → Unescapes s bytes →
      Unescapes (c :: s) (String.utf8EncodeChar c ++ bytes)
  | escape {hi lo : Char} {h l : UInt8} {s : List Char} {bytes : List UInt8} :
      hexChar hi = some h → hexChar lo = some l → Unescapes s bytes →
      Unescapes ('%' :: hi :: lo :: s) ((16 * h + l) :: bytes)

def Decodes (s t : List Char) : Prop := Unescapes s (asBytes t)

/-- An escape for each byte. -/
inductive Escapes : List UInt8 → List Char → Prop where
  | nil : Escapes [] []
  | cons {hi lo : Char} {h l : UInt8} {bytes : List UInt8} {s : List Char} : hexChar hi = some h →
      hexChar lo = some l → Escapes bytes s → Escapes ((16 * h + l) :: bytes) ('%' :: hi :: lo :: s)

/-- Every character is written as it is or with its bytes escaped; the percent sign and the reserved
characters are escaped. -/
inductive Encodes (reserved : List Char) : List Char → List Char → Prop where
  | nil : Encodes reserved [] []
  | plain {c : Char} {text s : List Char} : c ≠ '%' → c ∉ reserved → Encodes reserved text s →
      Encodes reserved (c :: text) (c :: s)
  | escaped {c : Char} {text e s : List Char} : Escapes (String.utf8EncodeChar c) e →
      Encodes reserved text s → Encodes reserved (c :: text) (e ++ s)

/-! ## Encoding is undone -/

variable {bytes : List UInt8} {reserved text s : List Char} {c : Char}

theorem Escapes.unescapes {e : List Char} (h : Escapes bytes e) {rest : List UInt8}
    (hs : Unescapes s rest) : Unescapes (e ++ s) (bytes ++ rest) := by
  induction h with
  | nil => exact hs
  | cons hhi hlo _ ih => exact .escape hhi hlo ih

theorem Encodes.decodes (h : Encodes reserved text s) :
    Decodes s text := by
  induction h with
  | nil => exact .nil
  | plain hc _ _ ih => exact .plain hc ih
  | escaped he _ ih => exact he.unescapes ih

theorem encodes_self (h : (text.all fun c => decide (c ≠ '%' ∧ c ∉ reserved)) = true) :
    Encodes reserved text text := by
  induction text with
  | nil => exact .nil
  | cons c text ih =>
    rw [List.all_cons, Bool.and_eq_true, decide_eq_true_iff] at h
    exact .plain h.1.1 h.1.2 (ih h.2)

theorem hexChar_percent : hexChar '%' = none := by decide

theorem Escapes.mem {e : List Char} (h : Escapes bytes e) (hc : c ∈ e) :
    c = '%' ∨ (hexChar c).isSome := by
  induction h with
  | nil => cases hc
  | cons hhi hlo _ ih =>
    rcases List.mem_cons.mp hc with rfl | hc
    · exact .inl rfl
    rcases List.mem_cons.mp hc with rfl | hc
    · exact .inr (by rw [hhi]; rfl)
    rcases List.mem_cons.mp hc with rfl | hc
    · exact .inr (by rw [hlo]; rfl)
    · exact ih hc

/-- A character that stands for itself. -/
theorem Encodes.mem (h : Encodes reserved text s) (hc : c ∈ s) (hpercent : c ≠ '%')
    (hhex : hexChar c = none) : c ∈ text ∧ c ∉ reserved := by
  induction h with
  | nil => cases hc
  | plain _ hd _ ih =>
    rcases List.mem_cons.mp hc with rfl | hc
    · exact ⟨List.mem_cons_self, hd⟩
    · exact ⟨List.mem_cons_of_mem _ (ih hc).1, (ih hc).2⟩
  | escaped he _ ih =>
    rcases List.mem_append.mp hc with hc | hc
    · rcases he.mem hc with rfl | hsome
      · exact absurd rfl hpercent
      · simp [hhex] at hsome
    · exact ⟨List.mem_cons_of_mem _ (ih hc).1, (ih hc).2⟩

/-- Every percent sign begins an escape. -/
theorem Unescapes.percent (h : Unescapes s bytes) {a b : List Char} (hs : s = a ++ '%' :: b) :
    ∃ hi lo rest, b = hi :: lo :: rest ∧ (hexChar hi).isSome ∧ (hexChar lo).isSome := by
  induction h generalizing a with
  | nil => simp at hs
  | @plain c s _ hc _ ih =>
    cases a with
    | nil => exact absurd (List.cons.inj hs).1 hc
    | cons d a => exact ih (List.cons.inj hs).2
  | @escape hi lo h l s _ hhi hlo _ ih =>
    have hnot {c : Char} {v : UInt8} (hc : hexChar c = some v) : c ≠ '%' := by
      rintro rfl
      rw [hexChar_percent] at hc
      cases hc
    rcases a with _ | ⟨_, _ | ⟨_, _ | ⟨_, a⟩⟩⟩
    · obtain ⟨-, rfl⟩ := List.cons.inj hs
      exact ⟨hi, lo, s, rfl, by rw [hhi]; rfl, by rw [hlo]; rfl⟩
    · obtain ⟨-, e⟩ := List.cons.inj hs
      exact absurd (List.cons.inj e).1 (hnot hhi)
    · obtain ⟨-, e⟩ := List.cons.inj hs
      exact absurd (List.cons.inj (List.cons.inj e).2).1 (hnot hlo)
    · obtain ⟨-, e⟩ := List.cons.inj hs
      exact ih (List.cons.inj (List.cons.inj e).2).2

/-! ## UTF-8 -/

/-- The bytes of a character beyond ASCII. -/
theorem le_of_mem_utf8EncodeChar (hc : 128 ≤ c.toNat) {b : UInt8}
    (hb : b ∈ String.utf8EncodeChar c) : 128 ≤ b.toNat := by
  have hv : c.val.toNat = c.toNat := rfl
  unfold String.utf8EncodeChar at hb
  rw [hv] at hb
  have hbyte (x m base : Nat) (hm : 0 < m) (hbase : 128 ≤ base) (hsum : m + base ≤ 256) :
      128 ≤ (UInt8.ofNat (x % m + base)).toNat := by
    have hlt := Nat.mod_lt x hm
    rw [UInt8.toNat_ofNat', Nat.mod_eq_of_lt (by omega)]
    omega
  have hlast (x : Nat) : 128 ≤ (UInt8.ofNat (x % 64 + 128)).toNat :=
    hbyte x 64 128 (by decide) (by decide) (by decide)
  dsimp only at hb
  rw [if_neg (by omega)] at hb
  split at hb
  · simp only [List.mem_cons, List.not_mem_nil, or_false] at hb
    rcases hb with rfl | rfl
    · exact hbyte _ 32 192 (by decide) (by decide) (by decide)
    · exact hlast _
  · split at hb
    · simp only [List.mem_cons, List.not_mem_nil, or_false] at hb
      rcases hb with rfl | rfl | rfl
      · exact hbyte _ 16 224 (by decide) (by decide) (by decide)
      · exact hlast _
      · exact hlast _
    · simp only [List.mem_cons, List.not_mem_nil, or_false] at hb
      rcases hb with rfl | rfl | rfl | rfl
      · exact hbyte _ 8 240 (by decide) (by decide) (by decide)
      · exact hlast _
      · exact hlast _
      · exact hlast _

theorem utf8EncodeChar_of_ascii (hc : c.toNat < 128) :
    String.utf8EncodeChar c = [UInt8.ofNat c.toNat] := if_pos (Nat.le_of_lt_succ hc)

/-- The byte of an ASCII character stands for nothing else. -/
theorem ne_of_mem_utf8EncodeChar {a : Char} (ha : a.toNat < 128) (hc : c ≠ a) :
    ∀ b ∈ String.utf8EncodeChar c, b ≠ UInt8.ofNat a.toNat := by
  rintro b hb rfl
  rcases Nat.lt_or_ge c.toNat 128 with hlt | hge
  · rw [utf8EncodeChar_of_ascii hlt, List.mem_singleton] at hb
    have hnat := congrArg UInt8.toNat hb
    rw [UInt8.toNat_ofNat', UInt8.toNat_ofNat', Nat.mod_eq_of_lt (by omega),
      Nat.mod_eq_of_lt (by omega)] at hnat
    exact hc (Char.toNat_inj.mp hnat.symm)
  · have hle := le_of_mem_utf8EncodeChar hge hb
    rw [UInt8.toNat_ofNat', Nat.mod_eq_of_lt (by omega)] at hle
    omega

theorem utf8Decode?_eq_some {decoded : Array Char} :
    ByteArray.utf8Decode? ⟨bytes.toArray⟩ = some decoded ↔ bytes = asBytes decoded.toList := by
  have hbytes (s : List Char) : (⟨(asBytes s).toArray⟩ : ByteArray) = s.utf8Encode := by
    apply ByteArray.ext
    simp [List.utf8Encode, asBytes]
  constructor
  · intro h
    have hsome : (ByteArray.utf8Decode? ⟨bytes.toArray⟩).isSome = true := by rw [h]; rfl
    have hencode := ByteArray.utf8Encode_get_utf8Decode? (h := hsome)
    simp only [h, Option.get_some] at hencode
    rw [← hbytes] at hencode
    have hdata := congrArg ByteArray.data hencode
    simpa using hdata.symm
  · rintro rfl
    rw [hbytes, List.utf8Decode?_utf8Encode]

end Percent
end Lib
end SpannerAdbc
