import Mathlib.Algebra.Order.Ring.Nat
import Mathlib.Data.List.Basic
import Mathlib.Data.Nat.Basic

/-!
# SpannerAdbc.Lib.Digits

Decimal numbers in texts: writing them, with and without padding, and reading them back from bytes.
A writer works on characters and a reader on the UTF-8 bytes of the text; digits are one byte each,
so what is written is read (`readDigits_asBytes`), and only what is written is read as that number
(`eq_padded_of_readDigits`).
-/

namespace SpannerAdbc
namespace Lib

/-- A number in decimal, padded with zeros to at least `w` digits. -/
def padded (w n : Nat) : List Char :=
  List.replicate (w - (Nat.toDigits 10 n).length) '0' ++ Nat.toDigits 10 n

/-- An integer in decimal. -/
def intText (i : Int) : List Char :=
  if i < 0 then '-' :: Nat.toDigits 10 i.natAbs else Nat.toDigits 10 i.natAbs

/-- The UTF-8 bytes of a text. -/
def asBytes (s : List Char) : List UInt8 := s.flatMap String.utf8EncodeChar

/-- The value of an ASCII digit. -/
def digit? (b : UInt8) : Option Nat := if b - 48 < 10 then some (b - 48).toNat else none

/-- Read digits behind the number `acc`; anything else than a digit fails. -/
def readDigits (acc : Nat) : List UInt8 → Option Nat
  | [] => some acc
  | b :: bs => (digit? b).bind fun d => readDigits (acc * 10 + d) bs

/-! ## Writing -/

variable {bs : List UInt8} {acc n : Nat} {c : Char} {s : List Char}

theorem isDigit_of_mem_toDigits (h : c ∈ Nat.toDigits 10 n) :
    c.isDigit = true := Nat.isDigit_of_mem_toDigits (by decide) (by decide) h

theorem isDigit_of_mem_padded {w : Nat} (h : c ∈ padded w n) : c.isDigit = true := by
  rcases List.mem_append.mp h with h | h
  · rw [List.eq_of_mem_replicate h]
    decide
  · exact isDigit_of_mem_toDigits h

theorem length_padded {w : Nat} (hw : 0 < w) (h : n < 10 ^ w) : (padded w n).length = w := by
  have hle := (Nat.length_toDigits_le_iff (by decide) hw).mpr h
  rw [padded, List.length_append, List.length_replicate]
  omega

theorem ofDigitChars_padded (w n : Nat) : Nat.ofDigitChars 10 (padded w n) 0 = n := by
  rw [padded, Nat.ofDigitChars_append, Nat.ofDigitChars_replicate_zero, Nat.mul_zero,
    Nat.ofDigitChars_ten_toDigits]

/-! ## Bytes -/

@[simp] theorem asBytes_nil : asBytes [] = [] := rfl

@[simp] theorem asBytes_append (s t : List Char) : asBytes (s ++ t) = asBytes s ++ asBytes t :=
  List.flatMap_append

theorem asBytes_cons_of_ascii (h : c.toNat < 128) (s : List Char) :
    asBytes (c :: s) = UInt8.ofNat c.toNat :: asBytes s := by
  have hc : String.utf8EncodeChar c = [UInt8.ofNat c.toNat] := by
    exact if_pos (Nat.le_of_lt_succ h)
  rw [asBytes, List.flatMap_cons, hc]
  rfl

theorem toNat_lt_of_isDigit (h : c.isDigit = true) : 48 ≤ c.toNat ∧ c.toNat < 58 := by
  obtain ⟨h₁, h₂⟩ := Char.isDigit_iff_toNat.mp h
  exact ⟨h₁, Nat.lt_succ_of_le h₂⟩

theorem length_asBytes (h : ∀ c ∈ s, c.isDigit = true) :
    (asBytes s).length = s.length := by
  induction s with
  | nil => rfl
  | cons c s ih =>
    have hc := toNat_lt_of_isDigit (h c List.mem_cons_self)
    rw [asBytes_cons_of_ascii (by omega), List.length_cons, List.length_cons,
      ih fun d hd => h d (List.mem_cons_of_mem c hd)]

/-! ## Reading -/

theorem digit?_of_isDigit (h : c.isDigit = true) :
    digit? (UInt8.ofNat c.toNat) = some (c.toNat - 48) := by
  obtain ⟨h₁, h₂⟩ := toNat_lt_of_isDigit h
  have hsub : (UInt8.ofNat c.toNat - 48).toNat = c.toNat - 48 := by
    rw [UInt8.toNat_sub_of_le]
    · simp only [UInt8.toNat_ofNat']
      rw [Nat.mod_eq_of_lt (by omega)]
      rfl
    · rw [UInt8.le_iff_toNat_le]
      simp only [UInt8.toNat_ofNat']
      rw [Nat.mod_eq_of_lt (by omega)]
      exact h₁
  rw [digit?, if_pos, hsub]
  rw [UInt8.lt_iff_toNat_lt, hsub]
  exact (by omega : c.toNat - 48 < 10)

theorem digit?_lt {b : UInt8} {d : Nat} (h : digit? b = some d) : d < 10 := by
  simp only [digit?, Option.ite_none_right_eq_some, Option.some.injEq] at h
  exact h.2 ▸ UInt8.lt_iff_toNat_lt.mp h.1

theorem readDigits_asBytes (h : ∀ c ∈ s, c.isDigit = true) (acc : Nat) :
    readDigits acc (asBytes s) = some (Nat.ofDigitChars 10 s acc) := by
  induction s generalizing acc with
  | nil => rfl
  | cons c s ih =>
    have hc := h c List.mem_cons_self
    have hlt := toNat_lt_of_isDigit hc
    rw [asBytes_cons_of_ascii (by omega), readDigits, digit?_of_isDigit hc, Option.bind_some,
      ih fun d hd => h d (List.mem_cons_of_mem c hd), Nat.ofDigitChars_cons, Nat.mul_comm]
    rfl

theorem readDigits_padded (w n : Nat) : readDigits 0 (asBytes (padded w n)) = some n := by
  rw [readDigits_asBytes fun _ => isDigit_of_mem_padded, ofDigitChars_padded]

theorem readDigits_toDigits (n : Nat) : readDigits 0 (asBytes (Nat.toDigits 10 n)) = some n := by
  rw [readDigits_asBytes fun _ => isDigit_of_mem_toDigits, Nat.ofDigitChars_ten_toDigits]

/-! ## The text is determined by the number -/

theorem asBytes_injective {t : List Char} (h : asBytes s = asBytes t) : s = t := by
  refine String.ofList_injective (String.toByteArray_inj.mp ?_)
  rw [String.toByteArray_ofList, String.toByteArray_ofList]
  exact congrArg List.toByteArray h

theorem digit?_eq_some {b : UInt8} {d : Nat} : digit? b = some d ↔ b.toNat = d + 48 ∧ d < 10 := by
  have hb : b.toNat < 256 := b.toNat_lt
  have hsub : (b - 48).toNat = (b.toNat + 208) % 256 := by
    rw [UInt8.toNat_sub]
    exact congrArg (· % 256) (Nat.add_comm _ _)
  have hlt : b - 48 < 10 ↔ (b.toNat + 208) % 256 < 10 := by
    rw [UInt8.lt_iff_toNat_lt, hsub]
    rfl
  simp only [digit?, Option.ite_none_right_eq_some, Option.some.injEq, hlt, hsub]
  omega

/-- The digits read behind `acc` leave it its leading place. -/
theorem readDigits_bounds (h : readDigits acc bs = some n) :
    acc * 10 ^ bs.length ≤ n ∧ n < (acc + 1) * 10 ^ bs.length := by
  induction bs generalizing acc with
  | nil =>
    obtain rfl := Option.some.inj h
    simp
  | cons b bs ih =>
    obtain ⟨d, hd, h⟩ := Option.bind_eq_some_iff.mp h
    obtain ⟨hlo, hhi⟩ := ih h
    have hd10 := digit?_lt hd
    rw [List.length_cons, Nat.pow_succ, Nat.mul_comm (10 ^ bs.length), ← Nat.mul_assoc,
      ← Nat.mul_assoc]
    exact ⟨(Nat.mul_le_mul_right _ (by omega)).trans hlo,
      hhi.trans_le (Nat.mul_le_mul_right _ (by omega))⟩

/-- Digits of one length are ordered as the numbers they write. -/
theorem lt_iff_of_readDigits {n' : Nat} {bs' : List UInt8} (h : readDigits acc bs = some n)
    (h' : readDigits acc bs' = some n') (hlen : bs.length = bs'.length) : bs < bs' ↔ n < n' := by
  induction bs generalizing acc bs' with
  | nil =>
    obtain rfl := List.length_eq_zero_iff.mp hlen.symm
    obtain rfl := Option.some.inj h
    obtain rfl := Option.some.inj h'
    simp
  | cons b bs ih =>
    cases bs' with
    | nil => cases hlen
    | cons b' bs' =>
      obtain ⟨d, hd, h⟩ := Option.bind_eq_some_iff.mp h
      obtain ⟨d', hd', h'⟩ := Option.bind_eq_some_iff.mp h'
      have hbytes := (digit?_eq_some.mp hd).1
      have hbytes' := (digit?_eq_some.mp hd').1
      have htail : bs.length = bs'.length := Nat.succ.inj hlen
      have hn := readDigits_bounds h
      have hn' := readDigits_bounds h'
      rw [← htail] at hn'
      rw [List.cons_lt_cons_iff, UInt8.lt_iff_toNat_lt, ← UInt8.toNat_inj, hbytes, hbytes']
      -- The first digit decides unless it is the same.
      rcases Nat.lt_trichotomy d d' with hlt | rfl | hlt
      · have hle : (acc * 10 + d + 1) * 10 ^ bs.length ≤ (acc * 10 + d') * 10 ^ bs.length :=
          Nat.mul_le_mul_right _ (by omega)
        exact iff_of_true (.inl (by omega)) (by omega)
      · rw [ih h h' htail]
        omega
      · have hle : (acc * 10 + d' + 1) * 10 ^ bs.length ≤ (acc * 10 + d) * 10 ^ bs.length :=
          Nat.mul_le_mul_right _ (by omega)
        exact iff_of_false (by omega) (by omega)

/-- Lists with first parts of one length are ordered by those, then by the rest. -/
theorem append_lt_append_iff {x y p q : List UInt8} (h : x.length = y.length) :
    x ++ p < y ++ q ↔ x < y ∨ x = y ∧ p < q := by
  induction x generalizing y with
  | nil =>
    obtain rfl := List.length_eq_zero_iff.mp h.symm
    simp
  | cons a x ih =>
    cases y with
    | nil => cases h
    | cons b y =>
      rw [List.cons_append, List.cons_append, List.cons_lt_cons_iff, List.cons_lt_cons_iff,
        ih (Nat.succ.inj h), List.cons.injEq]
      grind

theorem readDigits_inj {bs' : List UInt8} (h : readDigits acc bs = some n)
    (h' : readDigits acc bs' = some n) (hlen : bs.length = bs'.length) : bs = bs' := by
  have hlt := (lt_iff_of_readDigits h h' hlen).not.mpr (Nat.lt_irrefl n)
  have hgt := (lt_iff_of_readDigits h' h hlen.symm).not.mpr (Nat.lt_irrefl n)
  exact List.le_antisymm hgt hlt

theorem eq_padded_of_readDigits (h : readDigits 0 bs = some n) (hne : bs ≠ []) :
    bs = asBytes (padded bs.length n) := by
  have hpos := List.length_pos_iff.mpr hne
  have hn := (readDigits_bounds h).2
  rw [Nat.zero_add, Nat.one_mul] at hn
  refine readDigits_inj h (readDigits_padded _ n) ?_
  rw [length_asBytes fun _ => isDigit_of_mem_padded, length_padded hpos hn]

/-- Bytes that are read as a number are those of digits. -/
theorem exists_digits_of_readDigits (h : readDigits acc bs = some n) :
    ∃ ds : List Char, (∀ c ∈ ds, c.isDigit = true) ∧
      asBytes ds = bs ∧ ds.length = bs.length ∧ Nat.ofDigitChars 10 ds acc = n := by
  induction bs generalizing acc with
  | nil => exact ⟨[], by simp, rfl, rfl, Option.some.inj h⟩
  | cons b bs ih =>
    obtain ⟨d, hd, h⟩ := Option.bind_eq_some_iff.mp h
    obtain ⟨ds, hdigits, rfl, hlen, hvalue⟩ := ih h
    obtain ⟨hb, hd10⟩ := digit?_eq_some.mp hd
    have hchar : (Nat.digitChar d).toNat = d + 48 := by
      rw [Nat.toNat_digitChar_of_lt_ten hd10]
      omega
    refine ⟨Nat.digitChar d :: ds, ?_, ?_, congrArg Nat.succ hlen, ?_⟩
    · intro c hc
      rcases List.mem_cons.mp hc with rfl | hc
      · rw [Char.isDigit_iff_toNat, hchar]
        exact ⟨Nat.le_add_left 48 d, (by omega : d + 48 ≤ 57)⟩
      · exact hdigits c hc
    · rw [asBytes_cons_of_ascii (by omega), hchar, ← hb, UInt8.ofNat_toNat]
    · rw [Nat.ofDigitChars_cons, hchar, ← hvalue, Nat.mul_comm]
      rfl

end Lib
end SpannerAdbc
