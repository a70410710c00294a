import Mathlib.Data.List.Basic

/-!
# SpannerAdbc.Lib.Scanner

Scanners over an arbitrary alphabet. A `Scanner` cuts one token off the front of its input; the
token carries the text it was cut from, so a scan loses nothing.

* `tokens`: the whole scan, by recursion on the length of the input.
* `Scans as ts rest`: scanning `as` yields `ts` and stops at `rest`. It is to `tokens` what a
  step relation is to an interpreter: facts about a part of a scan are stated with `Scans` and
  composed with `Scans.trans`.
-/

namespace SpannerAdbc
namespace Lib

/-- One step of a scan, with the laws that make it a partition of the input: it fails only at
the end, and what it cuts off is the text of its token, never empty. -/
structure Scanner (α τ : Type) where
  next : List α → Option (τ × List α)
  text : τ → List α
  next_nil : next [] = none
  next_cons : ∀ a as, ∃ t rest, next (a :: as) = some (t, rest)
  next_text : ∀ {as t rest}, next as = some (t, rest) → as = text t ++ rest
  text_ne_nil : ∀ {as t rest}, next as = some (t, rest) → text t ≠ []

namespace Scanner

variable {α τ : Type} (S : Scanner α τ)

def tokensFuel : Nat → List α → List τ
  | 0, _ => []
  | n + 1, as =>
    match S.next as with
    | none => []
    | some (t, rest) => t :: tokensFuel n rest

/-- All tokens of the input. Every token is at least one character long, so the length of the
input is enough fuel (`tokens_of_next`). -/
def tokens (as : List α) : List τ := S.tokensFuel as.length as

/-- The text a token list was cut from. -/
def flat (ts : List τ) : List α := ts.flatMap S.text

@[simp] theorem flat_nil : S.flat [] = [] := rfl

@[simp] theorem flat_cons (t : τ) (ts : List τ) : S.flat (t :: ts) = S.text t ++ S.flat ts := rfl

@[simp] theorem flat_append (ts us : List τ) : S.flat (ts ++ us) = S.flat ts ++ S.flat us := by
  simp [flat]

variable {S} {as : List α}

theorem length_next {rest : List α} {t : τ} (h : S.next as = some (t, rest)) :
    rest.length < as.length := by
  have ht := List.length_pos_of_ne_nil (S.text_ne_nil h)
  have e := congrArg List.length (S.next_text h)
  rw [List.length_append] at e
  omega

/-- More fuel than characters does not change the scan. -/
theorem tokensFuel_eq :
    ∀ {n m : Nat}, as.length ≤ n → as.length ≤ m → S.tokensFuel n as = S.tokensFuel m as := by
  intro n
  induction n generalizing as with
  | zero =>
    intro m hn _
    have : as = [] := List.length_eq_zero_iff.mp (by omega)
    subst this
    cases m <;> simp [tokensFuel, S.next_nil]
  | succ n ih =>
    intro m hn hm
    cases h : S.next as with
    | none => cases m <;> simp [tokensFuel, h]
    | some p =>
      obtain ⟨t, rest⟩ := p
      have hl := length_next h
      cases m with
      | zero => omega
      | succ m => simp only [tokensFuel, h, ih (by omega : rest.length ≤ n) (by omega : rest.length ≤ m)]

@[simp] theorem tokens_nil : S.tokens [] = [] := rfl

theorem tokens_of_next {rest : List α} {t : τ} (h : S.next as = some (t, rest)) :
    S.tokens as = t :: S.tokens rest := by
  have hl := length_next h
  obtain ⟨n, hn⟩ : ∃ n, as.length = n + 1 := ⟨as.length - 1, by omega⟩
  simp only [tokens, hn, tokensFuel, h]
  rw [tokensFuel_eq (by omega : rest.length ≤ n) (Nat.le_refl _)]

/-- Scanning `as` cuts off the tokens `ts` and leaves `rest`. -/
inductive Scans (S : Scanner α τ) : List α → List τ → List α → Prop where
  | nil {as : List α} : Scans S as [] as
  | cons {as as' rest : List α} {t : τ} {ts : List τ} :
      S.next as = some (t, as') → Scans S as' ts rest → Scans S as (t :: ts) rest

namespace Scans

variable {rest as : List α} {ts us : List τ}

theorem trans {bs : List α} (h₁ : Scans S as ts bs) (h₂ : Scans S bs us rest) :
    Scans S as (ts ++ us) rest := by
  induction h₁ with
  | nil => exact h₂
  | cons h _ ih => exact .cons h (ih h₂)

theorem flat_eq (h : Scans S as ts rest) :
    as = S.flat ts ++ rest := by
  induction h with
  | nil => rfl
  | cons hn _ ih => rw [S.next_text hn, flat_cons, ih, List.append_assoc]

theorem tokens_eq (h : Scans S as ts rest) :
    S.tokens as = ts ++ S.tokens rest := by
  induction h with
  | nil => rfl
  | cons hn _ ih => rw [tokens_of_next hn, ih, List.cons_append]

/-- Two scans of one text agree: the longer one goes through the end of the shorter one. -/
theorem drop {mid : List α} (hu : Scans S as us mid) :
    Scans S as ts rest → rest.length ≤ mid.length → ∃ vs, ts = us ++ vs ∧ Scans S mid vs rest := by
  induction hu generalizing ts with
  | nil =>
    intro h _
    exact ⟨ts, rfl, h⟩
  | @cons as as' mid u us hn hs ih =>
    intro h hlen
    have hlt := length_next hn
    have hmid := congrArg List.length hs.flat_eq
    rw [List.length_append] at hmid
    cases h with
    | nil => omega
    | cons hn' h' =>
      rw [hn] at hn'
      cases hn'
      obtain ⟨vs, rfl, hv⟩ := ih h' hlen
      exact ⟨vs, rfl, hv⟩

/-- A scan can be stopped after any of its tokens. -/
theorem split :
    Scans S as (ts ++ us) rest → ∃ mid, Scans S as ts mid ∧ Scans S mid us rest := by
  induction ts generalizing as with
  | nil => intro h; exact ⟨as, .nil, h⟩
  | cons t ts ih =>
    intro h
    cases h with
    | cons hn h' =>
      obtain ⟨mid, h₁, h₂⟩ := ih h'
      exact ⟨mid, .cons hn h₁, h₂⟩

end Scans

/-- The scan always reaches the end of the input. -/
theorem scans_tokens (as : List α) : Scans S as (S.tokens as) [] := by
  induction hn : as.length using Nat.strongRecOn generalizing as with
  | ind n ih =>
    cases as with
    | nil => exact .nil
    | cons a as =>
      obtain ⟨t, rest, h⟩ := S.next_cons a as
      rw [tokens_of_next h]
      have hl := length_next h
      exact .cons h (ih rest.length (by omega) rest rfl)

theorem flat_tokens (as : List α) : S.flat (S.tokens as) = as := by
  simpa using (scans_tokens as).flat_eq.symm

/-- A scan that reaches the end is the whole scan. -/
theorem tokens_eq_of_scans {ts : List τ} (h : Scans S as ts []) :
    S.tokens as = ts := by
  simpa using h.tokens_eq

/-- Any division of the tokens of `as` is a place where the scan can be stopped and resumed. -/
theorem scans_of_tokens {ts us : List τ} (h : S.tokens as = ts ++ us) :
    ∃ rest, Scans S as ts rest ∧ S.tokens rest = us := by
  have hs := scans_tokens (S := S) as
  rw [h] at hs
  obtain ⟨mid, h₁, h₂⟩ := hs.split
  exact ⟨mid, h₁, tokens_eq_of_scans h₂⟩

end Scanner
end Lib
end SpannerAdbc
