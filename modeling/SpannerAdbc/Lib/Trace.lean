import Mathlib.Computability.Language
import Mathlib.Order.CompletePartialOrder
import SpannerAdbc.Lib.Prog

/-!
# SpannerAdbc.Lib.Trace

The events that a program can log, as a language.

An `Observer` looks at a state in three ways: the events logged so far, a relation that every step
keeps, and a key that no step changes. `Emits k L x` says that from a state with the key `k` the
program keeps the relation and logs a word of `L`, whether it fails or not. Programs compose as
languages do: a sequence is a product (`Emits.bind`), and what runs any number of times is a star.

`Grows` is the relation for logs and buffers that only get longer.
-/

namespace SpannerAdbc
namespace Lib

/-! ## Lists that only grow -/

/-- The second list continues the first with elements that satisfy `P`. -/
def Grows {α : Type} (P : α → Prop) (l l' : List α) : Prop := ∃ new, l' = l ++ new ∧ ∀ a ∈ new, P a

namespace Grows

variable {α : Type} {P : α → Prop} {l l' l'' : List α}

theorem refl (l : List α) : Grows P l l := ⟨[], by simp, by simp⟩

theorem of_eq (h : l' = l) : Grows P l l' := h ▸ refl l'

theorem trans (h : Grows P l l') (h' : Grows P l' l'') : Grows P l l'' := by
  obtain ⟨new, rfl, hnew⟩ := h
  obtain ⟨new', rfl, hnew'⟩ := h'
  exact ⟨new ++ new', by rw [List.append_assoc], List.forall_mem_append.mpr ⟨hnew, hnew'⟩⟩

theorem append (h : ∀ a ∈ l', P a) : Grows P l (l ++ l') := ⟨l', rfl, h⟩

theorem mono {Q : α → Prop} (hPQ : ∀ a, P a → Q a) (h : Grows P l l') : Grows Q l l' := by
  obtain ⟨new, hl, hnew⟩ := h
  exact ⟨new, hl, fun a ha => hPQ a (hnew a ha)⟩

/-- What is behind the old elements is new. -/
theorem of_mem_drop (h : Grows P l l') : ∀ a ∈ l'.drop l.length, P a := by
  obtain ⟨new, rfl, hnew⟩ := h
  rwa [List.drop_left]

theorem append_drop (h : Grows P l l') : l' = l ++ l'.drop l.length := by
  obtain ⟨new, rfl, -⟩ := h
  rw [List.drop_left]

end Grows

/-! ## Languages -/

namespace Trace

variable {E : Type}

/-- The word of one event. -/
def one (e : E) : Language E := {[e]}

/-- The event, or nothing. -/
def may (e : E) : Language E := 1 + one e

/-- The word, up to where it stops. -/
def upTo (w : List E) : Language E := {v | v <+: w}

theorem nil_mem_may (e : E) : [] ∈ may e := .inl rfl

theorem nil_mem_upTo (w : List E) : [] ∈ upTo w := List.nil_prefix

theorem nil_mem_mul {L M : Language E} (hL : [] ∈ L) (hM : [] ∈ M) : [] ∈ L * M :=
  ⟨[], hL, [], hM, rfl⟩

theorem one_mul_upTo_le (e : E) (w : List E) : one e * upTo w ≤ upTo (e :: w) := by
  rintro _ ⟨u, hu, v, hv, rfl⟩
  obtain rfl : u = [e] := hu
  exact (List.prefix_append_right_inj [e]).mpr hv

theorem le_mul_right {L M : Language E} (hM : [] ∈ M) : L ≤ L * M :=
  fun w hw => ⟨w, hw, [], hM, by simp⟩

end Trace

/-! ## Observed programs -/

structure Observer (σ E κ : Type) where
  log : σ → List E
  rel : σ → σ → Prop
  key : σ → κ
  refl : ∀ s, rel s s
  trans : ∀ {s s' s''}, rel s s' → rel s' s'' → rel s s''
  key_eq : ∀ {s s'}, rel s s' → key s' = key s

namespace Observer

variable {ε σ E κ α β : Type} (O : Observer σ E κ)

/-- From a state with the key, a word of the language is logged and the relation kept. -/
def Emits (k : κ) (L : Language E) (x : Prog ε σ α) : Prop :=
  ∀ s, O.key s = k → O.rel s (x.exec s).2 ∧ ∃ w ∈ L, O.log (x.exec s).2 = O.log s ++ w

/-- From a state with the key, only values with `Q` are returned. -/
def Returns (k : κ) (Q : α → Prop) (x : Prog ε σ α) : Prop :=
  ∀ s a, O.key s = k → (x.exec s).1 = .ok a → Q a

namespace Emits

open Trace

variable {O} {k : κ} {L M : Language E} {x : Prog ε σ α} {f : α → Prog ε σ β}

theorem mono (hx : O.Emits k L x) (h : L ≤ M) : O.Emits k M x := by
  intro s hs
  obtain ⟨hrel, w, hw, hlog⟩ := hx s hs
  exact ⟨hrel, w, h hw, hlog⟩

theorem silent (hx : ∀ s, O.key s = k → (x.exec s).2 = s) : O.Emits k 1 x := by
  intro s hs
  rw [hx s hs]
  exact ⟨O.refl s, [], rfl, by simp⟩

/-- What logs nothing is in every language with the empty word. -/
theorem of_nil (hx : O.Emits k 1 x) (h : [] ∈ L) : O.Emits k L x := by
  refine hx.mono fun w hw => ?_
  obtain rfl : w = [] := hw
  exact h

theorem pure (a : α) : O.Emits k 1 (Pure.pure a : Prog ε σ α) := silent fun _ _ => rfl

theorem pure_of {a : α} (h : [] ∈ L) : O.Emits k L (Pure.pure a : Prog ε σ α) := (pure a).of_nil h

theorem throw (e : ε) : O.Emits k 1 (MonadExcept.throw e : Prog ε σ α) := silent fun _ _ => rfl

theorem ofExcept (r : Except ε α) : O.Emits k 1 (MonadExcept.ofExcept r : Prog ε σ α) :=
  silent fun s _ => by rw [Prog.exec_ofExcept]

theorem attempt (hx : O.Emits k L x) : O.Emits k L x.attempt := hx

/-- A sequence whose first part returns only values with `Q`. It may stop behind the first part. -/
theorem bind_of {Q : α → Prop} (hx : O.Emits k L x)
    (hQ : O.Returns k Q x) (hM : [] ∈ M)
    (hf : ∀ a, Q a → O.Emits k M (f a)) : O.Emits k (L * M) (x >>= f) := by
  intro s hs
  obtain ⟨hrel, w, hw, hlog⟩ := hx s hs
  have hvalue := hQ s
  rw [Prog.exec_bind]
  generalize x.exec s = r at hrel hlog hvalue ⊢
  obtain ⟨e | a, s'⟩ := r
  · exact ⟨hrel, w, le_mul_right hM hw, hlog⟩
  · obtain ⟨hrel', w', hw', hlog'⟩ := hf a (hvalue a hs rfl) s' ((O.key_eq hrel).trans hs)
    refine ⟨O.trans hrel hrel', w ++ w', Language.append_mem_mul hw hw', ?_⟩
    rw [hlog', hlog, List.append_assoc]

theorem bind (hx : O.Emits k L x) (hM : [] ∈ M)
    (hf : ∀ a, O.Emits k M (f a)) : O.Emits k (L * M) (x >>= f) :=
  bind_of (Q := fun _ => True) hx (fun _ _ _ _ => trivial) hM fun a _ => hf a

/-- The first part logs nothing. -/
theorem silent_bind (hx : O.Emits k 1 x) (hM : [] ∈ M)
    (hf : ∀ a, O.Emits k M (f a)) : O.Emits k M (x >>= f) := by
  have h := hx.bind hM hf
  rwa [one_mul] at h

/-- The second part logs nothing. -/
theorem bind_silent (hx : O.Emits k L x) (hf : ∀ a, O.Emits k 1 (f a)) :
    O.Emits k L (x >>= f) := by
  have h := hx.bind (Language.nil_mem_one) hf
  rwa [mul_one] at h

/-- The next event of a word. -/
theorem upTo_bind {e : E} {w : List E} (hx : O.Emits k (one e) x)
    (hf : ∀ a, O.Emits k (upTo w) (f a)) : O.Emits k (upTo (e :: w)) (x >>= f) :=
  (hx.bind (nil_mem_upTo w) hf).mono (one_mul_upTo_le e w)

theorem ofExcept_bind {r : Except ε α} (hL : [] ∈ L)
    (hf : ∀ a, r = .ok a → O.Emits k L (f a)) : O.Emits k L (MonadExcept.ofExcept r >>= f) := by
  cases r with
  | error e => exact (throw e).of_nil hL
  | ok a => exact hf a rfl

/-- The first part is known: it only looks at the state. -/
theorem known_bind {a : α} (hx : ∀ s, O.key s = k → x.exec s = (.ok a, s))
    (hf : O.Emits k L (f a)) : O.Emits k L (x >>= f) := by
  intro s hs
  rw [Prog.exec_bind_ok (hx s hs)]
  exact hf s hs

/-- What runs any number of times. -/
theorem star_bind (hx : O.Emits k (KStar.kstar L) x) (hf : ∀ a, O.Emits k (KStar.kstar L) (f a)) :
    O.Emits k (KStar.kstar L) (x >>= f) := by
  have h := hx.bind (Language.nil_mem_kstar L) hf
  rwa [kstar_mul_kstar] at h

/-- An attempt logs a word of `L` if it succeeds, of `L'` if it fails, and what follows depends on
which it was. -/
theorem attempt_bind {L' M' : Language E} {g : Except ε α → Prog ε σ β}
    (hx : ∀ s, O.key s = k → O.rel s (x.exec s).2 ∧
      ∃ w ∈ (bif (x.exec s).1.isOk then L else L'), O.log (x.exec s).2 = O.log s ++ w)
    (hok : ∀ a, O.Emits k M (g (.ok a))) (herror : ∀ e, O.Emits k M' (g (.error e))) :
    O.Emits k (L * M + L' * M') (x.attempt >>= g) := by
  intro s hs
  obtain ⟨hrel, w, hw, hlog⟩ := hx s hs
  rw [Prog.exec_bind_ok (Prog.exec_attempt x s)]
  have hkey := (O.key_eq hrel).trans hs
  cases hr : (x.exec s).1 with
  | ok a =>
    rw [hr] at hw
    obtain ⟨hrel', w', hw', hlog'⟩ := hok a _ hkey
    refine ⟨O.trans hrel hrel', w ++ w', .inl (Language.append_mem_mul hw hw'), ?_⟩
    rw [hlog', hlog, List.append_assoc]
  | error e =>
    rw [hr] at hw
    obtain ⟨hrel', w', hw', hlog'⟩ := herror e _ hkey
    refine ⟨O.trans hrel hrel', w ++ w', .inr (Language.append_mem_mul hw hw'), ?_⟩
    rw [hlog', hlog, List.append_assoc]

end Emits

end Observer
end Lib
end SpannerAdbc
