import Mathlib.Data.List.GetD

/-!
# SpannerAdbc.Lib.Panic

Functions that return an optional value and may panic on the way: by an index or a slice out of
bounds, or by arithmetic that overflows. `failure` is an early return without a value. `CheckedResult`
is the same for functions with a result.

A function that does not panic is `returns` of an `Option`, and it is shown to be so step by step
(`bind_returns`): each step by the bound that its index or its number is known to keep.
-/

namespace SpannerAdbc
namespace Lib

inductive Panic where
  | outOfBounds
  | overflow
  deriving DecidableEq, Repr

abbrev Checked (α : Type) := OptionT (Except Panic) α

namespace Checked

variable {α β : Type}

/-- The outcome without a panic. -/
def returns (o : Option α) : Checked α := OptionT.mk (.ok o)

/-- `as[i]`. -/
def index (as : List α) (i : Nat) : Checked α :=
  if h : i < as.length then returns (some as[i]) else OptionT.mk (.error .outOfBounds)

/-- `as[start..stop]`. -/
def slice (as : List α) (start stop : Nat) : Checked (List α) :=
  if start ≤ stop ∧ stop ≤ as.length then returns (some ((as.take stop).drop start))
  else OptionT.mk (.error .outOfBounds)

/-- A sum or product that has to stay below `bound`. The operands are not negative, so that no part of
it is larger. -/
def below (bound n : Nat) : Checked Nat :=
  if n < bound then returns (some n) else OptionT.mk (.error .overflow)

/-- A difference of unsigned numbers. -/
def minus (a b : Nat) : Checked Nat :=
  if b ≤ a then returns (some (a - b)) else OptionT.mk (.error .overflow)

theorem pure_eq (a : α) : (pure a : Checked α) = returns (some a) := rfl

theorem bind_returns {x : Checked α} {o : Option α} {f : α → Checked β} {g : α → Option β}
    (hx : x = returns o) (hf : ∀ a, o = some a → f a = returns (g a)) :
    x >>= f = returns (o >>= g) := by
  subst hx
  cases o with
  | none => rfl
  | some a => exact hf a rfl

theorem some_bind (a : α) (f : α → Checked β) : returns (some a) >>= f = f a := rfl

/-- Guards one after the other. -/
theorem returns_ite_or {p q : Prop} [Decidable p] [Decidable q] (o : Option α) :
    returns (if p ∨ q then none else o) = if p then failure else returns (if q then none else o) := by
  by_cases hp : p
  · rw [if_pos (.inl hp), if_pos hp]
    rfl
  · rw [if_neg hp]
    exact congrArg returns (if_congr (or_iff_right hp) rfl rfl)

theorem returns_ite {p : Prop} [Decidable p] (o : Option α) :
    returns (if p then none else o) = if p then failure else returns o := apply_ite returns p none o

theorem index_eq {as : List α} {i : Nat} (h : i < as.length) (d : α) :
    index as i = returns (some (as.getD i d)) := by
  rw [index, dif_pos h, List.getD_eq_getElem _ d h]

theorem slice_eq {as : List α} {start stop : Nat} (h : start ≤ stop) (h' : stop ≤ as.length) :
    slice as start stop = returns (some ((as.take stop).drop start)) := if_pos ⟨h, h'⟩

theorem below_eq {bound n : Nat} (h : n < bound) : below bound n = returns (some n) := if_pos h

theorem minus_eq {a b : Nat} (h : b ≤ a) : minus a b = returns (some (a - b)) := if_pos h

end Checked

/-! ## Results -/

/-- Functions that return a result and may panic on the way. -/
abbrev CheckedResult (ε α : Type) := ExceptT ε (Except Panic) α

namespace CheckedResult

variable {ε α β : Type}

/-- The result without a panic. -/
def returns (r : Except ε α) : CheckedResult ε α := ExceptT.mk (.ok r)

/-- `Option::ok_or_else`. -/
def okOr (e : ε) (x : Checked α) : CheckedResult ε α := ExceptT.mk do
  match ← x.run with
  | some a => return .ok a
  | none => return .error e

theorem bind_returns {x : CheckedResult ε α} {r : Except ε α} {f : α → CheckedResult ε β}
    {g : α → Except ε β} (hx : x = returns r) (hf : ∀ a, r = .ok a → f a = returns (g a)) :
    x >>= f = returns (r >>= g) := by
  subst hx
  cases r with
  | error e => rfl
  | ok a => exact hf a rfl

theorem ok_bind (a : α) (f : α → CheckedResult ε β) : returns (.ok a) >>= f = f a := rfl

theorem okOr_returns (e : ε) (o : Option α) :
    okOr e (.returns o) = returns (o.elim (.error e) .ok) := by
  cases o <;> rfl

end CheckedResult
end Lib
end SpannerAdbc
