import Mathlib.Order.Defs.Unbundled

/-!
# SpannerAdbc.Lib.Prog

Programs that change a state and may fail. A failure keeps the state it happens in: what a program
has done before it fails stays done.

`exec` runs a program, with one equation for each way to build one. `Keeps` is the rule for
properties of every step: a relation that each part of a program respects, whether it fails or not,
holds between the states before and behind the whole.
-/

namespace SpannerAdbc
namespace Lib

abbrev Prog (ε σ : Type) := ExceptT ε (StateM σ)

namespace Prog

variable {ε σ τ α β : Type}

/-- The outcome and the state behind it. -/
def exec (x : Prog ε σ α) (s : σ) : Except ε α × σ := x.run.run s

/-- The outcome as a value: the program itself does not fail. -/
def attempt (x : Prog ε σ α) : Prog ε σ (Except ε α) :=
  ExceptT.mk do return .ok (← x.run)

/-- The program on the second part of the state. -/
def inSnd (x : Prog ε σ α) : Prog ε (τ × σ) α :=
  ExceptT.mk fun s => ((x.exec s.2).1, (s.1, (x.exec s.2).2))

section Exec

variable (x : Prog ε σ α) (f : α → Prog ε σ β) (s : σ)

@[simp] theorem exec_pure (a : α) : (pure a : Prog ε σ α).exec s = (.ok a, s) := rfl

@[simp] theorem exec_throw (e : ε) : (throw e : Prog ε σ α).exec s = (.error e, s) := rfl

@[simp] theorem exec_get : (get : Prog ε σ σ).exec s = (.ok s, s) := rfl

@[simp] theorem exec_set (s' : σ) : (set s' : Prog ε σ PUnit).exec s = (.ok ⟨⟩, s') := rfl

@[simp] theorem exec_ofExcept (r : Except ε α) :
    (MonadExcept.ofExcept r : Prog ε σ α).exec s = (r, s) := by
  cases r <;> rfl

@[simp] theorem exec_attempt : x.attempt.exec s = (.ok (x.exec s).1, (x.exec s).2) := rfl

@[simp] theorem exec_inSnd (t : τ) :
    (x.inSnd : Prog ε (τ × σ) α).exec (t, s) = ((x.exec s).1, (t, (x.exec s).2)) := rfl

theorem exec_bind : (x >>= f).exec s =
    match x.exec s with
    | (.ok a, s') => (f a).exec s'
    | (.error e, s') => (.error e, s') := by
  have h : (x >>= f).exec s = (ExceptT.bindCont f (x.exec s).1).run (x.exec s).2 := rfl
  rw [h]
  rcases x.exec s with ⟨r, s'⟩
  cases r <;> rfl

/-- A program whose outcome is mapped. -/
theorem exec_bind_pure (g : α → β) :
    (x >>= fun a => pure (g a)).exec s = ((x.exec s).1.map g, (x.exec s).2) := by
  rw [exec_bind]
  rcases x.exec s with ⟨r, s'⟩
  cases r <;> rfl

end Exec

section Bind

variable {x : Prog ε σ α} {s s' : σ}

theorem exec_bind_ok {a : α} (h : x.exec s = (.ok a, s')) (f : α → Prog ε σ β) :
    (x >>= f).exec s = (f a).exec s' := by
  rw [exec_bind, h]

theorem exec_bind_error {e : ε} (h : x.exec s = (.error e, s')) (f : α → Prog ε σ β) :
    (x >>= f).exec s = (.error e, s') := by
  rw [exec_bind, h]

end Bind

/-! ## What every part of a program keeps -/

/-- Whether it fails or not, the program leads to a state that `R` relates to the one before. -/
def Keeps (R : σ → σ → Prop) (x : Prog ε σ α) : Prop := ∀ s, R s (x.exec s).2

namespace Keeps

variable {R : σ → σ → Prop} [IsPreorder σ R] {x : Prog ε σ α}

theorem of_unchanged (h : ∀ s, (x.exec s).2 = s) : Keeps R x := by
  intro s
  rw [h s]
  exact Std.Refl.refl s

theorem pure (a : α) : Keeps R (Pure.pure a : Prog ε σ α) := of_unchanged fun _ => rfl

theorem throw (e : ε) : Keeps R (MonadExcept.throw e : Prog ε σ α) := of_unchanged fun _ => rfl

theorem ofExcept (r : Except ε α) : Keeps R (MonadExcept.ofExcept r : Prog ε σ α) :=
  of_unchanged fun s => by rw [exec_ofExcept]

theorem bind (hx : Keeps R x) {f : α → Prog ε σ β} (hf : ∀ a, Keeps R (f a)) :
    Keeps R (x >>= f) := by
  intro s
  have h := hx s
  rw [exec_bind]
  generalize x.exec s = r at h ⊢
  obtain ⟨a | a, s'⟩ := r
  · exact h
  · exact IsTrans.trans _ _ _ h (hf a s')

omit [IsPreorder σ R] in
theorem mono {R' : σ → σ → Prop} (hx : Keeps R x) (h : ∀ s s', R s s' → R' s s') : Keeps R' x :=
  fun s => h s _ (hx s)

omit [IsPreorder σ R] in
theorem attempt (hx : Keeps R x) : Keeps R x.attempt := hx

end Keeps

end Prog
end Lib
end SpannerAdbc
