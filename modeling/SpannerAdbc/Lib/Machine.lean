import Mathlib.Algebra.BigOperators.Group.List.Basic

/-!
# SpannerAdbc.Lib.Machine

State machines that emit events. A step takes a state and an action to a new state and the events
it emits, or is refused; all nondeterminism (the scheduler, the outcome of a request) is in the
choice of the actions.

* `run`: a whole run, with the events of all its steps in order, and `run_append`.
* `run_induction`: what holds of the events so far and the state, and is kept by every step, holds
  after every run. `guarded_induction` is the same for runs whose steps all meet a condition.
* `guard`: the machine with fewer steps.
* `exists_run_to`: a measure that some step lowers gives a run to the goal.
* `run_conserves`: a quantity that every step keeps in balance is in balance over every run.
* `Everywhere`: a condition on every event of a trace and the events before it.
-/

namespace SpannerAdbc
namespace Lib

/-- `step s a` is `none` where action `a` cannot happen in state `s`. -/
structure Machine (σ α ε : Type) where
  step : σ → α → Option (σ × List ε)

namespace Machine

variable {σ α ε : Type} (M : Machine σ α ε)

def run : σ → List α → Option (σ × List ε)
  | s, [] => some (s, [])
  | s, a :: as =>
    match M.step s a with
    | none => none
    | some (s', es) =>
      match run s' as with
      | none => none
      | some (s'', es') => some (s'', es ++ es')

/-- The machine that takes only the steps that `g` allows. -/
def guard (g : σ → α → Bool) : Machine σ α ε where
  step s a := if g s a then M.step s a else none

/-- Every step of the run meets the condition, in the state it starts from. -/
def Meets (G : σ → α → Prop) : σ → List α → Prop
  | _, [] => True
  | s, a :: as => G s a ∧ ∀ s' es, M.step s a = some (s', es) → Meets G s' as

instance Meets.decidable {G : σ → α → Prop} [∀ s a, Decidable (G s a)] :
    (s : σ) → (as : List α) → Decidable (M.Meets G s as)
  | _, [] => isTrue trivial
  | s, a :: as =>
    match h : M.step s a with
    | none => decidable_of_iff (G s a) (by simp [Meets, h])
    | some (s', _) =>
      have := Meets.decidable (G := G) s' as
      decidable_of_iff (G s a ∧ M.Meets G s' as) (by simp [Meets, h])

variable {M} {as : List α} {tr : List ε} {s s' : σ} {I : σ → Prop} {G : σ → α → Prop}

theorem guard_step {g : σ → α → Bool} {a : α} {r : σ × List ε} (h : (M.guard g).step s a = some r) :
    g s a = true ∧ M.step s a = some r := by
  simpa [guard] using h

theorem run_cons {a : α} :
    M.run s (a :: as) = some (s', tr) ↔ ∃ s₁ es tr', M.step s a = some (s₁, es) ∧
      M.run s₁ as = some (s', tr') ∧ tr = es ++ tr' := by
  constructor
  · intro h
    simp only [run] at h
    split at h
    · cases h
    · rename_i s₁ es hs
      split at h
      · cases h
      · rename_i s₂ tr' hr
        cases h
        exact ⟨s₁, es, tr', hs, hr, rfl⟩
  · rintro ⟨s₁, es, tr', hs, hr, rfl⟩
    simp only [run, hs, hr]

theorem run_append {bs : List α} :
    M.run s (as ++ bs) = some (s', tr) ↔ ∃ s₁ tr₁ tr₂, M.run s as = some (s₁, tr₁) ∧
      M.run s₁ bs = some (s', tr₂) ∧ tr = tr₁ ++ tr₂ := by
  induction as generalizing s tr with
  | nil =>
    constructor
    · intro h
      exact ⟨s, [], tr, rfl, h, rfl⟩
    · rintro ⟨s₁, tr₁, tr₂, h₁, h₂, rfl⟩
      cases h₁
      exact h₂
  | cons a as ih =>
    rw [List.cons_append, run_cons]
    constructor
    · rintro ⟨s₁, es, tr', hs, hr, rfl⟩
      obtain ⟨s₂, tr₁, tr₂, h₁, h₂, rfl⟩ := ih.mp hr
      refine ⟨s₂, es ++ tr₁, tr₂, run_cons.mpr ⟨s₁, es, tr₁, hs, h₁, rfl⟩, h₂, ?_⟩
      rw [List.append_assoc]
    · rintro ⟨s₂, tr₁, tr₂, h₁, h₂, rfl⟩
      obtain ⟨s₁, es, tr', hs, hr, rfl⟩ := run_cons.mp h₁
      refine ⟨s₁, es, tr' ++ tr₂, hs, ih.mpr ⟨s₂, tr', tr₂, hr, h₂, rfl⟩, ?_⟩
      rw [List.append_assoc]

/-- Induction over a run whose steps all meet `G`: `I` is about the events so far and the state. -/
theorem guarded_induction {I : List ε → σ → Prop}
    (hstep : ∀ {tr s a s' es}, I tr s → G s a → M.step s a = some (s', es) → I (tr ++ es) s')
    {tr₀ : List ε} (h₀ : I tr₀ s) (hG : M.Meets G s as) (hr : M.run s as = some (s', tr)) :
    I (tr₀ ++ tr) s' := by
  induction as generalizing s tr₀ tr with
  | nil =>
    cases hr
    rwa [List.append_nil]
  | cons a as ih =>
    obtain ⟨s₁, es, tr', hs, hr', rfl⟩ := run_cons.mp hr
    rw [← List.append_assoc]
    exact ih (hstep h₀ hG.1 hs) (hG.2 s₁ es hs) hr'

theorem meets_true (s : σ) (as : List α) : M.Meets (fun _ _ => True) s as := by
  induction as generalizing s with
  | nil => trivial
  | cons a as ih => exact ⟨trivial, fun s' _ _ => ih s'⟩

/-- Actions that keep an invariant meet what follows from it. -/
theorem meets_of_invariant {P : α → Prop} (hG : ∀ {s a}, I s → P a → G s a)
    (hstep : ∀ {s a s' es}, I s → P a → M.step s a = some (s', es) → I s') (h₀ : I s)
    (has : ∀ a ∈ as, P a) : M.Meets G s as := by
  induction as generalizing s with
  | nil => trivial
  | cons a as ih =>
    have ha : P a := has a List.mem_cons_self
    refine ⟨hG h₀ ha, fun s' es hs => ?_⟩
    exact ih (hstep h₀ ha hs) fun b hb => has b (List.mem_cons_of_mem a hb)

/-- Induction over a run. -/
theorem run_induction {I : List ε → σ → Prop}
    (hstep : ∀ {tr s a s' es}, I tr s → M.step s a = some (s', es) → I (tr ++ es) s')
    (h₀ : I [] s) (hr : M.run s as = some (s', tr)) :
    I tr s' := by
  have h : I ([] ++ tr) s' :=
    guarded_induction (fun hI _ hs => hstep hI hs) h₀ (meets_true s as) hr
  exact h

/-- An invariant of the states alone. -/
theorem run_invariant (hstep : ∀ {s a s' es}, I s → M.step s a = some (s', es) → I s') (h₀ : I s)
    (hr : M.run s as = some (s', tr)) : I s' :=
  run_induction (I := fun _ s => I s) (fun hI hs => hstep hI hs) h₀ hr

/-- Where every state short of the goal has a step that brings it closer, a run reaches it. -/
theorem exists_run_to {P : α → Prop} {goal : σ → Prop} (left : σ → Nat)
    (hstep : ∀ {s}, I s → ¬ goal s →
      ∃ a s' es, P a ∧ M.step s a = some (s', es) ∧ I s' ∧ left s' < left s) (h₀ : I s) :
    ∃ as s' tr, (∀ a ∈ as, P a) ∧ M.run s as = some (s', tr) ∧ goal s' := by
  induction hn : left s using Nat.strongRecOn generalizing s with
  | ind n ih =>
    by_cases hgoal : goal s
    · exact ⟨[], s, [], by simp, rfl, hgoal⟩
    · obtain ⟨a, s₁, es, ha, hs, hI, hlt⟩ := hstep h₀ hgoal
      obtain ⟨as, s', tr, has, hr, hg⟩ := ih (left s₁) (by omega) hI rfl
      refine ⟨a :: as, s', es ++ tr, ?_, run_cons.mpr ⟨s₁, es, tr, hs, hr, rfl⟩, hg⟩
      intro b hb
      rcases List.mem_cons.mp hb with rfl | hb
      · exact ha
      · exact has b hb

/-- What comes in, goes out or is held. If every step that starts in an invariant state balances
`held` before and what it takes in against what it gives out and `held` after, so does every run.
The order is kept: the monoid need not be commutative. -/
theorem run_conserves {Q : Type} [Monoid Q] (held : σ → Q) (taken given : ε → Q)
    (hinv : ∀ {s a s' es}, I s → M.step s a = some (s', es) → I s')
    (hstep : ∀ {s a s' es}, I s → M.step s a = some (s', es) →
      held s * (es.map taken).prod = (es.map given).prod * held s') (h₀ : I s)
    (hr : M.run s as = some (s', tr)) :
    held s * (tr.map taken).prod = (tr.map given).prod * held s' := by
  induction as generalizing s tr with
  | nil =>
    cases hr
    simp
  | cons a as ih =>
    obtain ⟨s₁, es, tr', hs, hr', rfl⟩ := run_cons.mp hr
    rw [List.map_append, List.map_append, List.prod_append, List.prod_append, ← mul_assoc,
      hstep h₀ hs, mul_assoc, ih (hinv h₀ hs) hr', ← mul_assoc]

end Machine

/-! ## Traces -/

/-- Every event `e` of the trace, with the events `l` in front of it, satisfies `P l e`. -/
def Everywhere {ε : Type} (P : List ε → ε → Prop) (tr : List ε) : Prop :=
  ∀ l e r, tr = l ++ e :: r → P l e

namespace Everywhere

variable {ε : Type} {P : List ε → ε → Prop} {tr es : List ε}

theorem nil : Everywhere P [] := by
  intro l e r h
  simp at h

theorem append (ht : Everywhere P tr) (he : Everywhere (fun l e => P (tr ++ l) e) es) :
    Everywhere P (tr ++ es) := by
  intro l e r h
  rcases List.append_eq_append_iff.mp h with ⟨l', rfl, h'⟩ | ⟨c, rfl, h'⟩
  · exact he l' e r h'
  · cases c with
    | nil =>
      have hh := he [] e r h'.symm
      rwa [List.append_nil, List.append_nil] at hh
    | cons d c =>
      obtain ⟨rfl, -⟩ := List.cons.inj h'
      exact ht l e c rfl

theorem cons {e : ε} (he : P [] e) (hs : Everywhere (fun l e' => P (e :: l) e') es) :
    Everywhere P (e :: es) := by
  intro l e' r h
  cases l with
  | nil =>
    obtain ⟨rfl, -⟩ := List.cons.inj h
    exact he
  | cons d l =>
    obtain ⟨rfl, h'⟩ := List.cons.inj h
    exact hs l e' r h'

theorem of_forall (h : ∀ l, ∀ e ∈ es, P l e) : Everywhere P es := by
  intro l e r hs
  exact h l e (by rw [hs]; simp)

theorem left (h : Everywhere P (tr ++ es)) : Everywhere P tr := by
  intro l e r ht
  exact h l e (r ++ es) (by rw [ht]; simp)

end Everywhere
end Lib
end SpannerAdbc
