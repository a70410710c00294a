import Mathlib.Data.List.Basic

/-!
# SpannerAdbc.Lib.Munch

A munch reads its input from the left with a one-element-at-a-time automaton and stops right
after the first element the automaton closes on, or at the end of the input. Comments and quoted
literals are munches. The facts a lexer needs about them do not depend on the automaton:

* `munch_append`: what is read and what is left make up the input.
* `munch_swap`: a munch that stopped before the end does not depend on what follows.
* `munch_shorten`: a munch that read everything also reads everything of any prefix.
* `munch_through`, `munch_closes`: before its last element a closed munch is in the middle of the
  automaton's run, and the last element is one the automaton closes on.
* `munch_least`, `munch_stops`: a munch is the first part of its input on which the automaton closes,
  and all of it if there is none.
-/

namespace SpannerAdbc
namespace Lib

variable {α σ : Type} {step : σ → α → Option σ} {as r x : List α} {s : σ}

/-- Read up to and including the first element on which `step` closes (`none`). -/
def munch (step : σ → α → Option σ) : σ → List α → List α × List α
  | _, [] => ([], [])
  | s, a :: as =>
    match step s a with
    | none => ([a], as)
    | some s' => (a :: (munch step s' as).1, (munch step s' as).2)

theorem munch_append (s : σ) (as : List α) : (munch step s as).1 ++ (munch step s as).2 = as := by
  induction as generalizing s with
  | nil => rfl
  | cons a as ih =>
    simp only [munch]
    split
    · rfl
    · simp [ih]

theorem munch_cons_ne_nil (s : σ) (a : α) (as : List α) : (munch step s (a :: as)).1 ≠ [] := by
  simp only [munch]
  split <;> simp

theorem munch_swap {r' : List α} (h : munch step s (x ++ r) = (x, r)) (hr : r ≠ []) :
    munch step s (x ++ r') = (x, r') := by
  induction x generalizing s with
  | nil =>
    cases r with
    | nil => exact absurd rfl hr
    | cons a as => exact absurd (congrArg Prod.fst h) (munch_cons_ne_nil s a as)
  | cons a x ih =>
    simp only [List.cons_append, munch] at h ⊢
    cases hs : step s a with
    | none =>
      simp only [hs, Prod.mk.injEq, List.cons.injEq, true_and] at h ⊢
      obtain ⟨hx, _⟩ := h
      simp [← hx]
    | some s' =>
      simp only [hs, Prod.mk.injEq, List.cons.injEq, true_and] at h ⊢
      have := ih (Prod.ext h.1 h.2)
      simp [this]

theorem munch_shorten {u : List α} (h : munch step s (x ++ u) = (x ++ u, [])) :
    munch step s x = (x, []) := by
  induction x generalizing s with
  | nil => rfl
  | cons a x ih =>
    simp only [List.cons_append, munch] at h ⊢
    cases hs : step s a with
    | none =>
      simp only [hs, Prod.mk.injEq, List.append_eq_nil_iff] at h
      simp [h.2.1]
    | some s' =>
      simp only [hs, Prod.mk.injEq, List.cons.injEq, true_and] at h ⊢
      have := ih (Prod.ext h.1 h.2)
      simp [this]

/-- A munch that stops beyond `x` is in some state after `x`, whatever follows. -/
theorem munch_through {c : List α} (h : munch step s (x ++ (c ++ r)) = (x ++ c, r)) (hc : c ≠ []) :
    ∃ s', ∀ y, munch step s (x ++ y) = (x ++ (munch step s' y).1, (munch step s' y).2) := by
  induction x generalizing s with
  | nil => exact ⟨s, fun y => by simp⟩
  | cons a x ih =>
    simp only [List.cons_append, munch] at h ⊢
    cases hs : step s a with
    | none =>
      simp only [hs, Prod.mk.injEq, List.cons.injEq, true_and] at h
      exact absurd (List.append_eq_nil_iff.mp h.1.symm).2 hc
    | some s' =>
      simp only [hs, Prod.mk.injEq, List.cons.injEq, true_and] at h ⊢
      obtain ⟨s'', h'⟩ := ih (Prod.ext h.1 h.2)
      exact ⟨s'', fun y => by simp [h' y]⟩

theorem munch_closes (h : munch step s as = (x, r)) (hr : r ≠ []) :
    ∃ y a s', x = y ++ [a] ∧ step s' a = none := by
  induction as generalizing s x with
  | nil => exact absurd (Prod.mk.inj h).2.symm hr
  | cons a as ih =>
    simp only [munch] at h
    split at h
    · rename_i hs
      obtain ⟨rfl, _⟩ := Prod.mk.inj h
      exact ⟨[], a, s, rfl, hs⟩
    · obtain ⟨rfl, h2⟩ := Prod.mk.inj h
      obtain ⟨y, b, s', hy, hb⟩ := ih (Prod.ext rfl h2)
      exact ⟨a :: y, b, s', by rw [List.cons_append, ← hy], hb⟩

/-- The automaton closes on no part of the input before the munch ends. -/
theorem munch_least {p : List α} (hp : p <+: as) (h : p.foldlM step s = none) :
    (munch step s as).1 <+: p := by
  induction as generalizing s p with
  | nil =>
    rw [List.prefix_nil.mp hp] at h
    cases h
  | cons a as ih =>
    cases p with
    | nil => cases h
    | cons b p =>
      obtain ⟨rfl, htail⟩ := List.cons_prefix_cons.mp hp
      rw [List.foldlM_cons] at h
      simp only [munch]
      cases hs : step s b with
      | none => exact List.cons_prefix_cons.mpr ⟨rfl, List.nil_prefix⟩
      | some s' =>
        rw [hs] at h
        exact List.cons_prefix_cons.mpr ⟨rfl, ih htail h⟩

theorem munch_stops (h : munch step s as = (x, r)) :
    (∃ y a s', x = y ++ [a] ∧ y.foldlM step s = some s' ∧ step s' a = none) ∨ r = [] := by
  induction as generalizing s x with
  | nil =>
    obtain ⟨-, rfl⟩ := Prod.mk.inj h
    exact .inr rfl
  | cons a as ih =>
    simp only [munch] at h
    split at h
    · rename_i hs
      obtain ⟨rfl, -⟩ := Prod.mk.inj h
      exact .inl ⟨[], a, s, rfl, rfl, hs⟩
    · rename_i s' hs
      obtain ⟨rfl, hr⟩ := Prod.mk.inj h
      rcases ih (Prod.ext rfl hr) with ⟨y, b, t, hy, hf, hb⟩ | hnil
      · refine .inl ⟨a :: y, b, t, by rw [List.cons_append, ← hy], ?_, hb⟩
        rw [List.foldlM_cons, hs]
        exact hf
      · exact .inr hnil

end Lib
end SpannerAdbc
