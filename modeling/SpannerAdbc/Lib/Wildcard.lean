import Mathlib.Data.List.Forall2

/-!
# SpannerAdbc.Lib.Wildcard

Patterns with wildcards over an arbitrary alphabet. A pattern is a list of glyphs; it matches a text
that can be cut into one part for each glyph.

Only `any` stands for parts of different lengths. A pattern without it in front takes a fixed number
of characters off the text (`Matches.fixed`), which is why a matcher needs to remember only the last
`any` it has passed (`Matches.forget`).
-/

namespace SpannerAdbc
namespace Lib

inductive Glyph (α : Type) where
  | any
  | one
  | lit (a : α)
  deriving DecidableEq, Repr

variable {α : Type} {g : Glyph α} {gs hs : List (Glyph α)} {s t : List α}

/-- The parts that a glyph stands for. -/
def Glyph.Covers : Glyph α → List α → Prop
  | .any, _ => True
  | .one, part => part.length = 1
  | .lit a, part => part = [a]

def Matches (gs : List (Glyph α)) (s : List α) : Prop :=
  ∃ parts : List (List α), s = parts.flatten ∧ List.Forall₂ Glyph.Covers gs parts

theorem matches_nil : Matches ([] : List (Glyph α)) s ↔ s = [] := by
  constructor
  · rintro ⟨parts, rfl, h⟩
    cases h
    rfl
  · rintro rfl
    exact ⟨[], rfl, .nil⟩

theorem matches_cons : Matches (g :: gs) s ↔ ∃ part rest, s = part ++ rest ∧ g.Covers part ∧
    Matches gs rest := by
  constructor
  · rintro ⟨parts, rfl, h⟩
    obtain ⟨part, rest, hg, hrest, rfl⟩ := List.forall₂_cons_left_iff.mp h
    exact ⟨part, rest.flatten, rfl, hg, rest, rfl, hrest⟩
  · rintro ⟨part, rest, rfl, hg, parts, rfl, h⟩
    exact ⟨part :: parts, rfl, .cons hg h⟩

theorem matches_any : Matches (.any :: gs) s ↔ ∃ k, Matches gs (s.drop k) := by
  rw [matches_cons]
  constructor
  · rintro ⟨part, rest, rfl, -, h⟩
    refine ⟨part.length, ?_⟩
    rwa [List.drop_left]
  · rintro ⟨k, h⟩
    exact ⟨s.take k, s.drop k, (List.take_append_drop k s).symm, trivial, h⟩

theorem matches_one : Matches (.one :: gs) s ↔ ∃ a rest, s = a :: rest ∧ Matches gs rest := by
  rw [matches_cons]
  constructor
  · rintro ⟨part, rest, rfl, hone, h⟩
    obtain ⟨a, rfl⟩ := List.length_eq_one_iff.mp hone
    exact ⟨a, rest, rfl, h⟩
  · rintro ⟨a, rest, rfl, h⟩
    exact ⟨[a], rest, rfl, rfl, h⟩

theorem matches_lit {a : α} : Matches (.lit a :: gs) s ↔ ∃ rest, s = a :: rest ∧ Matches gs rest := by
  rw [matches_cons]
  constructor
  · rintro ⟨part, rest, rfl, rfl, h⟩
    exact ⟨rest, rfl, h⟩
  · rintro ⟨rest, rfl, h⟩
    exact ⟨[a], rest, rfl, rfl, h⟩

/-- A glyph other than `any` takes one character. -/
theorem matches_tail (hg : g ≠ .any) (h : Matches (g :: gs) s) :
    ∃ a rest, s = a :: rest ∧ Matches gs rest := by
  cases g with
  | any => exact absurd rfl hg
  | one => exact matches_one.mp h
  | lit a =>
    obtain ⟨rest, hs, h⟩ := matches_lit.mp h
    exact ⟨a, rest, hs, h⟩

/-- Nothing is left for the glyphs. -/
theorem matches_end : Matches gs ([] : List α) ↔ ∀ g ∈ gs, g = .any := by
  induction gs with
  | nil => simp [matches_nil]
  | cons g gs ih =>
    rw [List.forall_mem_cons, ← ih]
    constructor
    · intro h
      have hg : g = .any := by
        by_contra hne
        obtain ⟨a, rest, hs, -⟩ := matches_tail hne h
        cases hs
      subst hg
      obtain ⟨k, h⟩ := matches_any.mp h
      rw [List.drop_nil] at h
      exact ⟨rfl, h⟩
    · rintro ⟨rfl, h⟩
      exact matches_any.mpr ⟨0, h⟩

theorem Matches.of_drop {k : Nat} (h : Matches (.any :: gs) (s.drop k)) : Matches (.any :: gs) s := by
  obtain ⟨j, h⟩ := matches_any.mp h
  rw [List.drop_drop] at h
  exact matches_any.mpr ⟨_, h⟩

/-- Glyphs other than `any` take a character each. -/
theorem Matches.fixed (hgs : ∀ g ∈ gs, g ≠ .any) (h : Matches (gs ++ hs) s) :
    gs.length ≤ s.length ∧ Matches hs (s.drop gs.length) := by
  induction gs generalizing s with
  | nil => exact ⟨Nat.zero_le _, h⟩
  | cons g gs ih =>
    obtain ⟨hg, hgs⟩ := List.forall_mem_cons.mp hgs
    obtain ⟨a, rest, rfl, htail⟩ := matches_tail hg h
    obtain ⟨hlen, hrest⟩ := ih hgs htail
    exact ⟨Nat.succ_le_succ hlen, hrest⟩

/-- A matcher that has come from `gs ++ any :: hs` at `s ++ t` to `any :: hs` at `t` may forget where
it could have begun later: what matches from a later beginning matches from here. -/
theorem Matches.forget {k : Nat} (hgs : ∀ g ∈ gs, g ≠ .any) (hlen : gs.length = s.length)
    (h : Matches (gs ++ .any :: hs) ((s ++ t).drop k)) : Matches (.any :: hs) t := by
  obtain ⟨-, h⟩ := h.fixed hgs
  rw [List.drop_drop, hlen, Nat.add_comm, ← List.drop_drop, List.drop_left] at h
  exact h.of_drop

/-- Beginning later, there are not enough characters left. -/
theorem not_matches_later {k : Nat} (hgs : ∀ g ∈ gs, g ≠ .any) (hlen : gs.length = s.length)
    (hk : 0 < k) (hle : k ≤ s.length) : ¬ Matches (gs ++ hs) (s.drop k) := by
  intro h
  have := (h.fixed hgs).1
  rw [List.length_drop] at this
  omega

end Lib
end SpannerAdbc
