import Mathlib.Data.List.Basic

/-!
# SpannerAdbc.Lib.Offsets

A list of lists stored flat: all elements one behind the other, and the offsets where each list ends.
`segment` says that the offsets cut the flat list into the lists it was made of.
-/

namespace SpannerAdbc
namespace Lib

variable {α : Type} {xss : List (List α)}

/-- Where each list ends when the first one begins at `start`. -/
def ends (start : Nat) : List (List α) → List Nat
  | [] => []
  | xs :: xss => (start + xs.length) :: ends (start + xs.length) xss

/-- The offsets of a flat list: where the first list begins, and where each list ends. -/
def offsets (start : Nat) (xss : List (List α)) : List Nat := start :: ends start xss

@[simp] theorem length_ends (start : Nat) (xss : List (List α)) :
    (ends start xss).length = xss.length := by
  induction xss generalizing start with
  | nil => rfl
  | cons xs xss ih => rw [ends, List.length_cons, ih, List.length_cons]

/-- The offsets lie between the beginning and the end. -/
theorem mem_offsets {start o : Nat} (h : o ∈ offsets start xss) :
    start ≤ o ∧ o ≤ start + xss.flatten.length := by
  induction xss generalizing start with
  | nil =>
    obtain rfl : o = start := by simpa [offsets, ends] using h
    exact ⟨Nat.le_refl o, Nat.le_add_right _ _⟩
  | cons xs xss ih =>
    rw [List.flatten_cons, List.length_append]
    rcases List.mem_cons.mp h with rfl | h
    · omega
    · have := ih h
      omega

theorem pairwise_offsets (start : Nat) (xss : List (List α)) :
    (offsets start xss).Pairwise (· ≤ ·) := by
  induction xss generalizing start with
  | nil => simp [offsets, ends]
  | cons xs xss ih =>
    refine List.pairwise_cons.mpr ⟨fun o ho => ?_, ih (start + xs.length)⟩
    have ho : o ∈ offsets (start + xs.length) xss := ho
    have := (mem_offsets ho).1
    omega

/-- The last offset is the end of the flat list. -/
theorem getLast?_offsets (start : Nat) (xss : List (List α)) :
    (offsets start xss).getLast? = some (start + xss.flatten.length) := by
  induction xss generalizing start with
  | nil => rfl
  | cons xs xss ih =>
    rw [offsets, ends, List.getLast?_cons_cons]
    have := ih (start + xs.length)
    rw [offsets] at this
    rw [this, List.flatten_cons, List.length_append, Nat.add_assoc]

/-- List `i` is what lies between the offsets `i` and `i + 1`. -/
theorem segment (start : Nat) {i : Nat} {xs : List α} (h : xss[i]? = some xs) :
    ∃ o, (offsets start xss)[i]? = some (start + o) ∧
      (offsets start xss)[i + 1]? = some (start + o + xs.length) ∧
      ∀ j < xs.length, xss.flatten[o + j]? = xs[j]? := by
  induction xss generalizing start i with
  | nil => simp at h
  | cons ys xss ih =>
    cases i with
    | zero =>
      obtain rfl : ys = xs := by simpa using h
      refine ⟨0, rfl, rfl, fun j hj => ?_⟩
      rw [Nat.zero_add, List.flatten_cons, List.getElem?_append_left hj]
    | succ i =>
      obtain ⟨o, hi, hnext, hflat⟩ := ih (start + ys.length) (i := i) (by simpa using h)
      refine ⟨ys.length + o, ?_, ?_, fun j hj => ?_⟩
      · rw [offsets, List.getElem?_cons_succ, ends, ← Nat.add_assoc]
        exact hi
      · rw [offsets, List.getElem?_cons_succ, ends, ← Nat.add_assoc]
        exact hnext
      · rw [List.flatten_cons, Nat.add_assoc, List.getElem?_append_right (by omega),
          Nat.add_sub_cancel_left]
        exact hflat j hj

end Lib
end SpannerAdbc
