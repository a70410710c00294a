import Mathlib.Data.List.Basic

/-!
# SpannerAdbc.Lib.Heap

A heap of cells that are allocated once and freed once. A pointer is the number of its cell; a cell
is never used again after it was freed. Reading or freeing a cell that is not live fails, so a
computation that succeeds has freed nothing twice, and what it has not freed is what is live.

`Owns h ps` is the ledger: the live cells are exactly `ps`.
-/

namespace SpannerAdbc
namespace Lib

/-- `none` is a freed cell. -/
structure Heap (α : Type) where
  cells : List (Option α)
  deriving DecidableEq, Repr

namespace Heap

variable {α : Type}

def empty : Heap α := ⟨[]⟩

def read (h : Heap α) (p : Nat) : Option α := h.cells[p]?.join

/-- The pointer of the next allocation. -/
def fresh (h : Heap α) : Nat := h.cells.length

def alloc (h : Heap α) (a : α) : Heap α := ⟨h.cells ++ [some a]⟩

def clear (h : Heap α) (p : Nat) : Heap α := ⟨h.cells.set p none⟩

def write (h : Heap α) (p : Nat) (a : α) : Heap α := ⟨h.cells.set p (some a)⟩

def free (h : Heap α) (p : Nat) : Option (Heap α) :=
  if (h.read p).isSome then some (h.clear p) else none

/-- The cell was allocated and has been freed. -/
def Freed (h : Heap α) (p : Nat) : Prop := p < h.fresh ∧ h.read p = none

/-- The live cells are exactly these. -/
def Owns (h : Heap α) (ps : List Nat) : Prop := ∀ p, (h.read p).isSome = true ↔ p ∈ ps

variable {h : Heap α} {a : α} {p q : Nat} {ps : List Nat}

theorem read_empty : (empty : Heap α).read p = none := rfl

theorem read_fresh : h.read h.fresh = none := by
  simp [read, fresh]

theorem read_of_fresh_le (hp : h.fresh ≤ p) : h.read p = none := by
  rw [fresh] at hp
  simp [read, List.getElem?_eq_none hp]

theorem read_alloc : (h.alloc a).read p = if p = h.fresh then some a else h.read p := by
  by_cases hp : p = h.fresh
  · rw [if_pos hp, hp]
    simp [read, alloc, fresh]
  · rw [if_neg hp]
    rw [fresh] at hp
    simp only [read, alloc]
    by_cases hlt : p < h.cells.length
    · rw [List.getElem?_append_left hlt]
    · have hle : h.cells.length + 1 ≤ p := by omega
      rw [List.getElem?_eq_none (by simpa using hle), List.getElem?_eq_none (by omega)]

theorem fresh_alloc : (h.alloc a).fresh = h.fresh + 1 := by
  simp [alloc, fresh]

theorem read_clear : (h.clear p).read q = if q = p then none else h.read q := by
  simp only [read, clear, List.getElem?_set]
  by_cases hqp : q = p
  · subst hqp
    simp only [if_true]
    split <;> rfl
  · rw [if_neg (Ne.symm hqp), if_neg hqp]

theorem fresh_clear : (h.clear p).fresh = h.fresh := by
  simp [clear, fresh]

theorem lt_fresh_of_read (hp : h.read p = some a) : p < h.fresh := by
  by_contra hle
  rw [read_of_fresh_le (by omega)] at hp
  cases hp

theorem read_write {b : α} (hp : h.read p = some b) :
    (h.write p a).read q = if q = p then some a else h.read q := by
  have hlt : p < h.cells.length := lt_fresh_of_read hp
  simp only [read, write, List.getElem?_set]
  by_cases hqp : q = p
  · subst hqp
    simp only [if_true, if_pos hlt, Option.join_some]
  · rw [if_neg (Ne.symm hqp), if_neg hqp]

theorem fresh_write : (h.write p a).fresh = h.fresh := by
  simp [write, fresh]

theorem free_of_read (hp : h.read p = some a) : h.free p = some (h.clear p) := by
  simp [free, hp]

theorem Owns.empty : Owns (empty : Heap α) [] := by
  intro p
  simp [read_empty]

theorem Owns.alloc (ho : Owns h ps) : Owns (h.alloc a) (h.fresh :: ps) := by
  intro q
  rw [read_alloc, List.mem_cons]
  split
  · rename_i hq
    simp [hq]
  · rename_i hq
    simp [hq, ho q]

theorem Owns.clear (ho : Owns h (p :: ps)) (hp : p ∉ ps) : Owns (h.clear p) ps := by
  intro q
  rw [read_clear]
  split
  · rename_i hq
    simp [hq, hp]
  · rename_i hq
    rw [ho q, List.mem_cons]
    simp [hq]

/-- What was allocated and is not owned has been freed. -/
theorem Owns.freed (ho : Owns h ps) (hlt : p < h.fresh) (hp : p ∉ ps) : Freed h p := by
  refine ⟨hlt, ?_⟩
  cases hr : h.read p with
  | none => rfl
  | some a =>
    exact absurd ((ho p).mp (by rw [hr]; rfl)) hp

end Heap
end Lib
end SpannerAdbc
