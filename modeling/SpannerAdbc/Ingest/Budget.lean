import SpannerAdbc.Basic
import SpannerAdbc.Lib.Prog

/-!
# SpannerAdbc.Ingest.Budget

How an autocommit ingest walks over the bound rows and cuts them into commit chunks.

The walk interleaves the cutting with the commits: it commits a chunk as soon as the next row no
longer fits. Where the cuts fall depends on the rows alone, so the walk is the same program as
cutting first and committing the ranges one after the other (`ingestWalk_eq`).
-/

namespace SpannerAdbc
namespace Ingest

open Lib

/-- An Arrow record batch: its shape, its memory footprint, and its columns. -/
structure Batch (δ : Type) where
  numRows : Nat
  numColumns : Nat
  arrayMemorySize : Nat
  columns : δ

def ingestChunkMutationLimit : Nat := 20000

def ingestChunkByteBudget : Nat := 4 * 1024 * 1024

structure IngestChunkBudget where
  rows : Nat := 0
  mutations : Nat := 0
  bytes : Nat := 0

namespace IngestChunkBudget

/-- The first row of a chunk always fits. -/
def fits (budget : IngestChunkBudget) (columns rowBytes : Nat) : Bool :=
  budget.rows == 0 ||
    (saturatingAdd budget.mutations columns ≤ ingestChunkMutationLimit &&
      saturatingAdd budget.bytes rowBytes ≤ ingestChunkByteBudget)

def add (budget : IngestChunkBudget) (columns rowBytes : Nat) : IngestChunkBudget where
  rows := budget.rows + 1
  mutations := saturatingAdd budget.mutations columns
  bytes := saturatingAdd budget.bytes rowBytes

end IngestChunkBudget

/-- The variables of the walk. -/
structure Walk where
  total : Nat := 0
  budget : IngestChunkBudget := {}
  chunkStart : Nat := 0
  rowIndex : Nat := 0

section Walk

variable {σ δ : Type} (commitIngestRange : Nat → Nat → Nat → Prog Error σ Nat)

def ingestRow (columns rowBytes : Nat) (w : Walk) : Prog Error σ Walk := do
  let w ← if w.budget.fits columns rowBytes then pure w else do
    let n ← commitIngestRange w.chunkStart w.rowIndex w.total
    pure { w with total := w.total + n, budget := {}, chunkStart := w.rowIndex }
  return { w with budget := w.budget.add columns rowBytes, rowIndex := w.rowIndex + 1 }

def ingestRows (columns rowBytes : Nat) : Nat → Walk → Prog Error σ Walk
  | 0, w => pure w
  | n + 1, w => do
    let w ← ingestRow commitIngestRange columns rowBytes w
    ingestRows columns rowBytes n w

/-- The estimated size of a row of the batch. -/
def Batch.rowBytes (batch : Batch δ) : Nat := batch.arrayMemorySize / max batch.numRows 1

def ingestBatches : List (Batch δ) → Walk → Prog Error σ Walk
  | [], w => pure w
  | batch :: bound, w => do
    let w ← ingestRows commitIngestRange batch.numColumns batch.rowBytes batch.numRows w
    ingestBatches bound w

/-- The loop over all rows and the commit of the last chunk. -/
def ingestWalk (bound : List (Batch δ)) : Prog Error σ Nat := do
  let w ← ingestBatches commitIngestRange bound {}
  let n ← commitIngestRange w.chunkStart w.rowIndex w.total
  return w.total + n

end Walk

/-! ## The cuts -/

section Cuts

variable {σ δ : Type}

/-- What each row costs: its columns and its estimated bytes. -/
def rowCosts (bound : List (Batch δ)) : List (Nat × Nat) :=
  bound.flatMap fun batch => .replicate batch.numRows (batch.numColumns, batch.rowBytes)

def cutRows : List (Nat × Nat) → IngestChunkBudget → Nat → Nat → List (Nat × Nat)
  | [], _, start, i => [(start, i)]
  | (columns, rowBytes) :: costs, budget, start, i =>
    if budget.fits columns rowBytes then
      cutRows costs (budget.add columns rowBytes) start (i + 1)
    else (start, i) :: cutRows costs (({} : IngestChunkBudget).add columns rowBytes) i (i + 1)

/-- The row ranges that are committed, in order. -/
def chunkRanges (bound : List (Batch δ)) : List (Nat × Nat) := cutRows (rowCosts bound) {} 0 0

/-- The ranges one after the other, with the total of the earlier ones. -/
def commitRanges (commitIngestRange : Nat → Nat → Nat → Prog Error σ Nat) :
    List (Nat × Nat) → Nat → Prog Error σ Nat
  | [], total => pure total
  | (start, stop) :: ranges, total => do
    let n ← commitIngestRange start stop total
    commitRanges commitIngestRange ranges (total + n)

def rowCount (bound : List (Batch δ)) : Nat := (bound.map Batch.numRows).sum

theorem length_rowCosts (bound : List (Batch δ)) : (rowCosts bound).length = rowCount bound := by
  simp [rowCosts, rowCount, List.length_flatMap]

variable {commitIngestRange : Nat → Nat → Nat → Prog Error σ Nat}

theorem ingestRows_eq (columns rowBytes n : Nat) (w : Walk) :
    ingestRows commitIngestRange columns rowBytes n w =
      (List.replicate n (columns, rowBytes)).foldlM
        (fun w cost => ingestRow commitIngestRange cost.1 cost.2 w) w := by
  induction n generalizing w with
  | zero => rfl
  | succ n ih =>
    rw [List.replicate_succ, List.foldlM_cons, ingestRows]
    exact bind_congr ih

theorem ingestBatches_eq (bound : List (Batch δ)) (w : Walk) :
    ingestBatches commitIngestRange bound w =
      (rowCosts bound).foldlM (fun w cost => ingestRow commitIngestRange cost.1 cost.2 w) w := by
  induction bound generalizing w with
  | nil => rfl
  | cons batch bound ih =>
    have hcosts : rowCosts (batch :: bound) =
        .replicate batch.numRows (batch.numColumns, batch.rowBytes) ++ rowCosts bound := by
      simp [rowCosts]
    rw [hcosts, List.foldlM_append, ingestBatches, ingestRows_eq]
    exact bind_congr ih

theorem ingestRow_fits {columns rowBytes : Nat} {w : Walk}
    (h : w.budget.fits columns rowBytes = true) :
    ingestRow commitIngestRange columns rowBytes w =
      pure { w with budget := w.budget.add columns rowBytes, rowIndex := w.rowIndex + 1 } := by
  simp only [ingestRow, h, if_true, pure_bind]

theorem ingestRow_full {columns rowBytes : Nat} {w : Walk}
    (h : ¬ w.budget.fits columns rowBytes = true) :
    ingestRow commitIngestRange columns rowBytes w = (do
      let n ← commitIngestRange w.chunkStart w.rowIndex w.total
      pure ⟨w.total + n, ({} : IngestChunkBudget).add columns rowBytes, w.rowIndex,
        w.rowIndex + 1⟩) := by
  simp only [ingestRow, if_neg h, pure_bind]

theorem walk_eq_cutRows (costs : List (Nat × Nat)) (w : Walk) :
    (do
      let w ← costs.foldlM (fun w cost => ingestRow commitIngestRange cost.1 cost.2 w) w
      let n ← commitIngestRange w.chunkStart w.rowIndex w.total
      return w.total + n) =
    commitRanges commitIngestRange (cutRows costs w.budget w.chunkStart w.rowIndex) w.total := by
  induction costs generalizing w with
  | nil => simp [cutRows, commitRanges]
  | cons cost costs ih =>
    obtain ⟨columns, rowBytes⟩ := cost
    by_cases hfits : w.budget.fits columns rowBytes = true
    · rw [cutRows, if_pos hfits, List.foldlM_cons, ingestRow_fits hfits, pure_bind]
      exact ih _
    · rw [cutRows, if_neg hfits, List.foldlM_cons, ingestRow_full hfits, commitRanges]
      simp only [bind_assoc, pure_bind]
      exact bind_congr fun n => ih _

/-- Committing while walking is committing the cut ranges. -/
theorem ingestWalk_eq (bound : List (Batch δ)) :
    ingestWalk commitIngestRange bound =
      commitRanges commitIngestRange (chunkRanges bound) 0 := by
  unfold ingestWalk
  rw [ingestBatches_eq]
  exact walk_eq_cutRows (rowCosts bound) {}

end Cuts

/-- Consecutive ranges from `a` to `c`. -/
inductive Tiles : Nat → Nat → List (Nat × Nat) → Prop where
  | nil {a : Nat} : Tiles a a []
  | cons {a b c : Nat} {ranges : List (Nat × Nat)} : a ≤ b → Tiles b c ranges →
      Tiles a c ((a, b) :: ranges)

theorem Tiles.le {a b : Nat} {ranges : List (Nat × Nat)} (h : Tiles a b ranges) : a ≤ b := by
  induction h with
  | nil => exact Nat.le_refl _
  | cons hab _ ih => exact Nat.le_trans hab ih

theorem tiles_cutRows (costs : List (Nat × Nat)) (budget : IngestChunkBudget) {start i : Nat}
    (h : start ≤ i) : Tiles start (i + costs.length) (cutRows costs budget start i) := by
  induction costs generalizing budget start i with
  | nil => exact .cons h .nil
  | cons cost costs ih =>
    obtain ⟨columns, rowBytes⟩ := cost
    have hlen : i + ((columns, rowBytes) :: costs).length = i + 1 + costs.length := by
      rw [List.length_cons]
      omega
    rw [hlen, cutRows]
    split
    · exact ih _ (by omega)
    · exact .cons h (ih _ (by omega))

theorem tiles_chunkRanges {δ : Type} (bound : List (Batch δ)) :
    Tiles 0 (rowCount bound) (chunkRanges bound) := by
  have h := tiles_cutRows (rowCosts bound) {} (Nat.le_refl 0)
  rwa [Nat.zero_add, length_rowCosts] at h

end Ingest
end SpannerAdbc
