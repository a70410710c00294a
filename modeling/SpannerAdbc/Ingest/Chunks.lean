import SpannerAdbc.Ingest.Commit

/-!
# SpannerAdbc.Ingest.Chunks

What the chunk budget guarantees: the ranges handed to the commit partition the rows, each is one
row or within both limits, and none could have taken the row behind it. The limits are met by the
exact sums, so the saturation of the 64-bit counters never shows (`Counted.fits_iff`), and the two
counters that do not saturate count rows (`checkedCut_eq`).
-/

namespace SpannerAdbc
namespace Ingest

open Lib

section Budget

variable {δ : Type} {budget : IngestChunkBudget} {rows : List (Batch δ × Nat)}

/-- The cost of a row, as `cutRows` takes it. -/
def rowCost (row : Batch δ × Nat) : Nat × Nat := (row.1.numColumns, row.1.rowBytes)

/-- The exact number of mutations of some rows. -/
def mutationsOf (rows : List (Batch δ × Nat)) : Nat := (rows.map fun row => row.1.numColumns).sum

/-- Their exact estimated size. -/
def bytesOf (rows : List (Batch δ × Nat)) : Nat := (rows.map fun row => row.1.rowBytes).sum

def Within (rows : List (Batch δ × Nat)) : Prop :=
  mutationsOf rows ≤ ingestChunkMutationLimit ∧ bytesOf rows ≤ ingestChunkByteBudget

/-- The rows `start` to `stop - 1` make a chunk that is not empty, within the limits unless it is a
single row, and cannot take the next row. -/
structure Chunk (bound : List (Batch δ)) (start stop : Nat) : Prop where
  nonempty : start < stop
  within : stop = start + 1 ∨ Within (rangeRows bound start stop)
  maximal : stop < rowCount bound → ¬ Within (rangeRows bound start (stop + 1))

theorem rowCosts_eq (bound : List (Batch δ)) : rowCosts bound = (flatRows bound).map rowCost := by
  induction bound with
  | nil => rfl
  | cons batch bound ih =>
    have hrows : batch.rows.map rowCost =
        .replicate batch.numRows (batch.numColumns, batch.rowBytes) := by
      simp only [Batch.rows, List.map_map, Function.comp_def, rowCost, List.map_const',
        List.length_range]
    rw [flatRows_cons, List.map_append, hrows, ← ih, rowCosts, List.flatMap_cons]
    rfl

/-- The budget after the rows of the open chunk. -/
structure Counted (rows : List (Batch δ × Nat)) (budget : IngestChunkBudget) : Prop where
  count : budget.rows = rows.length
  mutations : budget.mutations = min (mutationsOf rows) (2 ^ 64 - 1)
  bytes : budget.bytes = min (bytesOf rows) (2 ^ 64 - 1)

theorem counted_nil : Counted ([] : List (Batch δ × Nat)) {} := ⟨rfl, rfl, rfl⟩

theorem mutationsOf_concat (rows : List (Batch δ × Nat)) (row : Batch δ × Nat) :
    mutationsOf (rows ++ [row]) = mutationsOf rows + row.1.numColumns := by
  simp [mutationsOf]

theorem bytesOf_concat (rows : List (Batch δ × Nat)) (row : Batch δ × Nat) :
    bytesOf (rows ++ [row]) = bytesOf rows + row.1.rowBytes := by
  simp [bytesOf]

theorem Counted.add (h : Counted rows budget) (row : Batch δ × Nat) :
    Counted (rows ++ [row]) (budget.add (rowCost row).1 (rowCost row).2) := by
  refine ⟨?_, ?_, ?_⟩
  · simp [IngestChunkBudget.add, h.count]
  · simp only [mutationsOf_concat, IngestChunkBudget.add, saturatingAdd, h.mutations, rowCost]
    omega
  · simp only [bytesOf_concat, IngestChunkBudget.add, saturatingAdd, h.bytes, rowCost]
    omega

/-- Both limits are far below the cap of the counters, so the test is about the exact sums. -/
theorem Counted.fits_iff (h : Counted rows budget) (row : Batch δ × Nat) :
    budget.fits (rowCost row).1 (rowCost row).2 = true ↔ rows = [] ∨ Within (rows ++ [row]) := by
  have hempty : budget.rows = 0 ↔ rows = [] := by rw [h.count, List.length_eq_zero_iff]
  have hmutations : saturatingAdd budget.mutations row.1.numColumns ≤ ingestChunkMutationLimit ↔
      mutationsOf rows + row.1.numColumns ≤ ingestChunkMutationLimit := by
    rw [saturatingAdd, h.mutations, ingestChunkMutationLimit]
    omega
  have hbytes : saturatingAdd budget.bytes row.1.rowBytes ≤ ingestChunkByteBudget ↔
      bytesOf rows + row.1.rowBytes ≤ ingestChunkByteBudget := by
    rw [saturatingAdd, h.bytes, ingestChunkByteBudget]
    omega
  simp only [IngestChunkBudget.fits, rowCost, Bool.or_eq_true, beq_iff_eq, Bool.and_eq_true,
    decide_eq_true_eq, hempty, hmutations, hbytes, Within, mutationsOf_concat, bytesOf_concat]

variable {bound : List (Batch δ)}

theorem rangeRows_self (start : Nat) : rangeRows bound start start = [] := by
  rw [rangeRows, List.drop_take, Nat.sub_self, List.take_zero]

theorem rangeRows_succ {start stop : Nat} (h : start ≤ stop) {row : Batch δ × Nat}
    (hrow : (flatRows bound)[stop]? = some row) :
    rangeRows bound start (stop + 1) = rangeRows bound start stop ++ [row] := by
  have hlen : stop ≤ (flatRows bound).length := by
    have := (List.getElem?_eq_some_iff.mp hrow).1
    omega
  rw [rangeRows, rangeRows, List.take_add_one, hrow, Option.toList_some, List.drop_append,
    List.length_take, Nat.min_eq_left hlen, Nat.sub_eq_zero_of_le h, List.drop_zero]

/-- Every range that is cut off is a chunk. `start` to `i - 1` are the rows of the open chunk. -/
theorem chunk_of_mem_cutRows (rest : List (Batch δ × Nat)) {start i : Nat}
    (hrest : (flatRows bound).drop i = rest) (hstart : start ≤ i) (hopen : start < i ∨ rest ≠ [])
    (hcounted : Counted (rangeRows bound start i) budget)
    (hwithin : start < i → i = start + 1 ∨ Within (rangeRows bound start i)) :
    ∀ r ∈ cutRows (rest.map rowCost) budget start i, Chunk bound r.1 r.2 := by
  induction rest generalizing budget start i with
  | nil =>
    intro r hr
    obtain rfl : r = (start, i) := by simpa [cutRows] using hr
    have hlt : start < i := hopen.resolve_right (fun h => h rfl)
    refine ⟨hlt, hwithin hlt, fun hend => ?_⟩
    have hlen := List.drop_eq_nil_iff.mp hrest
    rw [length_flatRows] at hlen
    exact absurd hend (by omega)
  | cons row rest ih =>
    have hrow : (flatRows bound)[i]? = some row := by
      rw [← List.head?_drop, hrest, List.head?_cons]
    have htail : (flatRows bound).drop (i + 1) = rest := by
      rw [← List.tail_drop, hrest, List.tail_cons]
    have hsucc := rangeRows_succ hstart hrow
    intro r hr
    have hcut : cutRows ((row :: rest).map rowCost) budget start i =
        if budget.fits (rowCost row).1 (rowCost row).2 then
          cutRows (rest.map rowCost) (budget.add (rowCost row).1 (rowCost row).2) start (i + 1)
        else (start, i) :: cutRows (rest.map rowCost)
          (({} : IngestChunkBudget).add (rowCost row).1 (rowCost row).2) i (i + 1) := rfl
    rw [hcut] at hr
    split at hr
    · rename_i hfits
      refine ih htail (by omega) (.inl (by omega)) (hsucc ▸ hcounted.add row) (fun _ => ?_) r hr
      rcases (hcounted.fits_iff row).mp hfits with hnil | hfits
      · -- An empty range that ends inside the rows starts where it ends.
        refine .inl ?_
        have hlen : (rangeRows bound start i).length = i - start := by
          refine length_rangeRows ?_
          rw [← length_flatRows]
          exact Nat.le_of_lt (List.getElem?_eq_some_iff.mp hrow).1
        rw [hnil, List.length_nil] at hlen
        omega
      · exact .inr (hsucc ▸ hfits)
    · rename_i hfull
      rw [hcounted.fits_iff row, not_or] at hfull
      have hlt : start < i := by
        refine Nat.lt_of_le_of_ne hstart ?_
        rintro rfl
        exact hfull.1 (rangeRows_self start)
      rcases List.mem_cons.mp hr with rfl | hr
      · exact ⟨hlt, hwithin hlt, fun _ => hsucc ▸ hfull.2⟩
      · have hone := rangeRows_succ (Nat.le_refl i) hrow
        rw [rangeRows_self] at hone
        exact ih htail (by omega) (.inl (by omega)) (hone ▸ counted_nil.add row)
          (fun _ => .inl rfl) r hr

theorem chunk_of_mem_chunkRanges (hrows : 0 < rowCount bound) :
    ∀ r ∈ chunkRanges bound, Chunk bound r.1 r.2 := by
  rw [chunkRanges, rowCosts_eq]
  refine chunk_of_mem_cutRows (flatRows bound) rfl (Nat.le_refl 0) (.inr ?_) ?_ (fun h => ?_)
  · intro hnil
    rw [← length_flatRows, hnil] at hrows
    cases hrows
  · rw [rangeRows_self]
    exact counted_nil
  · cases h

theorem rangeRows_append {a b c : Nat} (hab : a ≤ b) (hbc : b ≤ c) :
    rangeRows bound a b ++ rangeRows bound b c = rangeRows bound a c := by
  rw [rangeRows_left c hab hbc, rangeRows_right a hab, List.take_append_drop]

theorem Tiles.flatMap_rangeRows {a c : Nat} {ranges : List (Nat × Nat)} (h : Tiles a c ranges) :
    (ranges.flatMap fun r => rangeRows bound r.1 r.2) = rangeRows bound a c := by
  induction h with
  | nil => rw [rangeRows_self, List.flatMap_nil]
  | cons hab h ih => rw [List.flatMap_cons, ih, rangeRows_append hab h.le]

/-! ## No wrapping -/

/-- `+=` on 64 bits. Nothing comes of an addition that overflows. -/
def checkedAdd (a b : Nat) : Option Nat := if a + b < 2 ^ 64 then some (a + b) else none

def IngestChunkBudget.checkedAdd (budget : IngestChunkBudget) (columns rowBytes : Nat) :
    Option IngestChunkBudget := do
  let rows ← Ingest.checkedAdd budget.rows 1
  return ⟨rows, saturatingAdd budget.mutations columns, saturatingAdd budget.bytes rowBytes⟩

/-- `cutRows` with the arithmetic of the source. -/
def checkedCut : List (Nat × Nat) → IngestChunkBudget → Nat → Nat → Option (List (Nat × Nat))
  | [], _, start, i => some [(start, i)]
  | (columns, rowBytes) :: costs, budget, start, i =>
    if budget.fits columns rowBytes then do
      let budget ← budget.checkedAdd columns rowBytes
      let i ← checkedAdd i 1
      checkedCut costs budget start i
    else do
      let budget ← ({} : IngestChunkBudget).checkedAdd columns rowBytes
      let next ← checkedAdd i 1
      let ranges ← checkedCut costs budget i next
      return (start, i) :: ranges

def checkedRanges (bound : List (Batch δ)) : Option (List (Nat × Nat)) :=
  checkedCut (rowCosts bound) {} 0 0

theorem IngestChunkBudget.checkedAdd_eq (h : budget.rows + 1 < 2 ^ 64) (columns rowBytes : Nat) :
    budget.checkedAdd columns rowBytes = some (budget.add columns rowBytes) := by
  simp only [IngestChunkBudget.checkedAdd, Ingest.checkedAdd, if_pos h]
  rfl

/-- The counters never pass the number of rows. -/
theorem checkedCut_eq (costs : List (Nat × Nat)) (start : Nat) {i : Nat} (hrows : budget.rows ≤ i)
    (hi : i + costs.length < 2 ^ 64) :
    checkedCut costs budget start i = some (cutRows costs budget start i) := by
  induction costs generalizing budget start i with
  | nil => rfl
  | cons cost costs ih =>
    obtain ⟨columns, rowBytes⟩ := cost
    rw [List.length_cons] at hi
    have hindex : checkedAdd i 1 = some (i + 1) := if_pos (by omega)
    have hbudget := budget.checkedAdd_eq (by omega) columns rowBytes
    have hfresh := ({} : IngestChunkBudget).checkedAdd_eq (by decide) columns rowBytes
    rw [checkedCut, cutRows]
    split
    · rw [hbudget, hindex]
      exact ih start (Nat.succ_le_succ hrows) (by omega)
    · have hrest : checkedCut costs (({} : IngestChunkBudget).add columns rowBytes) i (i + 1) =
          some (cutRows costs (({} : IngestChunkBudget).add columns rowBytes) i (i + 1)) :=
        ih i (Nat.succ_le_succ (Nat.zero_le i)) (by omega)
      rw [hfresh, hindex]
      exact congrArg (fun o => o.bind fun ranges => some ((start, i) :: ranges)) hrest

end Budget

theorem exec_ingestWalk_empty {σ δ μ : Type} (env : Env σ δ μ) (job : Job δ) (target : List Char)
    (s : σ) (h : rowCount job.bound = 0) :
    (ingestWalk (commitIngestRange env job target) job.bound).exec s = (.ok 0, s) := by
  have hnil : rowCosts job.bound = [] := by
    rw [← List.length_eq_zero_iff, length_rowCosts, h]
  rw [ingestWalk_eq, chunkRanges, hnil]
  simp [cutRows, commitRanges, commitIngestRange]

/-- An ingest commits its rows in consecutive, non-empty, maximal chunks, each a single row or within
both limits; without rows it commits nothing. The sums are exact, and the arithmetic of the source
gives the same ranges as long as the rows themselves can be counted. -/
theorem ingest_chunks_within_budget {δ : Type} (bound : List (Batch δ)) :
    (∀ (σ : Type) (commit : Nat → Nat → Nat → Prog Error σ Nat),
      ingestWalk commit bound = commitRanges commit (chunkRanges bound) 0) ∧
    (0 < rowCount bound → Tiles 0 (rowCount bound) (chunkRanges bound) ∧
      (chunkRanges bound).flatMap (fun r => rangeRows bound r.1 r.2) = flatRows bound ∧
      ∀ r ∈ chunkRanges bound, Chunk bound r.1 r.2) ∧
    (rowCount bound = 0 → ∀ (σ μ : Type) (env : Env σ δ μ) (job : Job δ) (target : List Char)
      (s : σ), job.bound = bound →
        (ingestWalk (commitIngestRange env job target) bound).exec s = (.ok 0, s)) ∧
    (rowCount bound < 2 ^ 64 → checkedRanges bound = some (chunkRanges bound)) := by
  refine ⟨fun σ commit => ingestWalk_eq bound, fun hrows => ?_, ?_, fun hcount => ?_⟩
  · have htiles := tiles_chunkRanges bound
    refine ⟨htiles, ?_, chunk_of_mem_chunkRanges hrows⟩
    rw [htiles.flatMap_rangeRows, rangeRows, List.drop_zero, ← length_flatRows, List.take_length]
  · rintro hrows σ μ env job target s rfl
    exact exec_ingestWalk_empty env job target s hrows
  · refine checkedCut_eq (rowCosts bound) 0 (Nat.le_refl 0) ?_
    rw [Nat.zero_add, length_rowCosts]
    exact hcount

-- Two rows of 9000 columns fit and a third does not; rows of any width get a chunk each.
example : chunkRanges [(⟨3, 9000, 30, ()⟩ : Batch Unit), ⟨2, 2 ^ 64 - 1, 2 ^ 64 - 1, ()⟩] =
    [(0, 2), (2, 3), (3, 4), (4, 5)] := by decide

end Ingest
end SpannerAdbc
