import Mathlib.Data.List.Forall2
import SpannerAdbc.Ingest.Budget
import SpannerAdbc.Lib.Result

/-!
# SpannerAdbc.Ingest.Range

`build_range_mutations`: the insert mutations of a range of the flattened rows. It maps each row of
the range back to its batch, so a range can be rebuilt at any time from the batches
(`buildRangeMutations_eq`).
-/

namespace SpannerAdbc
namespace Ingest

section Build

variable {δ μ : Type} (insertMutation : List Char → Batch δ → Nat → Except Error μ)
  (target : List Char)

/-- `for row in lo..hi`. -/
def pushRows (batch : Batch δ) (lo hi : Nat) (mutations : List μ) : Except Error (List μ) :=
  (List.range' lo (hi - lo)).foldlM (fun mutations row => do
    let mutation ← insertMutation target batch row
    return mutations ++ [mutation]) mutations

def buildLoop (start stop : Nat) : List (Batch δ) → Nat → List μ → Except Error (List μ)
  | [], _, mutations => pure mutations
  | batch :: bound, base, mutations => do
    let rows := batch.numRows
    let lo := max start base - base
    let hi := min stop (base + rows) - base
    let mutations ← pushRows insertMutation target batch lo hi mutations
    let base := base + rows
    if base ≥ stop then return mutations
    buildLoop start stop bound base mutations

def buildRangeMutations (bound : List (Batch δ)) (start stop : Nat) : Except Error (List μ) :=
  buildLoop insertMutation target start stop bound 0 []

end Build

/-! ## The flattened rows -/

section Rows

variable {δ μ : Type}

def Batch.rows (batch : Batch δ) : List (Batch δ × Nat) :=
  (List.range batch.numRows).map fun row => (batch, row)

/-- All rows, in order: each with its batch and its place in the batch. -/
def flatRows (bound : List (Batch δ)) : List (Batch δ × Nat) := bound.flatMap Batch.rows

def rangeRows (bound : List (Batch δ)) (start stop : Nat) : List (Batch δ × Nat) :=
  ((flatRows bound).take stop).drop start

@[simp] theorem length_rows (batch : Batch δ) : batch.rows.length = batch.numRows := by
  simp [Batch.rows]

@[simp] theorem length_flatRows (bound : List (Batch δ)) :
    (flatRows bound).length = rowCount bound := by
  simp [flatRows, rowCount, List.length_flatMap]

theorem flatRows_cons (batch : Batch δ) (bound : List (Batch δ)) :
    flatRows (batch :: bound) = batch.rows ++ flatRows bound := by
  simp [flatRows]

/-- The mutations of some rows, up to the first row that cannot be converted. -/
def convertRows (insertMutation : List Char → Batch δ → Nat → Except Error μ) (target : List Char)
    (rows : List (Batch δ × Nat)) : Except Error (List μ) :=
  rows.mapM fun row => insertMutation target row.1 row.2

variable {insertMutation : List Char → Batch δ → Nat → Except Error μ} {target : List Char}

theorem convertRows_append (rows rows' : List (Batch δ × Nat)) :
    convertRows insertMutation target (rows ++ rows') = (do
      let ms ← convertRows insertMutation target rows
      let ms' ← convertRows insertMutation target rows'
      return ms ++ ms') :=
  List.mapM_append

theorem foldlM_push {α β : Type} (f : α → Except Error β) (as : List α) (bs : List β) :
    as.foldlM (fun bs a => do
      let b ← f a
      return bs ++ [b]) bs = (do return bs ++ (← as.mapM f)) := by
  induction as generalizing bs with
  | nil => simp
  | cons a as ih =>
    simp only [List.foldlM_cons, bind_assoc, pure_bind, ih, List.mapM_cons]
    simp

theorem rows_range {batch : Batch δ} (lo : Nat) {hi : Nat} (hhi : hi ≤ batch.numRows) :
    (batch.rows.take hi).drop lo = (List.range' lo (hi - lo)).map fun row => (batch, row) := by
  unfold Batch.rows
  rw [← List.map_take, ← List.map_drop, List.take_range, Nat.min_eq_left hhi, List.range_eq_range',
    List.drop_range', Nat.zero_add, Nat.mul_one]

/-- The rows `lo` to `hi - 1` of a batch. -/
theorem pushRows_eq {batch : Batch δ} (lo : Nat) {hi : Nat} (hhi : hi ≤ batch.numRows)
    (ms : List μ) : pushRows insertMutation target batch lo hi ms = (do
      return ms ++ (← convertRows insertMutation target ((batch.rows.take hi).drop lo))) := by
  unfold pushRows convertRows
  rw [rows_range lo hhi, foldlM_push, List.mapM_map]
  rfl

/-- The part of the range in the first batch, and the rest. -/
theorem range_cons (batch : Batch δ) (bound : List (Batch δ)) (start stop base : Nat) :
    ((flatRows (batch :: bound)).take (stop - base)).drop (start - base) =
      (batch.rows.take (min stop (base + batch.numRows) - base)).drop (max start base - base) ++
      ((flatRows bound).take (stop - (base + batch.numRows))).drop
        (start - (base + batch.numRows)) := by
  have htake : batch.rows.take (stop - base) =
      batch.rows.take (min stop (base + batch.numRows) - base) := by
    rcases Nat.le_total stop (base + batch.numRows) with h | h
    · rw [Nat.min_eq_left h]
    · rw [Nat.min_eq_right h, List.take_of_length_le (by rw [length_rows]; omega),
        List.take_of_length_le (by rw [length_rows]; omega)]
  have hstart : max start base - base = start - base := by omega
  rw [flatRows_cons, List.take_append, List.drop_append, htake, hstart, length_rows,
    Nat.sub_sub stop]
  congr 1
  rcases Nat.le_total stop (base + batch.numRows) with h | h
  · rw [Nat.sub_eq_zero_of_le h, List.take_zero, List.drop_nil, List.drop_nil]
  · have hlen : (batch.rows.take (min stop (base + batch.numRows) - base)).length =
        batch.numRows := by
      rw [List.length_take, length_rows]
      omega
    rw [hlen, Nat.sub_sub]

theorem buildLoop_eq (start stop : Nat) (bound : List (Batch δ)) (base : Nat) (ms : List μ) :
    buildLoop insertMutation target start stop bound base ms = (do
      return ms ++ (← convertRows insertMutation target
        (((flatRows bound).take (stop - base)).drop (start - base)))) := by
  induction bound generalizing base ms with
  | nil => simp [buildLoop, flatRows, convertRows]
  | cons batch bound ih =>
    have hhi : min stop (base + batch.numRows) - base ≤ batch.numRows := by omega
    rw [range_cons, convertRows_append]
    simp only [buildLoop, pushRows_eq _ hhi, bind_assoc, pure_bind]
    refine bind_congr fun ms' => ?_
    split
    · rename_i hstop
      rw [Nat.sub_eq_zero_of_le hstop, List.take_zero, List.drop_nil]
      simp [convertRows]
    · rw [ih]
      simp

/-- The mutations of a range are those of its rows. -/
theorem buildRangeMutations_eq (bound : List (Batch δ)) (start stop : Nat) :
    buildRangeMutations insertMutation target bound start stop =
      convertRows insertMutation target (rangeRows bound start stop) := by
  unfold buildRangeMutations
  rw [buildLoop_eq]
  simp [rangeRows]

end Rows

/-! ## Converted rows -/

section Convert

variable {δ μ : Type} {insertMutation : List Char → Batch δ → Nat → Except Error μ}
  {target : List Char} {rows : List (Batch δ × Nat)} {ms : List μ}

theorem convertRows_eq_ok : convertRows insertMutation target rows = .ok ms ↔
    List.Forall₂ (fun row m => insertMutation target row.1 row.2 = .ok m) rows ms :=
  Lib.mapM_eq_ok

@[simp] theorem convertRows_nil : convertRows insertMutation target [] = .ok [] := rfl

theorem length_of_convertRows (h : convertRows insertMutation target rows = .ok ms) :
    ms.length = rows.length :=
  (convertRows_eq_ok.mp h).length_eq.symm

theorem convertRows_take (n : Nat) (h : convertRows insertMutation target rows = .ok ms) :
    convertRows insertMutation target (rows.take n) = .ok (ms.take n) :=
  convertRows_eq_ok.mpr (List.forall₂_take n (convertRows_eq_ok.mp h))

theorem convertRows_drop (n : Nat) (h : convertRows insertMutation target rows = .ok ms) :
    convertRows insertMutation target (rows.drop n) = .ok (ms.drop n) :=
  convertRows_eq_ok.mpr (List.forall₂_drop n (convertRows_eq_ok.mp h))

theorem convertRows_append_ok {rows' : List (Batch δ × Nat)} {ms' : List μ}
    (h : convertRows insertMutation target rows = .ok ms)
    (h' : convertRows insertMutation target rows' = .ok ms') :
    convertRows insertMutation target (rows ++ rows') = .ok (ms ++ ms') := by
  rw [convertRows_append, h, h']
  rfl

variable {bound : List (Batch δ)} {start stop : Nat}

theorem length_rangeRows (h : stop ≤ rowCount bound) :
    (rangeRows bound start stop).length = stop - start := by
  rw [rangeRows, List.length_drop, List.length_take, length_flatRows]
  omega

theorem rangeRows_left {mid : Nat} (stop : Nat) (h₁ : start ≤ mid) (h₂ : mid ≤ stop) :
    rangeRows bound start mid = (rangeRows bound start stop).take (mid - start) := by
  unfold rangeRows
  rw [List.take_drop, List.take_take, Nat.add_sub_cancel' h₁, Nat.min_eq_left h₂]

theorem rangeRows_right {mid : Nat} (start : Nat) (h₁ : start ≤ mid) :
    rangeRows bound mid stop = (rangeRows bound start stop).drop (mid - start) := by
  unfold rangeRows
  rw [List.drop_drop, Nat.add_sub_cancel' h₁]

end Convert

end Ingest
end SpannerAdbc
