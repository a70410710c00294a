import SpannerAdbc.Binding.Agree
import SpannerAdbc.Ingest.Chunks

/-!
# SpannerAdbc.Ingest.Rebuild

The mutations that are rebuilt for a range of rows, on Arrow record batches: `insert_mutation` makes
them, and `build_range_mutations` addresses the rows. `getElem?_flatRows` says where a row of the
flattened sequence stands, by the rows of the batches in front of its own.

`buildRangeMutations` computes with unbounded numbers. `checkedBuild` has the arithmetic of the source,
the sums that may overflow and the reservation of the result included.
-/

namespace SpannerAdbc
namespace Ingest

open Arrow Binding
open SpannerAdbc.Stream (Value)

/-- An insert: the table and the named values of one row. -/
structure Mutation where
  table : List Char
  values : List (List Char × Value)

/-- A bound batch; its memory footprint is Arrow's own. -/
def Batch.ofRecordBatch (memory : RecordBatch → Nat) (batch : RecordBatch) : Batch RecordBatch where
  numRows := batch.numRows
  numColumns := batch.columns.length
  arrayMemorySize := memory batch
  columns := batch

/-- `insert_mutation`. -/
def insertMutation (C : Codec) (D : TypeDebug) (table : List Char) (batch : Batch RecordBatch)
    (row : Nat) : Except Error Mutation :=
  match Binding.insertMutation C batch.columns row with
  | .error e => .error (e.toError D)
  | .ok values => .ok { table, values }

/-! ## Where a row stands -/

section Rows

variable {δ : Type} {bound : List (Batch δ)} {r : Batch δ × Nat}

theorem getElem?_rows {batch : Batch δ} {k : Nat} :
    batch.rows[k]? = some r ↔ k < batch.numRows ∧ r = (batch, k) := by
  rw [Batch.rows, List.getElem?_map, Option.map_eq_some_iff]
  constructor
  · rintro ⟨row, hrow, rfl⟩
    obtain ⟨hk, rfl⟩ := List.getElem?_eq_some_iff.mp hrow
    rw [List.length_range] at hk
    exact ⟨hk, by rw [List.getElem_range]⟩
  · rintro ⟨hk, rfl⟩
    exact ⟨k, List.getElem?_range hk, rfl⟩

/-- A flattened row is a row of one of the batches, behind the rows of the batches in front. -/
theorem getElem?_flatRows {k : Nat} : (flatRows bound)[k]? = some r ↔
    ∃ before after, bound = before ++ r.1 :: after ∧ r.2 < r.1.numRows ∧
      k = rowCount before + r.2 := by
  induction bound generalizing k with
  | nil => simp [flatRows]
  | cons batch bound ih =>
    rw [flatRows_cons]
    rcases Nat.lt_or_ge k batch.numRows with hk | hk
    · rw [List.getElem?_append_left (by rwa [length_rows]), getElem?_rows]
      constructor
      · rintro ⟨-, rfl⟩
        exact ⟨[], bound, rfl, hk, by simp [rowCount]⟩
      · rintro ⟨before, after, hbound, hrow, rfl⟩
        cases before with
        | nil =>
          obtain ⟨rfl, rfl⟩ := List.cons.inj hbound
          exact ⟨hk, by simp [rowCount]⟩
        | cons b before =>
          obtain ⟨rfl, rfl⟩ := List.cons.inj hbound
          simp only [rowCount, List.map_cons, List.sum_cons] at hk
          omega
    · rw [List.getElem?_append_right (by rwa [length_rows]), length_rows, ih]
      constructor
      · rintro ⟨before, after, rfl, hrow, e⟩
        refine ⟨batch :: before, after, rfl, hrow, ?_⟩
        simp only [rowCount, List.map_cons, List.sum_cons] at e ⊢
        omega
      · rintro ⟨before, after, hbound, hrow, e⟩
        cases before with
        | nil =>
          obtain ⟨rfl, rfl⟩ := List.cons.inj hbound
          simp only [rowCount, List.map_nil, List.sum_nil] at e
          omega
        | cons b before =>
          obtain ⟨rfl, rfl⟩ := List.cons.inj hbound
          refine ⟨before, after, rfl, hrow, ?_⟩
          simp only [rowCount, List.map_cons, List.sum_cons] at e ⊢
          omega

theorem getElem?_rangeRows {start stop i : Nat} :
    (rangeRows bound start stop)[i]? = some r ↔ start + i < stop ∧
      (flatRows bound)[start + i]? = some r := by
  rw [rangeRows, List.getElem?_drop, List.getElem?_take]
  split
  · rename_i h
    simp [h]
  · rename_i h
    simp [h]

end Rows

/-! ## The arithmetic of the source -/

section Checked

variable {δ μ : Type} (insertMutation : List Char → Batch δ → Nat → Except Error μ)
  (target : List Char)

/-- `buildLoop` where a sum may overflow. -/
def checkedBuildLoop (start stop : Nat) :
    List (Batch δ) → Nat → List μ → Option (Except Error (List μ))
  | [], _, mutations => some (.ok mutations)
  | batch :: bound, base, mutations => do
    let rows := batch.numRows
    let lo := max start base - base
    let top ← checkedAdd base rows
    let hi := min stop top - base
    match pushRows insertMutation target batch lo hi mutations with
    | .error e => return .error e
    | .ok mutations =>
      let base ← checkedAdd base rows
      if base ≥ stop then return .ok mutations
      checkedBuildLoop start stop bound base mutations

/-- `build_range_mutations`, for mutations of so many bytes: `Vec::with_capacity` panics beyond
`isize::MAX` bytes. -/
def checkedBuild (size : Nat) (bound : List (Batch δ)) (start stop : Nat) :
    Option (Except Error (List μ)) :=
  if size * (stop - start) < 2 ^ 63 then checkedBuildLoop insertMutation target start stop bound 0 []
  else none

variable {insertMutation target}

/-- The sums never pass the number of rows. -/
theorem checkedBuildLoop_eq (start stop : Nat) (bound : List (Batch δ)) {base : Nat} (ms : List μ)
    (h : base + rowCount bound < 2 ^ 64) :
    checkedBuildLoop insertMutation target start stop bound base ms =
      some (buildLoop insertMutation target start stop bound base ms) := by
  induction bound generalizing base ms with
  | nil => rfl
  | cons batch bound ih =>
    have hcount : rowCount (batch :: bound) = batch.numRows + rowCount bound := by simp [rowCount]
    rw [hcount] at h
    have hadd : checkedAdd base batch.numRows = some (base + batch.numRows) := if_pos (by omega)
    rw [checkedBuildLoop, buildLoop]
    simp only [hadd, Option.bind_eq_bind, Option.bind_some]
    cases pushRows insertMutation target batch (max start base - base)
        (min stop (base + batch.numRows) - base) ms with
    | error e => rfl
    | ok ms' =>
      simp only [bind, Except.bind]
      split
      · rfl
      · exact ih ms' (by omega)

end Checked

/-- A range that is open at its end, which would be clipped to the rows: so many mutations cannot be
reserved, not even of one byte each and where there are no rows. -/
theorem open_range_not_reserved :
    checkedBuild (insertMutation plainCodec plainDebug) ['t'] 1 [] 0 (2 ^ 64 - 1) = none ∧
    convertRows (insertMutation plainCodec plainDebug) ['t'] (rangeRows [] 0 (2 ^ 64 - 1)) = .ok [] := by
  have hlarge : ¬ 1 * (2 ^ 64 - 1 - 0) < 2 ^ 63 := by decide
  exact ⟨if_neg hlarge, rfl⟩

/-! ## Ranges -/

theorem checkedBuild_eq {δ μ : Type} {insertMutation : List Char → Batch δ → Nat → Except Error μ}
    {target : List Char} {size : Nat} {bound : List (Batch δ)} {start stop : Nat}
    (hsize : size * (stop - start) < 2 ^ 63) (hrows : rowCount bound < 2 ^ 64) :
    checkedBuild insertMutation target size bound start stop =
      some (convertRows insertMutation target (rangeRows bound start stop)) := by
  rw [checkedBuild, if_pos hsize, checkedBuildLoop_eq start stop bound [] (by rwa [Nat.zero_add])]
  exact congrArg some (buildRangeMutations_eq bound start stop)

/-- The mutations of a range are those of its rows, in order and up to the first one that cannot be
converted; the two halves of a range make up the whole. The rows can be counted, and a vector for the
range can be reserved. -/
theorem range_mutations_address_rows (C : Codec) (D : TypeDebug) (memory : RecordBatch → Nat)
    (target : List Char) (size : Nat) (batches : List RecordBatch) (start stop : Nat)
    (hsize : size * (stop - start) < 2 ^ 63)
    (hrows : rowCount (batches.map (Batch.ofRecordBatch memory)) < 2 ^ 64) :
    let bound := batches.map (Batch.ofRecordBatch memory)
    let build := checkedBuild (insertMutation C D) target size bound
    build start stop = some (convertRows (insertMutation C D) target (rangeRows bound start stop)) ∧
    (rangeRows bound start stop).length = min stop (rowCount bound) - start ∧
    (stop ≤ start → build start stop = some (.ok [])) ∧
    (∀ i batch row, (rangeRows bound start stop)[i]? = some (batch, row) ↔ start + i < stop ∧
      ∃ before after, bound = before ++ batch :: after ∧ row < batch.numRows ∧
        start + i = rowCount before + row) ∧
    (∀ mid, start ≤ mid → mid ≤ stop →
      rangeRows bound start mid ++ rangeRows bound mid stop = rangeRows bound start stop ∧
      ∃ left right, build start mid = some left ∧ build mid stop = some right ∧
        build start stop = some (do
          let ms ← left
          let ms' ← right
          return ms ++ ms')) := by
  intro bound build
  have hbuild {a b : Nat} (ha : start ≤ a) (hb : b ≤ stop) :
      build a b = some (convertRows (insertMutation C D) target (rangeRows bound a b)) := by
    have hle : size * (b - a) ≤ size * (stop - start) := Nat.mul_le_mul_left size (by omega)
    exact checkedBuild_eq (by omega) hrows
  have hlength : (rangeRows bound start stop).length = min stop (rowCount bound) - start := by
    rw [rangeRows, List.length_drop, List.length_take, length_flatRows]
  refine ⟨hbuild le_rfl le_rfl, hlength, ?_, ?_, ?_⟩
  · intro h
    have hempty : rangeRows bound start stop = [] := by
      rw [← List.length_eq_zero_iff, hlength]
      omega
    rw [hbuild le_rfl le_rfl, hempty, convertRows_nil]
  · intro i batch row
    rw [getElem?_rangeRows, getElem?_flatRows]
  · intro mid h₁ h₂
    have happend : rangeRows bound start mid ++ rangeRows bound mid stop =
        rangeRows bound start stop := rangeRows_append h₁ h₂
    refine ⟨happend, _, _, hbuild le_rfl h₂, hbuild h₁ le_rfl, ?_⟩
    rw [hbuild le_rfl le_rfl, ← happend, convertRows_append]

/-- A batch with one column of letters. -/
def letters (values : List Char) : RecordBatch where
  schema := [.new "letter".toList .utf8 false]
  columns := [.scalars .utf8 (values.map fun c => some (.text [c]))]
  numRows := values.length
  types := rfl
  lengths := by simp [ArrayData.length]
  nulls := by
    intro fc hfc _ i
    obtain rfl := List.mem_singleton.mp hfc
    simp [ArrayData.isNull]
  valid := by
    intro column hcolumn
    obtain rfl := List.mem_singleton.mp hcolumn
    refine ⟨rfl, ?_⟩
    simp [Scalar.fits]

/-- The rows 1 to 8 of three batches with three rows, of which the second one is empty: the last two
rows, one in each half. -/
theorem range_mutations_address_rows_letters :
    let bound := [letters ['a', 'b'], letters [], letters ['c']].map (Batch.ofRecordBatch fun _ => 0)
    let build := checkedBuild (insertMutation plainCodec plainDebug) ['t'] 64 bound
    (rangeRows bound 1 9).length = 2 ∧
    build 5 3 = some (.ok []) ∧
    ∃ left right, build 1 2 = some left ∧ build 2 9 = some right ∧
      build 1 9 = some (do
        let ms ← left
        let ms' ← right
        return ms ++ ms') := by
  intro bound build
  have hrange := range_mutations_address_rows plainCodec plainDebug (fun _ => 0) ['t'] 64
    [letters ['a', 'b'], letters [], letters ['c']]
  obtain ⟨-, hlength, -, -, hhalves⟩ := hrange 1 9 (by decide) (by decide)
  obtain ⟨-, -, hempty, -, -⟩ := hrange 5 3 (by decide) (by decide)
  exact ⟨hlength, hempty (by decide), (hhalves 2 (by decide) (by decide)).2⟩

end Ingest
end SpannerAdbc
