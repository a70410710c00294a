import SpannerAdbc.Basic

/-!
# SpannerAdbc.Stream.Chunk

Rows of a Spanner result set and `pull_chunk`, which cuts them into chunks by two budgets: a number
of rows and an approximate number of bytes.

A `Source` is the rest of a result set: the rows the server will still deliver, and the error that
follows them if the stream fails. `pullChunk_ok` and `pullChunk_error_iff` say what a pull returns
and what it leaves behind.
-/

namespace SpannerAdbc
namespace Stream

/-- The kinds of a Spanner value on the wire. -/
inductive Value where
  | null
  | bool (value : Bool)
  | number (bits : UInt64)
  | string (value : String)
  | list (values : List Value)
  | struct (fields : List (String × Value))

mutual

def approxValueBytes : Value → Nat
  | .null => 0
  | .bool _ => 1
  | .number _ => 8
  | .string value => value.utf8ByteSize
  | .list values => approxListBytes values
  | .struct fields => approxFieldsBytes fields

def approxListBytes : List Value → Nat
  | [] => 0
  | value :: values => approxValueBytes value + approxListBytes values

def approxFieldsBytes : List (String × Value) → Nat
  | [] => 0
  | (_, value) :: fields => approxValueBytes value + approxFieldsBytes fields

end

abbrev Row := List Value

def approxRowBytes (row : Row) : Nat := (row.map approxValueBytes).sum

def chunkByteBudget : Nat := 32 * 1024 * 1024

structure Source where
  rows : List Row
  failure : Option Error

/-- The loop of `pull_chunk`: the chunk so far, its bytes, and the rows the server still delivers. -/
def pullLoop (max : Nat) (failure : Option Error) :
    List Row → List Row → Nat → Except Error (List Row) × List Row
  | [], rows, _ =>
    if rows.length < max then
      match failure with
      | some e => (.error e, [])
      | none => (.ok rows, [])
    else (.ok rows, [])
  | row :: src, rows, bytes =>
    if rows.length < max then
      let bytes := saturatingAdd bytes (approxRowBytes row)
      let rows := rows ++ [row]
      if bytes ≥ chunkByteBudget then (.ok rows, src) else pullLoop max failure src rows bytes
    else (.ok rows, row :: src)

def pullChunk (max : Nat) (src : Source) : Except Error (List Row) × Source :=
  let r := pullLoop max src.failure src.rows [] 0
  (r.1, { src with rows := r.2 })

/-- The bytes of a chunk, as `pull_chunk` counts them. -/
def rowsBytes (rows : List Row) : Nat := (rows.map approxRowBytes).sum

/-- What `pull_chunk` promises of a chunk: at most `max` rows, and all rows but the last are within
the byte budget. -/
structure Chunk (max : Nat) (rows : List Row) : Prop where
  length_le : rows.length ≤ max
  bytes_lt : rowsBytes rows.dropLast < chunkByteBudget

theorem rowsBytes_append (rows rows' : List Row) :
    rowsBytes (rows ++ rows') = rowsBytes rows + rowsBytes rows' := by
  simp [rowsBytes]

theorem saturatingAdd_lt {a b : Nat} (h : saturatingAdd a b < chunkByteBudget) :
    saturatingAdd a b = a + b := by
  unfold saturatingAdd chunkByteBudget at *
  omega

theorem rowsBytes_dropLast_le (rows : List Row) : rowsBytes rows.dropLast ≤ rowsBytes rows := by
  cases hr : rows.reverse with
  | nil =>
    rw [List.reverse_eq_nil_iff.mp hr]
    exact Nat.le_refl _
  | cons row rest =>
    have e : rows = rest.reverse ++ [row] := by
      rw [← List.reverse_reverse rows, hr, List.reverse_cons]
    rw [e, List.dropLast_concat, rowsBytes_append]
    omega

/-- What the loop returns when it starts with the chunk `rows`: what it adds it takes off the source,
and it fails only behind all rows of the source. -/
def PullSpec (max : Nat) (failure : Option Error) (src rows : List Row) :
    Except Error (List Row) × List Row → Prop
  | (.ok out, rest) => ∃ more, out = rows ++ more ∧ src = more ++ rest ∧ Chunk max out ∧
      (more = [] → rows.length = max ∨ (src = [] ∧ failure = none))
  | (.error e, _) => failure = some e ∧ rows.length + src.length < max ∧
      rowsBytes rows + rowsBytes src < chunkByteBudget

variable {max bytes : Nat} {rows src : List Row} {failure : Option Error} {e : Error}

theorem pullLoop_full (h : ¬ rows.length < max) :
    pullLoop max failure src rows bytes = (.ok rows, src) := by
  cases src with
  | nil =>
    unfold pullLoop
    exact if_neg h
  | cons row src =>
    unfold pullLoop
    exact if_neg h

theorem pullLoop_spec (hb : bytes = rowsBytes rows) (hlt : bytes < chunkByteBudget)
    (hlen : rows.length ≤ max) :
    PullSpec max failure src rows (pullLoop max failure src rows bytes) := by
  induction src generalizing rows bytes with
  | nil =>
    have hchunk : Chunk max rows := by
      have := rowsBytes_dropLast_le rows
      exact ⟨hlen, by omega⟩
    by_cases hmax : rows.length < max
    · cases failure with
      | none =>
        rw [pullLoop, if_pos hmax]
        exact ⟨[], by simp, rfl, hchunk, fun _ => .inr ⟨rfl, rfl⟩⟩
      | some e =>
        rw [pullLoop, if_pos hmax]
        exact ⟨rfl, hmax, by rw [← hb]; exact hlt⟩
    · rw [pullLoop_full hmax]
      exact ⟨[], by simp, rfl, hchunk, fun _ => .inl (by omega)⟩
  | cons row src ih =>
    by_cases hmax : rows.length < max
    · have hlen' : (rows ++ [row]).length ≤ max := by
        rw [List.length_append, List.length_singleton]
        omega
      by_cases hfull : saturatingAdd bytes (approxRowBytes row) ≥ chunkByteBudget
      · have heq : pullLoop max failure (row :: src) rows bytes = (.ok (rows ++ [row]), src) := by
          rw [pullLoop, if_pos hmax]
          exact if_pos hfull
        have hbytes : rowsBytes (rows ++ [row]).dropLast < chunkByteBudget := by
          rw [List.dropLast_concat]
          omega
        rw [heq]
        exact ⟨[row], rfl, rfl, ⟨hlen', hbytes⟩, by simp⟩
      · have heq : pullLoop max failure (row :: src) rows bytes =
            pullLoop max failure src (rows ++ [row])
              (saturatingAdd bytes (approxRowBytes row)) := by
          rw [pullLoop, if_pos hmax]
          exact if_neg hfull
        have hlt' : saturatingAdd bytes (approxRowBytes row) < chunkByteBudget := by omega
        have hb' : saturatingAdd bytes (approxRowBytes row) = rowsBytes (rows ++ [row]) := by
          rw [saturatingAdd_lt hlt', rowsBytes_append, hb]
          simp [rowsBytes]
        have hspec := ih hb' hlt' hlen'
        rw [heq]
        generalize pullLoop max failure src (rows ++ [row]) _ = r at hspec ⊢
        obtain ⟨res, rest⟩ := r
        cases res with
        | ok out =>
          obtain ⟨more, rfl, rfl, hc, -⟩ := hspec
          exact ⟨row :: more, by simp, rfl, hc, by simp⟩
        | error e =>
          obtain ⟨hf, hl, hbytes⟩ := hspec
          rw [List.length_append, List.length_singleton] at hl
          rw [← rowsBytes_append, List.append_assoc, List.singleton_append, rowsBytes_append] at hbytes
          exact ⟨hf, by rw [List.length_cons]; omega, hbytes⟩
    · have hchunk : Chunk max rows := by
        have := rowsBytes_dropLast_le rows
        exact ⟨hlen, by omega⟩
      rw [pullLoop_full hmax]
      exact ⟨[], by simp, rfl, hchunk, fun _ => .inl (by omega)⟩

theorem pullChunk_spec (max : Nat) (src : Source) :
    PullSpec max src.failure src.rows [] (pullLoop max src.failure src.rows [] 0) :=
  pullLoop_spec rfl (by decide) (Nat.zero_le _)

/-- A pulled chunk is a prefix of the source. It is empty only at the end of a source that does not
fail. -/
theorem pullChunk_ok {src src' : Source} (h : pullChunk max src = (.ok rows, src')) :
    src.rows = rows ++ src'.rows ∧
      src'.failure = src.failure ∧ Chunk max rows ∧
      (0 < max → rows = [] → src.rows = [] ∧ src.failure = none) := by
  have hspec := pullChunk_spec max src
  obtain ⟨h1, rfl⟩ := Prod.mk.inj h
  rw [show pullLoop max src.failure src.rows [] 0 = (.ok rows, _) from Prod.ext h1 rfl] at hspec
  obtain ⟨more, hmore, hsrc, hc, hempty⟩ := hspec
  rw [List.nil_append] at hmore
  subst hmore
  refine ⟨hsrc, rfl, hc, ?_⟩
  intro hpos hnil
  rcases hempty hnil with hz | he
  · rw [List.length_nil] at hz
    omega
  · exact he

/-- A source that fails before a chunk is full. -/
theorem pullLoop_fails (hb : bytes = rowsBytes rows) (hlen : rows.length + src.length < max)
    (hbytes : rowsBytes rows + rowsBytes src < chunkByteBudget) :
    pullLoop max (some e) src rows bytes = (.error e, []) := by
  induction src generalizing rows bytes with
  | nil =>
    rw [List.length_nil] at hlen
    unfold pullLoop
    exact if_pos hlen
  | cons row src ih =>
    rw [List.length_cons] at hlen
    have hrow : rowsBytes (row :: src) = approxRowBytes row + rowsBytes src := by
      simp [rowsBytes]
    have hrows : rowsBytes (rows ++ [row]) = rowsBytes rows + approxRowBytes row := by
      rw [rowsBytes_append]
      simp [rowsBytes]
    have hadd : saturatingAdd bytes (approxRowBytes row) = rowsBytes (rows ++ [row]) := by
      rw [hrows, hb]
      unfold saturatingAdd
      unfold chunkByteBudget at hbytes
      omega
    have hlt : ¬ saturatingAdd bytes (approxRowBytes row) ≥ chunkByteBudget := by
      rw [hadd, hrows]
      omega
    have hmax : rows.length < max := by omega
    rw [pullLoop, if_pos hmax]
    refine (if_neg hlt).trans (ih hadd ?_ ?_)
    · rw [List.length_append, List.length_singleton]
      omega
    · rw [hrows]
      omega

theorem pullChunk_fails {src : Source} (hf : src.failure = some e) (hl : src.rows.length < max)
    (hbytes : rowsBytes src.rows < chunkByteBudget) :
    pullChunk max src = (.error e, { src with rows := [] }) := by
  have hnil : rowsBytes [] = 0 := rfl
  have hfails : pullLoop max (some e) src.rows [] 0 = (.error e, []) :=
    pullLoop_fails rfl (by rw [List.length_nil]; omega) (by omega)
  unfold pullChunk
  rw [hf, hfails]

/-- A pull fails exactly where the source fails before the chunk is full. -/
theorem pullChunk_error_iff {src : Source} :
    (pullChunk max src).1 = .error e ↔
      src.failure = some e ∧ src.rows.length < max ∧ rowsBytes src.rows < chunkByteBudget := by
  constructor
  · intro h
    have hspec := pullChunk_spec max src
    rw [show pullLoop max src.failure src.rows [] 0 = (.error e, _) from Prod.ext h rfl] at hspec
    obtain ⟨hf, hl, hbytes⟩ := hspec
    have hnil : rowsBytes [] = 0 := rfl
    rw [List.length_nil] at hl
    exact ⟨hf, by omega, by omega⟩
  · rintro ⟨hf, hl, hbytes⟩
    rw [pullChunk_fails hf hl hbytes]

end Stream
end SpannerAdbc
