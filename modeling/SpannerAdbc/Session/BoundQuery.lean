import SpannerAdbc.Ingest.Range
import SpannerAdbc.Session.Statement
import SpannerAdbc.Stream.Delivery
import SpannerAdbc.Stream.Pipeline

/-!
# SpannerAdbc.Session.BoundQuery

The reader behind `Call.boundQuery`: a query that runs once for each of several bound rows.

`LazyBoundStatements` is a cursor over the bound batches that builds the statement of a row when it is
asked for one. `next_bound_chunk` drains the result set of one statement and then executes the next;
results without rows are passed over. `RowsRun` says what running the statements one after the other
gives, and `drains_statements` that the chunks of the source are just that.
-/

namespace SpannerAdbc
namespace Session

open Lib Ingest Lib.Prog
open SpannerAdbc.Stream (Row Source BatchReader Chunk Cut Drains Out pullChunk)

variable {K : Client} {groups : List (List (List Char) × Batch K.Data)} {self : Statement K}

/-! ## The statements -/

/-- `bind_params` and `build`. -/
def bindRow (base : SpannerSql K) (names : List (List Char)) (batch : Batch K.Data) (row : Nat) :
    Except Error (SpannerSql K) := do
  let params ← K.bindParams names batch row
  return { base with params := some params }

structure LazyBoundStatements (K : Client) where
  base : SpannerSql K
  groups : List (List (List Char) × Batch K.Data)
  group : Nat
  row : Nat

namespace LazyBoundStatements

def nextStatement (statements : LazyBoundStatements K) :
    Option (Except Error (SpannerSql K)) × LazyBoundStatements K :=
  match _h : statements.groups[statements.group]? with
  | none => (none, statements)
  | some (names, batch) =>
    if statements.row ≥ batch.numRows then
      nextStatement { statements with group := statements.group + 1, row := 0 }
    else
      (some (bindRow statements.base names batch statements.row),
        { statements with row := statements.row + 1 })
termination_by statements.groups.length - statements.group
decreasing_by
  have := (List.getElem?_eq_some_iff.mp _h).1
  omega

/-- The statements of all rows of some groups. -/
def ofGroups (base : SpannerSql K) (groups : List (List (List Char) × Batch K.Data)) :
    List (Except Error (SpannerSql K)) :=
  groups.flatMap fun group => (List.range group.2.numRows).map (bindRow base group.1 group.2)

/-- The statements that the cursor has not reached. -/
def rest (statements : LazyBoundStatements K) : List (Except Error (SpannerSql K)) :=
  match statements.groups.drop statements.group with
  | [] => []
  | (names, batch) :: groups =>
    (List.range' statements.row (batch.numRows - statements.row)).map
      (bindRow statements.base names batch) ++ ofGroups statements.base groups

variable {statements : LazyBoundStatements K}

theorem rest_of_row_zero (h : statements.row = 0) :
    statements.rest = ofGroups statements.base (statements.groups.drop statements.group) := by
  rw [rest, h]
  cases statements.groups.drop statements.group with
  | nil => rfl
  | cons group groups =>
    rw [ofGroups, List.flatMap_cons, List.range_eq_range']
    rfl

theorem rest_of_group {names : List (List Char)} {batch : Batch K.Data}
    (h : statements.groups[statements.group]? = some (names, batch)) :
    statements.rest = (List.range' statements.row (batch.numRows - statements.row)).map
      (bindRow statements.base names batch) ++
        ofGroups statements.base (statements.groups.drop (statements.group + 1)) := by
  obtain ⟨hlt, heq⟩ := List.getElem?_eq_some_iff.mp h
  rw [rest, List.drop_eq_getElem_cons hlt, heq]

/-- The cursor gives the statements one by one. -/
theorem nextStatement_eq (statements : LazyBoundStatements K) :
    statements.nextStatement.1 = statements.rest.head? ∧
      statements.nextStatement.2.rest = statements.rest.tail := by
  fun_induction nextStatement statements with
  | case1 statements h =>
    have hrest : statements.rest = [] := by
      rw [rest, List.drop_eq_nil_of_le (List.getElem?_eq_none_iff.mp h)]
    simp [hrest]
  | case2 statements names batch h hge ih =>
    have hrest : statements.rest =
        { statements with group := statements.group + 1, row := 0 }.rest := by
      refine .trans ?_ (rest_of_row_zero rfl).symm
      rw [rest_of_group h, Nat.sub_eq_zero_of_le hge]
      rfl
    rw [hrest]
    exact ih
  | case3 statements names batch h hlt =>
    have hnext : { statements with row := statements.row + 1 }.rest =
        (List.range' (statements.row + 1) (batch.numRows - (statements.row + 1))).map
          (bindRow statements.base names batch) ++
            ofGroups statements.base (statements.groups.drop (statements.group + 1)) :=
      rest_of_group h
    have hsub : batch.numRows - statements.row = batch.numRows - (statements.row + 1) + 1 := by omega
    rw [hnext, rest_of_group h, hsub, List.range'_succ]
    exact ⟨rfl, rfl⟩

theorem length_rest_lt {statements' : LazyBoundStatements K}
    {statement : Except Error (SpannerSql K)}
    (h : statements.nextStatement = (some statement, statements')) :
    statements'.rest.length < statements.rest.length := by
  have hspec := statements.nextStatement_eq
  rw [h] at hspec
  cases hrest : statements.rest with
  | nil =>
    rw [hrest] at hspec
    cases hspec.1
  | cons head tail =>
    rw [hspec.2, hrest]
    exact Nat.lt_succ_self _

end LazyBoundStatements

/-! ## The source of the chunks -/

/-- The prefetch task's view of a bound query. `calls` are the calls of the client library so far. -/
structure BoundQueryChunks (K : Client) where
  transaction : K.Handle
  statements : LazyBoundStatements K
  resultSet : Option Source
  batchSize : Nat
  calls : List (Call K)

/-- The first half of the loop: the next chunk of the result set. A drained one is dropped. -/
def BoundQueryChunks.pull (s : BoundQueryChunks K) : Except Error (List Row) × Option Source :=
  match s.resultSet with
  | none => (.ok [], none)
  | some rs =>
    match pullChunk s.batchSize rs with
    | (.ok [], _) => (.ok [], none)
    | (.ok (row :: rows), rs) => (.ok (row :: rows), some rs)
    | (.error e, rs) => (.error e, some rs)

/-- A source none of whose statements has been executed. -/
def BoundQueryChunks.start (transaction : K.Handle) (statements : LazyBoundStatements K)
    (batchSize : Nat) (calls : List (Call K)) : BoundQueryChunks K where
  transaction := transaction
  statements := statements
  resultSet := none
  batchSize := batchSize
  calls := calls

section Server

-- the outcome of the last query, by the calls so far
variable (serve : List (Call K) → Except Error Source)

def nextBoundChunk (s : BoundQueryChunks K) :
    Except Error (Option (List Row)) × BoundQueryChunks K :=
  match s.pull with
  | (.error e, resultSet) => (.error e, { s with resultSet })
  | (.ok (row :: rows), resultSet) => (.ok (some (row :: rows)), { s with resultSet })
  | (.ok [], resultSet) =>
    match _h : s.statements.nextStatement with
    | (none, statements) => (.ok none, { s with resultSet, statements })
    | (some (.error e), statements) => (.error e, { s with resultSet, statements })
    | (some (.ok statement), statements) =>
      match serve (s.calls ++ [.readQuery s.transaction statement]) with
      | .error e =>
        (.error e, { s with
          resultSet, statements, calls := s.calls ++ [.readQuery s.transaction statement] })
      | .ok rs =>
        nextBoundChunk { s with
          resultSet := some rs, statements
          calls := s.calls ++ [.readQuery s.transaction statement] }
termination_by s.statements.rest.length
decreasing_by exact LazyBoundStatements.length_rest_lt _h

/-- `BoundQueryChunks::next_chunk`: a drained source gives an empty chunk. -/
def nextChunk (s : BoundQueryChunks K) : Except Error (List Row) × BoundQueryChunks K :=
  ((nextBoundChunk serve s).1.map (·.getD []), (nextBoundChunk serve s).2)

/-- The reader, or why there is none, and the calls made so far. `schema` stands for `build_schema`. -/
def streamBoundQuery (schema : Option Row → Except Error Unit) (transaction : K.Handle)
    (statements : LazyBoundStatements K) (batchSize : Nat) (calls : List (Call K)) :
    Except Error (BatchReader (BoundQueryChunks K)) × List (Call K) :=
  match statements.nextStatement with
  | (none, statements) =>
    (.ok (.start none { transaction, statements, resultSet := none, batchSize, calls }), calls)
  | (some (.error e), _) => (.error e, calls)
  | (some (.ok statement), statements) =>
    let calls := calls ++ [.readQuery transaction statement]
    match serve calls with
    | .error e => (.error e, calls)
    | .ok rs =>
      match pullChunk batchSize rs with
      | (.error e, _) => (.error e, calls)
      | (.ok rows, rs) =>
        match schema rows.head? with
        | .error e => (.error e, calls)
        | .ok () =>
          (.ok (.start (some rows)
            { transaction, statements, resultSet := some rs, batchSize, calls }), calls)

/-! ## One turn of the loop -/

section Turn

variable {serve} {s : BoundQueryChunks K} {resultSet : Option Source}
  {statements : LazyBoundStatements K} {rs rs' : Source}

/-- The second half of the loop, when there is no chunk left in the result set. -/
theorem nextChunk_next (h : s.pull = (.ok [], resultSet)) : nextChunk serve s =
    match s.statements.nextStatement with
    | (none, statements) => (.ok [], { s with resultSet, statements })
    | (some (.error e), statements) => (.error e, { s with resultSet, statements })
    | (some (.ok statement), statements) =>
      match serve (s.calls ++ [.readQuery s.transaction statement]) with
      | .error e =>
        (.error e, { s with
          resultSet, statements, calls := s.calls ++ [.readQuery s.transaction statement] })
      | .ok rs =>
        nextChunk serve { s with
          resultSet := some rs, statements
          calls := s.calls ++ [.readQuery s.transaction statement] } := by
  rw [nextChunk, nextBoundChunk, h]
  rcases hnext : s.statements.nextStatement with ⟨_ | e | statement, statements⟩
  · rfl
  · rfl
  · dsimp only
    cases serve (s.calls ++ [.readQuery s.transaction statement]) with
    | error e => rfl
    | ok rs => rfl

theorem pull_of_none (h : s.resultSet = none) : s.pull = (.ok [], none) := by
  rw [BoundQueryChunks.pull, h]

theorem nextChunk_error {e : Error} (hrs : s.resultSet = some rs)
    (hq : pullChunk s.batchSize rs = (.error e, rs')) :
    nextChunk serve s = (.error e, { s with resultSet := some rs' }) := by
  rw [nextChunk, nextBoundChunk, BoundQueryChunks.pull, hrs]
  dsimp only
  rw [hq]
  rfl

theorem nextChunk_rows {rows : List Row} (hrs : s.resultSet = some rs)
    (hq : pullChunk s.batchSize rs = (.ok rows, rs')) (hne : rows ≠ []) :
    nextChunk serve s = (.ok rows, { s with resultSet := some rs' }) := by
  cases rows with
  | nil => exact absurd rfl hne
  | cons row rows =>
    rw [nextChunk, nextBoundChunk, BoundQueryChunks.pull, hrs]
    dsimp only
    rw [hq]
    rfl

/-- A drained result set is passed over. -/
theorem nextChunk_drained (hrs : s.resultSet = some rs)
    (hq : pullChunk s.batchSize rs = (.ok [], rs')) :
    nextChunk serve s = nextChunk serve { s with resultSet := none } := by
  have hpull : s.pull = (.ok [], none) := by
    rw [BoundQueryChunks.pull, hrs]
    dsimp only
    rw [hq]
  rw [nextChunk_next hpull, nextChunk_next (pull_of_none rfl)]

/-- The calls that were made stay made. -/
theorem calls_nextChunk (s : BoundQueryChunks K) : s.calls <+: (nextChunk serve s).2.calls := by
  have hbound : s.calls <+: (nextBoundChunk serve s).2.calls := by
    fun_induction nextBoundChunk serve s with
    | case1 | case2 | case3 | case4 => exact List.prefix_rfl
    | case5 => exact List.prefix_append _ _
    | case6 _ _ _ _ _ _ _ _ ih => exact (List.prefix_append _ _).trans ih
  exact hbound

end Turn

/-! ## The statements one after the other -/

/-- How the statements `stmts` end that were executed as far as `sts`: `broken` are the chunks of a
result whose stream fails. -/
inductive RowsEnd (serve : List (Call K) → Except Error Source) (txn : K.Handle) (max : Nat)
    (log : List (Call K)) (stmts : List (Except Error (SpannerSql K))) (sts : List (SpannerSql K))
    (results : Nat) : List (List Row) → Option Error → Prop where
  | all : stmts = sts.map .ok → results = sts.length →
      RowsEnd serve txn max log stmts sts results [] none
  | bind {e : Error} : stmts[sts.length]? = some (.error e) → results = sts.length →
      RowsEnd serve txn max log stmts sts results [] (some e)
  | execute {e : Error} : sts.length = results + 1 →
      serve (log ++ sts.map (.readQuery txn)) = .error e →
      RowsEnd serve txn max log stmts sts results [] (some e)
  | stream {e : Error} {rs : Source} {broken : List (List Row)} : sts.length = results + 1 →
      serve (log ++ sts.map (.readQuery txn)) = .ok rs → rs.failure = some e →
      broken.flatten <+: rs.rows → Cut max broken →
      RowsEnd serve txn max log stmts sts results broken (some e)

/-- The statements `stmts`, one for each bound row, run one after the other in one transaction. `sts`
are the ones that were executed, and `cuts` has the chunks of each complete result. -/
structure RowsRun (serve : List (Call K) → Except Error Source) (txn : K.Handle) (max : Nat)
    (log : List (Call K)) (stmts : List (Except Error (SpannerSql K))) (sts : List (SpannerSql K))
    (cuts : List (List (List Row))) (broken : List (List Row)) (failure : Option Error) : Prop where
  statements : sts.map .ok <+: stmts
  results : ∀ i cut, cuts[i]? = some cut → ∃ rs,
    serve (log ++ (sts.take (i + 1)).map (.readQuery txn)) = .ok rs ∧ rs.failure = none ∧
      cut.flatten = rs.rows
  pieces : ∀ cut ∈ cuts, Cut max cut
  ending : RowsEnd serve txn max log stmts sts cuts.length broken failure

section Rows

variable {serve} {txn : K.Handle} {max : Nat} {log : List (Call K)} {st : SpannerSql K}
  {stmts : List (Except Error (SpannerSql K))} {sts : List (SpannerSql K)}
  {cuts : List (List (List Row))} {broken : List (List Row)} {failure : Option Error}

/-- Nothing has a result yet. -/
theorem RowsRun.of_end (hsts : sts.map .ok <+: stmts)
    (h : RowsEnd serve txn max log stmts sts 0 broken failure) :
    RowsRun serve txn max log stmts sts [] broken failure where
  statements := hsts
  results := by simp
  pieces := by simp
  ending := h

theorem RowsEnd.cons {results : Nat}
    (h : RowsEnd serve txn max (log ++ [.readQuery txn st]) stmts sts results broken failure) :
    RowsEnd serve txn max log (.ok st :: stmts) (st :: sts) (results + 1) broken failure := by
  have hcalls : log ++ (st :: sts).map (.readQuery txn) =
      log ++ [.readQuery txn st] ++ sts.map (.readQuery txn) := by simp
  cases h with
  | all hall hlen => exact .all (by rw [hall]; rfl) (congrArg (· + 1) hlen)
  | bind hb hlen => exact .bind hb (congrArg (· + 1) hlen)
  | execute hlen hserve => exact .execute (congrArg (· + 1) hlen) (hcalls ▸ hserve)
  | stream hlen hserve hf hpre hcut =>
    exact .stream (congrArg (· + 1) hlen) (hcalls ▸ hserve) hf hpre hcut

/-- A statement with a complete result, in front of the others. -/
theorem RowsRun.cons {rs : Source} {cut : List (List Row)}
    (hserve : serve (log ++ [.readQuery txn st]) = .ok rs) (hfail : rs.failure = none)
    (hrows : cut.flatten = rs.rows) (hcut : Cut max cut)
    (h : RowsRun serve txn max (log ++ [.readQuery txn st]) stmts sts cuts broken failure) :
    RowsRun serve txn max log (.ok st :: stmts) (st :: sts) (cut :: cuts) broken failure where
  statements := by
    rw [List.map_cons]
    exact List.cons_prefix_cons.mpr ⟨rfl, h.statements⟩
  results := by
    intro i c hc
    cases i with
    | zero =>
      cases hc
      exact ⟨rs, hserve, hfail, hrows⟩
    | succ i =>
      obtain ⟨rs', hserve', hrest⟩ := h.results i c hc
      refine ⟨rs', ?_, hrest⟩
      rw [List.append_assoc, List.singleton_append] at hserve'
      exact hserve'
  pieces := by
    intro c hc
    rcases List.mem_cons.mp hc with rfl | hc
    · exact hcut
    · exact h.pieces c hc
  ending := h.ending.cons

end Rows

/-! ## The chunks of the source -/

/-- What a result set adds to the chunks. -/
theorem drains_result (s : BoundQueryChunks K) (hmax : 0 < s.batchSize) (rs : Source)
    (hrs : s.resultSet = some rs) : ∃ cut, Cut s.batchSize cut ∧
      ((rs.failure = none ∧ cut.flatten = rs.rows ∧ ∀ chunks failure s',
          Drains (nextChunk serve) { s with resultSet := none } chunks failure s' →
            Drains (nextChunk serve) s (cut ++ chunks) failure s') ∨
        ∃ e s', rs.failure = some e ∧ cut.flatten <+: rs.rows ∧
          Drains (nextChunk serve) s cut (some e) s' ∧ s'.calls = s.calls) := by
  -- on the number of rows that are left in the result set
  induction hn : rs.rows.length using Nat.strongRecOn generalizing s rs with
  | ind n ih =>
    rcases hq : pullChunk s.batchSize rs with ⟨e | _ | ⟨row, rows⟩, rs'⟩
    · have hfail := (Stream.pullChunk_error_iff.mp (congrArg Prod.fst hq)).1
      exact ⟨[], by simp [Cut],
        .inr ⟨e, _, hfail, List.nil_prefix, .fail (nextChunk_error hrs hq), rfl⟩⟩
    · obtain ⟨-, -, -, hempty⟩ := Stream.pullChunk_ok hq
      obtain ⟨hnil, hnone⟩ := hempty hmax rfl
      refine ⟨[], by simp [Cut], .inl ⟨hnone, hnil.symm, fun chunks failure s' hd => ?_⟩⟩
      exact hd.of_eq (nextChunk_drained hrs hq)
    · obtain ⟨hrows, hfail, hchunk, -⟩ := Stream.pullChunk_ok hq
      have hlt : rs'.rows.length < n := by
        rw [← hn, hrows, List.length_append, List.length_cons]
        omega
      have hnext : nextChunk serve s = _ := nextChunk_rows hrs hq (List.cons_ne_nil row rows)
      obtain ⟨cut, hcut, h⟩ := ih _ hlt { s with resultSet := some rs' } hmax rs' rfl rfl
      refine ⟨(row :: rows) :: cut, ?_, ?_⟩
      · intro b hb
        rcases List.mem_cons.mp hb with rfl | hb
        · exact ⟨List.cons_ne_nil row rows, hchunk⟩
        · exact hcut b hb
      · rcases h with ⟨hnone, hall, hd⟩ | ⟨e, s', he, hpre, hd, hcalls⟩
        · refine .inl ⟨hfail ▸ hnone, ?_, fun chunks failure s' h' => ?_⟩
          · rw [List.flatten_cons, hall, hrows]
          · exact .chunk hnext (List.cons_ne_nil row rows) (hd chunks failure s' h')
        · refine .inr ⟨e, s', hfail ▸ he, ?_, .chunk hnext (List.cons_ne_nil row rows) hd, hcalls⟩
          rw [List.flatten_cons, hrows]
          exact (List.prefix_append_right_inj _).mpr hpre

/-- The chunks of the source are those of its statements, run one after the other. -/
theorem drains_statements (s : BoundQueryChunks K) (hmax : 0 < s.batchSize)
    (hnone : s.resultSet = none) : ∃ sts cuts broken failure s',
      RowsRun serve s.transaction s.batchSize s.calls s.statements.rest sts cuts broken failure ∧
      Drains (nextChunk serve) s (cuts.flatten ++ broken) failure s' ∧
      s'.calls = s.calls ++ sts.map (.readQuery s.transaction) := by
  have hpull := pull_of_none hnone
  induction hrest : s.statements.rest generalizing s with
  | nil =>
    obtain ⟨hfirst, -⟩ := s.statements.nextStatement_eq
    rw [hrest] at hfirst
    have hnext : nextChunk serve s = _ := nextChunk_next hpull
    rcases hq : s.statements.nextStatement with ⟨statement, statements⟩
    rw [hq] at hfirst hnext
    cases hfirst
    exact ⟨[], [], [], none, _, .of_end List.nil_prefix (.all rfl rfl), .fin hnext, by simp⟩
  | cons stmt stmts ih =>
    obtain ⟨hfirst, htail⟩ := s.statements.nextStatement_eq
    rw [hrest] at hfirst htail
    have hnext : nextChunk serve s = _ := nextChunk_next hpull
    rcases hq : s.statements.nextStatement with ⟨statement, statements⟩
    rw [hq] at hfirst htail hnext
    cases hfirst
    cases stmt with
    | error e =>
      exact ⟨[], [], [], some e, _, .of_end List.nil_prefix (.bind rfl rfl), .fail hnext, by simp⟩
    | ok st =>
      dsimp only at hnext
      have hsts : [st].map .ok <+: (.ok st :: stmts : List (Except Error (SpannerSql K))) :=
        List.cons_prefix_cons.mpr ⟨rfl, List.nil_prefix⟩
      cases hserve : serve (s.calls ++ [.readQuery s.transaction st]) with
      | error e =>
        rw [hserve] at hnext
        exact ⟨[st], [], [], some e, _, .of_end hsts (.execute rfl hserve), .fail hnext, rfl⟩
      | ok rs =>
        rw [hserve] at hnext
        obtain ⟨cut, hcut, h⟩ := drains_result serve { s with
          resultSet := some rs, statements
          calls := s.calls ++ [.readQuery s.transaction st] } hmax rs rfl
        rcases h with ⟨hok, hrows, hd⟩ | ⟨e, s', he, hpre, hd, hcalls⟩
        · obtain ⟨sts, cuts, broken, failure, s', hrun, hd', hcalls⟩ := ih { s with
            resultSet := none, statements
            calls := s.calls ++ [.readQuery s.transaction st] } hmax rfl (pull_of_none rfl) htail
          refine ⟨st :: sts, cut :: cuts, broken, failure, s', hrun.cons hserve hok hrows hcut, ?_, ?_⟩
          · rw [List.flatten_cons, List.append_assoc]
            exact (hd _ _ _ hd').of_eq hnext
          · rw [hcalls]
            simp
        · exact ⟨[st], [], cut, some e, s', .of_end hsts (.stream rfl hserve he hpre hcut),
            hd.of_eq hnext, hcalls⟩

/-! ## Opening the reader -/

section Opening

variable {serve} {txn : K.Handle} {statements : LazyBoundStatements K} {batchSize : Nat}
  {log : List (Call K)} {total : List (List Row)} {failure : Option Error}
  {s last : BoundQueryChunks K}

/-- The chunk that is pulled before the task starts is the first of the stream. -/
theorem open_start {rs rs' : Source} {rows : List Row} (hrs : s.resultSet = some rs)
    (hq : pullChunk s.batchSize rs = (.ok rows, rs'))
    (hd : Drains (nextChunk serve) s total failure last) : ∃ rest,
      Stream.Open (nextChunk serve) total failure last [] rest
        (.start (some rows) { s with resultSet := some rs' }) ∧
      rest.length ≤ total.length := by
  cases rows with
  | nil =>
    -- an empty result: the pull leaves it as it is
    obtain ⟨hrows, hfail, -, -⟩ := Stream.pullChunk_ok hq
    have hsame : { s with resultSet := some rs' } = s := by
      obtain ⟨rows, failure⟩ := rs
      obtain ⟨rows', failure'⟩ := rs'
      cases hrows
      cases hfail
      rw [← hrs]
    refine ⟨total, ⟨rfl, Bool.noConfusion, rfl, .fetching rfl rfl ?_⟩, Nat.le_refl _⟩
    change Drains _ { s with resultSet := some rs' } _ _ _
    rw [hsame]
    exact hd
  | cons row rows =>
    obtain ⟨rest, htotal, hd'⟩ :=
      hd.tail (nextChunk_rows hrs hq (List.cons_ne_nil row rows)) (List.cons_ne_nil row rows)
    refine ⟨rest, ⟨rfl, Bool.noConfusion, htotal, .fetching rfl rfl hd'⟩, ?_⟩
    rw [htotal, List.length_cons]
    exact Nat.le_succ _

/-- Executing the first statement outside of the loop makes no difference to the stream. -/
theorem streamBoundQuery_spec (schema : Option Row → Except Error Unit) (hne : statements.rest ≠ [])
    (hd : Drains (nextChunk serve) (.start txn statements batchSize log) total failure last) :
    match streamBoundQuery serve schema txn statements batchSize log with
    | (.error e, calls) => (total = [] ∧ failure = some e ∧ calls = last.calls) ∨
        ((∃ row, schema row = .error e) ∧ calls <+: last.calls)
    | (.ok reader, _) => ∃ rest, Stream.Open (nextChunk serve) total failure last [] rest reader ∧
        reader.left rest ≤ 4 * total.length + 4 := by
  have hnext : nextChunk serve (.start txn statements batchSize log) = _ :=
    nextChunk_next (pull_of_none rfl)
  obtain ⟨hfirst, -⟩ := statements.nextStatement_eq
  rw [BoundQueryChunks.start] at hd hnext
  rw [streamBoundQuery]
  rcases hq : statements.nextStatement with ⟨_ | e | st, statements'⟩
  · rw [hq] at hfirst
    exact absurd (List.head?_eq_none_iff.mp hfirst.symm) hne
  · rw [hq] at hnext
    obtain ⟨htotal, hfail, hlast⟩ := hd.of_error hnext
    exact .inl ⟨htotal, hfail, by rw [hlast]⟩
  · rw [hq] at hnext
    dsimp only at hnext ⊢
    cases hserve : serve (log ++ [.readQuery txn st]) with
    | error e =>
      rw [hserve] at hnext
      obtain ⟨htotal, hfail, hlast⟩ := hd.of_error hnext
      exact .inl ⟨htotal, hfail, by rw [hlast]⟩
    | ok rs =>
      rw [hserve] at hnext
      have hd₁ := hd.of_eq hnext.symm
      dsimp only
      rcases hchunk : pullChunk batchSize rs with ⟨e | rows, rs'⟩
      · obtain ⟨htotal, hfail, hlast⟩ := hd₁.of_error (nextChunk_error rfl hchunk)
        exact .inl ⟨htotal, hfail, by rw [hlast]⟩
      · dsimp only
        cases hschema : schema rows.head? with
        | error e =>
          have hcalls : log ++ [.readQuery txn st] <+: last.calls := hd₁.invariant
            (I := fun s => log ++ [.readQuery txn st] <+: s.calls)
            (fun s hs => hs.trans (calls_nextChunk s)) List.prefix_rfl
          exact .inr ⟨⟨_, hschema⟩, hcalls⟩
        | ok u =>
          obtain ⟨rest, hopen, hle⟩ := open_start rfl hchunk hd₁
          refine ⟨rest, hopen, ?_⟩
          have hlen := congrArg List.length hopen.chunks
          simp only [List.nil_append, List.length_append] at hlen
          simp only [BatchReader.left, BatchReader.start, Stream.Task.left, Bool.false_eq_true,
            if_false] at hlen ⊢
          omega

end Opening

end Server

/-! ## The statement of each bound row -/

/-- The statement of a bound row: the values of the row under the names of its own batch. -/
def Statement.rowStatement (self : Statement K) (sql : List Char) (row : Batch K.Data × Nat) :
    Except Error (SpannerSql K) := do
  let names ← K.resolveParameterNames sql row.1 self.bindByName
  let params ← K.bindParams names row.1 row.2
  return { self.readSqlBuilder sql with params := some params }

/-- The source of the statements of a query with these groups. -/
def Statement.lazyStatements (self : Statement K) (sql : List Char)
    (groups : List (List (List Char) × Batch K.Data)) : LazyBoundStatements K where
  base := self.readSqlBuilder sql
  groups := groups
  group := 0
  row := 0

theorem Statement.ofGroups_boundGroups {sql : List Char} {bound : List (Batch K.Data)}
    (h : self.boundGroups sql bound = .ok groups) :
    LazyBoundStatements.ofGroups (self.readSqlBuilder sql) groups =
      (flatRows bound).map (self.rowStatement sql) := by
  induction bound generalizing groups with
  | nil =>
    cases h
    rfl
  | cons batch bound ih =>
    rw [flatRows_cons, List.map_append]
    by_cases hrows : batch.numRows = 0
    · rw [boundGroups, if_pos hrows] at h
      rw [ih h, Batch.rows, hrows]
      rfl
    · rw [boundGroups, if_neg hrows] at h
      cases hnames : K.resolveParameterNames sql batch self.bindByName with
      | error e =>
        rw [hnames] at h
        cases h
      | ok names =>
        cases hrest : self.boundGroups sql bound with
        | error e =>
          rw [hnames, hrest] at h
          cases h
        | ok rest =>
          rw [hnames, hrest] at h
          cases h
          rw [LazyBoundStatements.ofGroups, List.flatMap_cons, ← LazyBoundStatements.ofGroups,
            ih hrest, Batch.rows, List.map_map]
          refine congrArg (· ++ _) (List.map_congr_left fun row _ => ?_)
          simp only [Function.comp_apply, rowStatement, hnames]
          rfl

theorem Statement.rest_lazyStatements {sql : List Char}
    (h : self.boundGroups sql self.bound = .ok groups) :
    (self.lazyStatements sql groups).rest = (flatRows self.bound).map (self.rowStatement sql) :=
  (LazyBoundStatements.rest_of_row_zero rfl).trans (ofGroups_boundGroups h)

/-! ## The calls of `execute_bound_query` -/

/-- Only read-only transactions were built. -/
def Builds (s s' : Shared K) : Prop :=
  ∃ building, s'.log = s.log ++ building ∧ ∀ call ∈ building, ∃ bound, call = .multiUse bound

instance : IsPreorder (Shared K) Builds where
  refl s := ⟨[], by simp, by simp⟩
  trans s s' s'' h h' := by
    obtain ⟨building, hlog, hall⟩ := h
    obtain ⟨building', hlog', hall'⟩ := h'
    refine ⟨building ++ building', by rw [hlog', hlog, List.append_assoc], fun call hcall => ?_⟩
    rcases List.mem_append.mp hcall with hcall | hcall
    · exact hall call hcall
    · exact hall' call hcall

theorem builds_multiUse {α : Type} (bound : Option K.TimestampBound)
    (reply : List (Call K) → Except Error α) : Keeps Builds (perform (.multiUse bound) reply) := by
  intro s
  rw [exec_perform]
  exact ⟨[.multiUse bound], rfl, by simp⟩

theorem builds_withTxn {α : Type} (f : Txn.TxnState (SpannerSql K) K.Mutation K.Handle →
    Except Error α × Txn.TxnState (SpannerSql K) K.Mutation K.Handle) :
    Keeps Builds (withTxn f) := by
  intro s
  rw [exec_withTxn]
  exact ⟨[], by simp, by simp⟩

namespace Statement

variable (self : Statement K) {R : Replies K}

theorem builds_manualReadTransaction : Keeps Builds (self.manualReadTransaction R) := by
  unfold manualReadTransaction
  refine .bind (builds_withTxn _) fun found => ?_
  match found with
  | (true, _) => exact .pure _
  | (false, some txn) => exact .pure _
  | (false, none) =>
    exact .bind (.ofExcept _) fun bound => .bind (builds_multiUse _ _) fun built => builds_withTxn _

theorem builds_querySnapshot (manualTxn : Option K.Handle) (bound : Option K.TimestampBound) :
    Keeps Builds (querySnapshot R manualTxn bound) := by
  cases manualTxn with
  | none => exact builds_multiUse _ _
  | some txn => exact .pure _

/-- With several bound rows, the execution fails before it reaches a statement, or it opens one reader
for all of them on one transaction. -/
theorem exec_executeBoundQuery {sql : List Char} {groups : List (List (List Char) × Batch K.Data)}
    (hgroups : self.boundGroups sql self.bound = .ok groups) (hrows : 2 ≤ rowCount self.bound)
    (s : Shared K) :
    (∃ e s', (self.executeBoundQuery R sql).exec s = (.error e, s') ∧ Builds s s') ∨
    ∃ txn s', Builds s s' ∧ (self.executeBoundQuery R sql).exec s =
      (perform (.boundQuery txn (self.readSqlBuilder sql) groups) R.stream >>=
        fun stream => return .stream stream : Prog Error (Shared K) (Reader K)).exec s' := by
  have hmany : ¬ rowCount self.bound ≤ 1 := by omega
  unfold executeBoundQuery
  rw [hgroups, exec_bind_ok (exec_ofExcept s _)]
  have hmanual := self.builds_manualReadTransaction (R := R) s
  rcases hm : (self.manualReadTransaction R).exec s with ⟨e | manualTxn, s₁⟩
  · rw [hm] at hmanual
    exact .inl ⟨e, s₁, exec_bind_error hm _, hmanual⟩
  · rw [hm] at hmanual
    rw [exec_bind_ok hm, if_neg hmany]
    cases hbound : K.multiUseTimestampBound self.config.settings with
    | error e => exact .inl ⟨e, s₁, rfl, hmanual⟩
    | ok bound =>
      rw [exec_bind_ok (exec_ofExcept s₁ _)]
      have hsnapshot := builds_querySnapshot (R := R) manualTxn bound s₁
      rcases hq : (querySnapshot R manualTxn bound).exec s₁ with ⟨e | txn, s₂⟩
      · rw [hq] at hsnapshot
        exact .inl ⟨e, s₂, exec_bind_error hq _, IsTrans.trans _ _ _ hmanual hsnapshot⟩
      · rw [hq] at hsnapshot
        exact .inr ⟨txn, s₂, IsTrans.trans _ _ _ hmanual hsnapshot, exec_bind_ok hq _⟩

theorem exec_executeBoundQuery_error {sql : List Char} {e : Error}
    (hgroups : self.boundGroups sql self.bound = .error e) (s : Shared K) :
    (self.executeBoundQuery R sql).exec s = (.error e, s) := by
  unfold executeBoundQuery
  rw [hgroups]
  rfl

end Statement

/-! ## Delivery -/

/-- What a schedule of `moves` has delivered of the chunks `total`, while `calls` are the queries of
the whole stream. A stream that has not ended has used few moves and can go on. -/
inductive BoundDelivery (serve : List (Call K) → Except Error Source)
    (build : List Row → Except Error Unit) (total : List (List Row)) (failure : Option Error)
    (calls : List (Call K)) (moves : List Stream.Move) (reader : BatchReader (BoundQueryChunks K))
    (outs : List Out) : Prop where
  | streaming (got rest : List (List Row)) : total = got ++ rest →
      outs = got.map (Stream.Reader.emit build) → reader.source.calls <+: calls →
      moves.length ≤ 4 * total.length + 4 →
      (∃ move reader' es,
        (Stream.batchReader (nextChunk serve) build).step reader move = some (reader', es)) →
      BoundDelivery serve build total failure calls moves reader outs
  | ended (k : Nat) : outs = total.map (Stream.Reader.emit build) ++ Stream.conclusion failure k →
      reader.source.calls = calls → BoundDelivery serve build total failure calls moves reader outs

section Delivery

variable {serve : List (Call K) → Except Error Source} {build : List Row → Except Error Unit}
  {total rest : List (List Row)} {failure : Option Error} {last : BoundQueryChunks K}
  {reader reader' : BatchReader (BoundQueryChunks K)} {moves : List Stream.Move} {outs : List Out}

theorem calls_ahead (h : Stream.Ahead (nextChunk serve) last reader rest failure) :
    reader.source.calls <+: last.calls := by
  cases h with
  | fetching _ _ hd | sending _ _ hd =>
    exact hd.invariant (I := fun s => reader.source.calls <+: s.calls)
      (fun s hs => hs.trans (calls_nextChunk s)) List.prefix_rfl
  | failing _ _ hl | done _ _ hl => rw [hl]

theorem boundDelivery (h : Stream.Open (nextChunk serve) total failure last [] rest reader)
    (hleft : reader.left rest ≤ 4 * total.length + 4)
    (hrun : (Stream.batchReader (nextChunk serve) build).run reader moves = some (reader', outs)) :
    BoundDelivery serve build total failure last.calls moves reader' outs := by
  rcases h.run hrun with ⟨got, rest', rfl, hopen, hle⟩ | ⟨hshut, got, k, htotal, rfl⟩
  · rw [List.nil_append] at hopen
    exact .streaming got _ hopen.chunks rfl (calls_ahead hopen.ahead) (by omega)
      (hopen.exists_step build)
  · rw [List.nil_append] at htotal
    exact .ended k (by rw [htotal]) (by rw [hshut.source])

end Delivery

/-- Three bound rows, with an empty batch between them. -/
def boundSelect : Statement plainClient where
  config := { readOnly := 0, settings := () }
  sql := some "SELECT @id".toList
  bound := [2, 0, 1].map fun numRows =>
    { numRows, numColumns := 1, arrayMemorySize := 8, columns := () }

/-- A server that answers two queries. -/
def answersTwo (calls : List (Call plainClient)) : Except Error Source :=
  if calls.length ≤ 2 then .ok { rows := [[.bool true]], failure := none } else .error cancelledErr

end Session
end SpannerAdbc
