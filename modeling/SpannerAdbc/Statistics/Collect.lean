import SpannerAdbc.Objects.Listing
import SpannerAdbc.Statistics.Query

/-!
# SpannerAdbc.Statistics.Collect

`collect_statistics`: which tables are scanned and for what, how the one row that a scan returns is
read, and how the statistics are put together by schema.

A scan returns its counts by position. `selectList` reads the positions off the generated text, and
`parseTableStatistics` off the plan; the two agree, so a count is reported as what its own expression
computes.
-/

namespace SpannerAdbc
namespace Statistics

open Arrow Lib Metadata Sql
open SpannerAdbc.Objects (Key strCol value intValue groupRows rejects rowsAt Holds text Accepts
  strCol_of_holds value_map groupRows_eq rejects_eq rowsAt_groupBy batchOf storable_text)

/-! ## The code -/

def rowCountKey : Int := 6

structure Statistic where
  table : List Char
  column : Option (List Char)
  key : Int
  value : Int
  deriving DecidableEq, Repr

structure SchemaStatistics where
  dbSchema : List Char
  statistics : List Statistic
  deriving DecidableEq, Repr

structure PreparedTable where
  schema : List Char
  table : List Char
  sql : List Char
  plan : List (List Char × Int)

/-- Whether `COUNT(DISTINCT ..)` takes the type. -/
def isGroupable (spannerType : List Char) : Bool :=
  let t := trimStart spannerType
  !("ARRAY".toList.isPrefixOf t || "STRUCT".toList.isPrefixOf t || "PROTO".toList.isPrefixOf t ||
    t == "JSON".toList || t == "TOKENLIST".toList || t == "INTERVAL".toList)

/-- The closure `value` of `parse_table_statistics`. The driver panics on an index that the batch does
not have. -/
def aggregate (batch : RecordBatch) (index : Nat) : Except Error Int :=
  match batch.columns[index]? with
  | some (.scalars .int64 [slot]) => .ok (intValue [slot] 0)
  | _ => .error (err "statistic aggregate is not a single integer".toList .internal)

/-- The statistic at a place of the plan; the row count comes before them all. -/
def plannedStatistic (batch : RecordBatch) (table : List Char) (p : (List Char × Int) × Nat) :
    Except Error Statistic := do
  return { table, column := some p.1.1, key := p.1.2, value := ← aggregate batch (p.2 + 1) }

def parseTableStatistics (batch : RecordBatch) (table : List Char) (plan : List (List Char × Int)) :
    Except Error (List Statistic) := do
  let rowCount ← aggregate batch 0
  let rest ← plan.zipIdx.mapM (plannedStatistic batch table)
  return { table, column := none, key := rowCountKey, value := rowCount } :: rest

/-- The read-only transaction: its answers to the two queries of `INFORMATION_SCHEMA` and to the scan
of the table with that number. -/
structure Snapshot where
  query : List Char → Except Error RecordBatch
  scan : Nat → List Char → Except Error RecordBatch

def tablesSql : List Char :=
  "SELECT TABLE_SCHEMA, TABLE_NAME FROM INFORMATION_SCHEMA.TABLES ".toList ++
    "WHERE TABLE_TYPE = 'BASE TABLE'".toList

def columnsSql : List Char :=
  "SELECT TABLE_SCHEMA, TABLE_NAME, COLUMN_NAME, SPANNER_TYPE ".toList ++
    ("FROM INFORMATION_SCHEMA.COLUMNS WHERE NOT CAST(IS_HIDDEN AS BOOL) ".toList ++
      "ORDER BY TABLE_SCHEMA, TABLE_NAME, ORDINAL_POSITION".toList)

section Collect

variable (D : Debug) (S : Snapshot)

/-- The loop over the tables. It takes the columns of a table out of the map. -/
def prepareTables (dbSchema tableName : Option (List Char)) :
    List (Key × List (List Char × Bool)) → List Key → Except Error (List PreparedTable)
  | _, [] => .ok []
  | columnsByTable, (schema, table) :: tables =>
    if rejects dbSchema schema then prepareTables dbSchema tableName columnsByTable tables
    else if rejects tableName table then prepareTables dbSchema tableName columnsByTable tables
    else do
      let columns := rowsAt (schema, table) columnsByTable
      let (sql, plan) ← buildTableQuery D schema table columns
      let prepared ←
        prepareTables dbSchema tableName (remove (schema, table) columnsByTable) tables
      return { schema, table, sql, plan } :: prepared

/-- The loop over the answers. -/
def regroup : Groups (List Char) Statistic → List (PreparedTable × RecordBatch) →
    Except Error (Groups (List Char) Statistic)
  | groups, [] => .ok groups
  | groups, (p, batch) :: rest => do
    let stats ← parseTableStatistics batch p.table p.plan
    regroup (groups.extend (p.schema, stats)) rest

/-- The queries of the matching tables, from the batches of the discovery. -/
def prepareScans (dbSchema tableName : Option (List Char)) (tableBatch columnBatch : RecordBatch) :
    Except Error (List PreparedTable) := do
  let ts ← strCol tableBatch 0
  let tn ← strCol tableBatch 1
  let cts ← strCol columnBatch 0
  let ctn ← strCol columnBatch 1
  let ccn ← strCol columnBatch 2
  let ctype ← strCol columnBatch 3
  let columnsByTable := groupRows columnBatch.numRows (fun c => (value cts c, value ctn c)) fun c =>
    (value ccn c, isGroupable (value ctype c))
  prepareTables D dbSchema tableName columnsByTable
    ((List.range tableBatch.numRows).map fun r => (value ts r, value tn r))

def collectStatistics (dbSchema tableName : Option (List Char)) :
    Except Error (List SchemaStatistics) := do
  let tableBatch ← S.query tablesSql
  let columnBatch ← S.query columnsSql
  let prepared ← prepareScans D dbSchema tableName tableBatch columnBatch
  -- The scans run side by side; `buffered` hands the answers on in the order of the tables.
  let batches ← prepared.zipIdx.mapM fun p => S.scan p.2 p.1.sql
  let groups ← regroup Groups.empty (prepared.zip batches)
  return groups.entries.map fun e => { dbSchema := e.1, statistics := e.2 }

end Collect

/-! ## The select list of a query -/

/-- Puts tokens in front of the first item. -/
def glue (item : List Token) : List (List Token) → List (List Token)
  | [] => [item]
  | first :: items => (item ++ first) :: items

/-- The items up to `FROM`, between the commas that stand outside of parentheses. -/
def selectItems : Nat → List Token → List (List Token)
  | _, [] => [[]]
  | depth, .symbol c :: ts =>
    if c = '(' then glue [.symbol c] (selectItems (depth + 1) ts)
    else if c = ')' then glue [.symbol c] (selectItems (depth - 1) ts)
    else if c = ',' ∧ depth = 0 then [] :: selectItems 0 ts
    else glue [.symbol c] (selectItems depth ts)
  | depth, .word w :: ts =>
    if w = "FROM".toList ∧ depth = 0 then [[]]
    else glue [.word w] (selectItems depth ts)
  | depth, t :: ts => glue [t] (selectItems depth ts)

/-- The expressions of the result columns. -/
def selectList : List Token → List (List Token)
  | .word w :: ts => if w = "SELECT".toList then selectItems 0 ts else []
  | _ => []

theorem glue_glue (a b : List Token) (items : List (List Token)) :
    glue a (glue b items) = glue (a ++ b) items := by
  cases items <;> simp [glue]

/-- Tokens that stand in one item. -/
def OneItem (ts : List Token) : Prop :=
  ∀ rest, selectItems 0 (ts ++ rest) = glue ts (selectItems 0 rest)

theorem selectItems_commas {items : List (List Token)} (hne : items ≠ [])
    (h : ∀ item ∈ items, OneItem item) (rest : List Token) :
    selectItems 0 ([Token.symbol ','].intercalate items ++ (keyword "FROM" :: rest)) = items := by
  have hfrom : selectItems 0 (keyword "FROM" :: rest) = [[]] := by simp [keyword, selectItems]
  induction items with
  | nil => exact absurd rfl hne
  | cons item items ih =>
    have hitem := h item List.mem_cons_self
    cases items with
    | nil =>
      rw [List.intercalate_singleton, hitem, hfrom]
      simp [glue]
    | cons next items =>
      have hrest := ih (List.cons_ne_nil _ _) fun i hi => h i (List.mem_cons_of_mem _ hi)
      rw [List.intercalate_cons_cons, List.append_assoc, List.append_assoc, hitem,
        List.singleton_append, selectItems]
      simp [hrest, glue]

/-! ## One table -/

/-- The planned statistics of a column. -/
def planOf (column : List Char × Bool) : List (List Char × Int) :=
  (column.1, nullCountKey) :: if column.2 then [(column.1, distinctCountKey)] else []

/-- The statistics of a table, by column and key. -/
def planned (columns : List (List Char × Bool)) : List (Option (List Char) × Int) :=
  (none, rowCountKey) :: (columns.flatMap planOf).map fun p => (some p.1, p.2)

/-- The expression that computes a statistic. -/
def expression : Option (List Char) × Int → List Token
  | (none, _) => [keyword "COUNT", .symbol '(', .symbol '*', .symbol ')']
  | (some name, key) =>
    if key = nullCountKey then
      [keyword "COUNTIF", .symbol '(', .ident name, keyword "IS", keyword "NULL", .symbol ')']
    else [keyword "COUNT", .symbol '(', keyword "DISTINCT", .ident name, .symbol ')']

theorem oneItem_expression (p : Option (List Char) × Int) : OneItem (expression p) := by
  obtain ⟨column, key⟩ := p
  intro rest
  cases column with
  | none => simp [expression, keyword, selectItems, glue_glue]
  | some name =>
    rw [expression]
    split <;> simp [keyword, selectItems, glue_glue]

theorem exprTokens_eq (column : List Char × Bool) :
    exprTokens column = (planOf column).map fun p => expression (some p.1, p.2) := by
  obtain ⟨name, groupable⟩ := column
  cases groupable <;> simp [exprTokens, planOf, expression, nullCountKey, distinctCountKey]

/-- The select list of a skeleton is the planned statistics, in their order. -/
theorem selectList_queryTokens (schema table : List Char) (columns : List (List Char × Bool)) :
    selectList (queryTokens schema table columns) = (planned columns).map expression := by
  have hitems : [keyword "COUNT", Token.symbol '(', .symbol '*', .symbol ')'] ::
      columns.flatMap exprTokens = (planned columns).map expression := by
    rw [planned, List.map_cons, List.map_map, List.map_flatMap, funext exprTokens_eq]
    rfl
  have hone : ∀ item ∈ (planned columns).map expression, OneItem item := by
    intro item hitem
    obtain ⟨p, -, rfl⟩ := List.mem_map.mp hitem
    exact oneItem_expression p
  rw [queryTokens, hitems]
  exact selectItems_commas (List.cons_ne_nil _ _) hone (tableTokens (some schema) table)

section Query

variable {D : Debug} {columns : List (List Char × Bool)} {plan : List (List Char × Int)}

theorem columnExprs_eq_ok {exprs : List (List Char)}
    (h : columnExprs D columns = .ok (exprs, plan)) :
    (∀ column ∈ columns, Accepted D column.1) ∧ plan = columns.flatMap planOf := by
  induction columns generalizing exprs plan with
  | nil =>
    cases h
    exact ⟨by simp, rfl⟩
  | cons column columns ih =>
    obtain ⟨name, groupable⟩ := column
    rw [columnExprs] at h
    obtain ⟨quoted, hq, h⟩ := bind_eq_ok.mp h
    obtain ⟨⟨exprs', plan'⟩, hrest, h⟩ := bind_eq_ok.mp h
    obtain ⟨haccepted, rfl⟩ := ih hrest
    refine ⟨List.forall_mem_cons.mpr ⟨⟨quoted, hq⟩, haccepted⟩, ?_⟩
    cases groupable <;> cases h <;> rfl

/-- A generated query has one result column for each planned statistic. -/
theorem buildTableQuery_eq_ok {schema table sql : List Char}
    (h : buildTableQuery D schema table columns = .ok (sql, plan)) :
    plan = columns.flatMap planOf ∧
      ∀ g : Grammar, selectList (g.tokens sql) = (planned columns).map expression := by
  obtain ⟨⟨exprs, plan'⟩, he, hrest⟩ := bind_eq_ok.mp h
  obtain ⟨name, hname, hsql⟩ := bind_eq_ok.mp hrest
  obtain ⟨haccepted, hplan⟩ := columnExprs_eq_ok he
  obtain ⟨hs, ht⟩ := accepted_of_qualifiedTable hname
  obtain ⟨text, plan'', hbuilt, hinert⟩ := buildTableQuery_inert hs ht haccepted
  rw [h] at hbuilt
  cases hbuilt
  cases hsql
  refine ⟨hplan, fun g => ?_⟩
  rw [(hinert g).tokens, selectList_queryTokens]

end Query

/-- The statistics of one answer: those planned, under the table's name, each with the count in its
own result column. -/
structure ReadFrom (batch : RecordBatch) (table : List Char) (columns : List (List Char × Bool))
    (stats : List Statistic) : Prop where
  table : ∀ s ∈ stats, s.table = table
  kinds : stats.map (fun s => (s.column, s.key)) = planned columns
  values : ∀ i s, stats[i]? = some s → aggregate batch i = .ok s.value

variable {batch : RecordBatch} {table : List Char} {columns : List (List Char × Bool)}
  {stats : List Statistic}

theorem plannedStatistic_eq_ok {p : (List Char × Int) × Nat} {s : Statistic} :
    plannedStatistic batch table p = .ok s ↔
      s.table = table ∧ (s.column, s.key) = (some p.1.1, p.1.2) ∧
        aggregate batch (p.2 + 1) = .ok s.value := by
  obtain ⟨table', column, key, value⟩ := s
  rw [plannedStatistic, bind_eq_ok]
  constructor
  · rintro ⟨v, hv, hs⟩
    cases hs
    exact ⟨rfl, rfl, hv⟩
  · rintro ⟨htable, hkind, hv⟩
    obtain rfl : table' = table := htable
    cases hkind
    exact ⟨value, hv, rfl⟩

theorem mapM_plannedStatistic_eq_ok {plan : List (List Char × Int)} {n : Nat} :
    (plan.zipIdx n).mapM (plannedStatistic batch table) = .ok stats ↔
      (∀ s ∈ stats, s.table = table) ∧
        stats.map (fun s => (s.column, s.key)) = plan.map (fun p => (some p.1, p.2)) ∧
        ∀ i s, stats[i]? = some s → aggregate batch (n + i + 1) = .ok s.value := by
  rw [mapM_eq_ok]
  induction plan generalizing n stats with
  | nil =>
    rw [List.zipIdx_nil, List.forall₂_nil_left_iff]
    constructor
    · rintro rfl
      simp
    · rintro ⟨-, hkinds, -⟩
      exact List.map_eq_nil_iff.mp hkinds
  | cons p plan ih =>
    rw [List.zipIdx_cons, List.forall₂_cons_left_iff]
    constructor
    · rintro ⟨s, rest, hs, hrest, rfl⟩
      obtain ⟨htable, hkind, hvalue⟩ := plannedStatistic_eq_ok.mp hs
      obtain ⟨htables, hkinds, hvalues⟩ := ih.mp hrest
      refine ⟨List.forall_mem_cons.mpr ⟨htable, htables⟩, ?_, fun i s hi => ?_⟩
      · rw [List.map_cons, List.map_cons, hkind, hkinds]
      · cases i with
        | zero =>
          cases hi
          exact hvalue
        | succ i =>
          have := hvalues i s hi
          rwa [show n + 1 + i + 1 = n + (i + 1) + 1 by omega] at this
    · rintro ⟨htables, hkinds, hvalues⟩
      cases stats with
      | nil => cases hkinds
      | cons s rest =>
        obtain ⟨htable, htables⟩ := List.forall_mem_cons.mp htables
        rw [List.map_cons, List.map_cons, List.cons.injEq] at hkinds
        refine ⟨s, rest, plannedStatistic_eq_ok.mpr ⟨htable, hkinds.1, hvalues 0 s rfl⟩,
          ih.mpr ⟨htables, hkinds.2, fun i s' hi => ?_⟩, rfl⟩
        rw [show n + 1 + i + 1 = n + (i + 1) + 1 by omega]
        exact hvalues (i + 1) s' hi

/-- Parsing reports what the answer has in the planned places, and succeeds if it has that. -/
theorem parseTableStatistics_eq_ok :
    parseTableStatistics batch table (columns.flatMap planOf) = .ok stats ↔
      ReadFrom batch table columns stats := by
  rw [parseTableStatistics, bind_eq_ok]
  constructor
  · rintro ⟨rowCount, hcount, h⟩
    obtain ⟨rest, hrest, h⟩ := bind_eq_ok.mp h
    cases h
    obtain ⟨htables, hkinds, hvalues⟩ := mapM_plannedStatistic_eq_ok.mp hrest
    refine ⟨List.forall_mem_cons.mpr ⟨rfl, htables⟩, ?_, fun i s hi => ?_⟩
    · rw [List.map_cons, hkinds]
      rfl
    · cases i with
      | zero =>
        cases hi
        exact hcount
      | succ i =>
        have := hvalues i s hi
        rwa [Nat.zero_add] at this
  · rintro ⟨htables, hkinds, hvalues⟩
    cases stats with
    | nil => cases hkinds
    | cons s rest =>
      obtain ⟨htable, htables⟩ := List.forall_mem_cons.mp htables
      rw [List.map_cons, planned, List.cons.injEq] at hkinds
      refine ⟨s.value, hvalues 0 s rfl, bind_eq_ok.mpr ⟨rest, ?_, ?_⟩⟩
      · refine mapM_plannedStatistic_eq_ok.mpr ⟨htables, hkinds.2, fun i s' hi => ?_⟩
        rw [Nat.zero_add]
        exact hvalues (i + 1) s' hi
      · obtain ⟨table', column, key, value⟩ := s
        obtain rfl : table' = table := htable
        cases hkinds.1
        rfl

/-! ## All tables -/

/-- A row of `INFORMATION_SCHEMA.COLUMNS`, as the second query has it. -/
structure ColumnsRow where
  tableSchema : List Char
  tableName : List Char
  columnName : List Char
  spannerType : List Char

def tablesSelect : List (DataType × (Key → Option Scalar)) := [text (·.1), text (·.2)]

def columnsSelect : List (DataType × (ColumnsRow → Option Scalar)) :=
  [text (·.tableSchema), text (·.tableName), text (·.columnName), text (·.spannerType)]

/-- The list of the tables and the list of the columns. -/
structure Discovered where
  tables : List Key
  columns : List ColumnsRow

/-- The two queries return these lists. -/
structure Snapshot.Discovers (S : Snapshot) (d : Discovered) : Prop where
  tables : ∃ batch, S.query tablesSql = .ok batch ∧ Holds tablesSelect batch d.tables
  columns : ∃ batch, S.query columnsSql = .ok batch ∧ Holds columnsSelect batch d.columns

namespace Discovered

variable (d : Discovered)

def columnsOf (t : Key) : List (List Char × Bool) :=
  (d.columns.filter fun c => c.tableSchema = t.1 ∧ c.tableName = t.2).map fun c =>
    (c.columnName, isGroupable c.spannerType)

def matching (dbSchema tableName : Option (List Char)) : List Key :=
  d.tables.filter fun t => Accepts dbSchema t.1 ∧ Accepts tableName t.2

end Discovered

/-- What is scanned: every table, and its columns with the first scan of it. -/
def scans (columnsOf : Key → List (List Char × Bool)) : List Key → List (Key × List (List Char × Bool))
  | [] => []
  | t :: tables =>
    (t, columnsOf t) :: scans (fun t' => if t' = t then [] else columnsOf t') tables

def Discovered.scanned (d : Discovered) (dbSchema tableName : Option (List Char)) :
    List (Key × List (List Char × Bool)) :=
  scans d.columnsOf (d.matching dbSchema tableName)

theorem map_fst_scans (columnsOf : Key → List (List Char × Bool)) (tables : List Key) :
    (scans columnsOf tables).map Prod.fst = tables := by
  induction tables generalizing columnsOf with
  | nil => rfl
  | cons t tables ih => rw [scans, List.map_cons, ih]

/-- Of tables that are listed once each has its own columns. -/
theorem scans_of_nodup {columnsOf : Key → List (List Char × Bool)} {tables : List Key}
    (h : tables.Nodup) : scans columnsOf tables = tables.map fun t => (t, columnsOf t) := by
  induction tables generalizing columnsOf with
  | nil => rfl
  | cons t tables ih =>
    obtain ⟨hnew, hrest⟩ := List.nodup_cons.mp h
    rw [scans, ih hrest, List.map_cons]
    refine congrArg _ (List.map_congr_left fun t' ht' => ?_)
    have hne : t' ≠ t := by
      rintro rfl
      exact hnew ht'
    rw [if_neg hne]

section Pipeline

variable {D : Debug} {S : Snapshot} {d : Discovered} {batch : RecordBatch}

/-- The query for a table and its columns. -/
def prepare (D : Debug) (scan : Key × List (List Char × Bool)) : Except Error PreparedTable := do
  let (sql, plan) ← buildTableQuery D scan.1.1 scan.1.2 scan.2
  return { schema := scan.1.1, table := scan.1.2, sql, plan }

theorem prepareTables_eq {dbSchema tableName : Option (List Char)}
    {columnsByTable : List (Key × List (List Char × Bool))}
    {columnsOf : Key → List (List Char × Bool)}
    (h : ∀ t, rowsAt t columnsByTable = columnsOf t) (tables : List Key) :
    prepareTables D dbSchema tableName columnsByTable tables =
      (scans columnsOf (tables.filter fun t => Accepts dbSchema t.1 ∧ Accepts tableName t.2)).mapM
        (prepare D) := by
  induction tables generalizing columnsByTable columnsOf with
  | nil => rfl
  | cons t tables ih =>
    obtain ⟨schema, table⟩ := t
    rw [prepareTables, rejects_eq, rejects_eq]
    by_cases hschema : Accepts dbSchema schema
    · by_cases htable : Accepts tableName table
      · have hremove : ∀ t, rowsAt t (remove (schema, table) columnsByTable) =
            if t = (schema, table) then [] else columnsOf t := by
          intro t
          rw [rowsAt, lookup_remove]
          split
          · rfl
          · exact h t
        rw [List.filter_cons_of_pos (by simp [hschema, htable]), scans, List.mapM_cons, prepare,
          ih hremove, h]
        simp [hschema, htable]
      · rw [List.filter_cons_of_neg (by simp [htable]), ih h]
        simp [hschema, htable]
    · rw [List.filter_cons_of_neg (by simp [hschema]), ih h]
      simp [hschema]

/-- A scan of a table: the query that is generated for it, whose result columns are the expressions
of the statistics, and the answer that the statistics are read from. -/
def Scanned (D : Debug) (S : Snapshot) (scan : (Key × List (List Char × Bool)) × Nat)
    (stats : List Statistic) : Prop :=
  ∃ sql plan batch, buildTableQuery D scan.1.1.1 scan.1.1.2 scan.1.2 = .ok (sql, plan) ∧
    (∀ g : Grammar, selectList (g.tokens sql) =
      stats.map fun s => expression (s.column, s.key)) ∧
    S.scan scan.2 sql = .ok batch ∧ ReadFrom batch scan.1.1.2 scan.1.2 stats

/-- One scan, through the three phases. -/
theorem scanned_iff {scan : (Key × List (List Char × Bool)) × Nat} {stats : List Statistic} :
    Scanned D S scan stats ↔ ∃ p batch, prepare D scan.1 = .ok p ∧ p.schema = scan.1.1.1 ∧
      S.scan scan.2 p.sql = .ok batch ∧ parseTableStatistics batch p.table p.plan = .ok stats := by
  constructor
  · rintro ⟨sql, plan, batch, hbuild, -, hscan, hread⟩
    obtain ⟨rfl, -⟩ := buildTableQuery_eq_ok hbuild
    refine ⟨_, batch, bind_eq_ok.mpr ⟨_, hbuild, rfl⟩, rfl, hscan, ?_⟩
    exact parseTableStatistics_eq_ok.mpr hread
  · rintro ⟨p, batch, hprepare, -, hscan, hparse⟩
    obtain ⟨⟨sql, plan⟩, hbuild, hp⟩ := bind_eq_ok.mp hprepare
    cases hp
    obtain ⟨rfl, hlist⟩ := buildTableQuery_eq_ok hbuild
    have hread := parseTableStatistics_eq_ok.mp hparse
    refine ⟨sql, _, batch, hbuild, fun g => ?_, hscan, hread⟩
    rw [hlist g, ← hread.kinds, List.map_map]
    rfl

/-- The statistics of the scans, under their schemas. -/
def bySchema (scanned : List (Key × List (List Char × Bool))) (stats : List (List Statistic)) :
    List (List Char × List Statistic) :=
  (scanned.zip stats).map fun r => (r.1.1.1, r.2)

/-- All queries are generated, then all scans are made, then all answers are read. -/
def phases (D : Debug) (S : Snapshot) (groups : Groups (List Char) Statistic) (n : Nat)
    (scanned : List (Key × List (List Char × Bool))) :
    Except Error (Groups (List Char) Statistic) := do
  let prepared ← scanned.mapM (prepare D)
  let batches ← (prepared.zipIdx n).mapM fun p => S.scan p.2 p.1.sql
  regroup groups (prepared.zip batches)

/-- The phases do for each table what they do for one. -/
theorem phases_eq_ok {scanned : List (Key × List (List Char × Bool))} {n : Nat}
    {groups result : Groups (List Char) Statistic} :
    phases D S groups n scanned = .ok result ↔
      ∃ stats, List.Forall₂ (Scanned D S) (scanned.zipIdx n) stats ∧
        result = (bySchema scanned stats).foldl Groups.extend groups := by
  induction scanned generalizing n groups result with
  | nil =>
    rw [List.zipIdx_nil]
    constructor
    · intro h
      cases h
      exact ⟨[], .nil, rfl⟩
    · rintro ⟨stats, hstats, rfl⟩
      cases hstats
      rfl
  | cons scan scanned ih =>
    rw [List.zipIdx_cons, phases, List.mapM_cons]
    constructor
    · intro h
      obtain ⟨prepared, hprepared, h⟩ := bind_eq_ok.mp h
      obtain ⟨p, hp, hprepared⟩ := bind_eq_ok.mp hprepared
      obtain ⟨ps, hps, hprepared⟩ := bind_eq_ok.mp hprepared
      cases hprepared
      rw [List.zipIdx_cons, List.mapM_cons] at h
      obtain ⟨batches, hbatches, h⟩ := bind_eq_ok.mp h
      obtain ⟨batch, hbatch, hbatches⟩ := bind_eq_ok.mp hbatches
      obtain ⟨bs, hbs, hbatches⟩ := bind_eq_ok.mp hbatches
      cases hbatches
      rw [List.zip_cons_cons, regroup] at h
      obtain ⟨first, hfirst, h⟩ := bind_eq_ok.mp h
      obtain ⟨rest, hrest, hresult⟩ :=
        ih.mp (bind_eq_ok.mpr ⟨ps, hps, bind_eq_ok.mpr ⟨bs, hbs, h⟩⟩)
      have hschema : p.schema = scan.1.1 := by
        obtain ⟨built, -, hp⟩ := bind_eq_ok.mp hp
        cases hp
        rfl
      refine ⟨first :: rest, .cons (scanned_iff.mpr ⟨p, batch, hp, hschema, hbatch, hfirst⟩) hrest, ?_⟩
      rw [hresult, hschema]
      rfl
    · rintro ⟨stats, hstats, rfl⟩
      obtain ⟨first, rest, hfirst, hrest, rfl⟩ := List.forall₂_cons_left_iff.mp hstats
      obtain ⟨p, batch, hp, hschema, hbatch, hparse⟩ := scanned_iff.mp hfirst
      obtain ⟨ps, hps, htail⟩ := bind_eq_ok.mp (ih.mpr ⟨rest, hrest, rfl⟩)
      obtain ⟨bs, hbs, htail⟩ := bind_eq_ok.mp htail
      refine bind_eq_ok.mpr ⟨p :: ps, bind_eq_ok.mpr ⟨p, hp, bind_eq_ok.mpr ⟨ps, hps, rfl⟩⟩, ?_⟩
      rw [List.zipIdx_cons, List.mapM_cons]
      refine bind_eq_ok.mpr ⟨batch :: bs,
        bind_eq_ok.mpr ⟨batch, hbatch, bind_eq_ok.mpr ⟨bs, hbs, rfl⟩⟩, ?_⟩
      rw [List.zip_cons_cons, regroup]
      refine bind_eq_ok.mpr ⟨first, hparse, ?_⟩
      rw [hschema]
      exact htail

/-- The schemas in the order of their first tables, each with the statistics of all its tables. -/
def reported (rows : List (List Char × List Statistic)) : List SchemaStatistics :=
  (firstSeen (rows.map Prod.fst)).map fun schema =>
    { dbSchema := schema, statistics := gather rows schema }

theorem tableRows_eq {tables : List Key} (h : Holds tablesSelect batch tables) :
    ((List.range batch.numRows).map fun r =>
      (value (tables.map (text (·.1)).2) r, value (tables.map (text (·.2)).2) r)) = tables := by
  refine List.ext_getElem? fun r => ?_
  rw [h.1, List.getElem?_map]
  cases hr : tables[r]? with
  | none =>
    rw [List.getElem?_eq_none (by simpa using List.getElem?_eq_none_iff.mp hr)]
    rfl
  | some t =>
    have hlt : r < tables.length := (List.getElem?_eq_some_iff.mp hr).1
    rw [List.getElem?_range hlt, Option.map_some, value_map hr, value_map hr]

theorem columnsByTable_eq (h : Holds columnsSelect batch d.columns) (t : Key) :
    rowsAt t (groupRows batch.numRows
      (fun c => (value (d.columns.map (text (·.tableSchema)).2) c,
        value (d.columns.map (text (·.tableName)).2) c))
      fun c => (value (d.columns.map (text (·.columnName)).2) c,
        isGroupable (value (d.columns.map (text (·.spannerType)).2) c))) = d.columnsOf t := by
  have hgroups : groupRows batch.numRows
      (fun c => (value (d.columns.map (text (·.tableSchema)).2) c,
        value (d.columns.map (text (·.tableName)).2) c))
      (fun c => (value (d.columns.map (text (·.columnName)).2) c,
        isGroupable (value (d.columns.map (text (·.spannerType)).2) c))) =
      groupBy (fun c : ColumnsRow => (c.tableSchema, c.tableName))
        (fun c => (c.columnName, isGroupable c.spannerType)) d.columns :=
    groupRows_eq h.1 (fun r c hr => Prod.ext (value_map hr) (value_map hr))
      fun r c hr => Prod.ext (value_map hr) (congrArg isGroupable (value_map hr))
  obtain ⟨schema, table⟩ := t
  rw [hgroups, rowsAt_groupBy, Discovered.columnsOf]
  simp only [Prod.mk.injEq]

theorem collectStatistics_eq (hd : S.Discovers d) (dbSchema tableName : Option (List Char)) :
    collectStatistics D S dbSchema tableName =
      phases D S Groups.empty 0 (d.scanned dbSchema tableName) >>= fun groups =>
        pure (groups.entries.map fun e => { dbSchema := e.1, statistics := e.2 }) := by
  obtain ⟨tableBatch, htables, hholds⟩ := hd.tables
  obtain ⟨columnBatch, hcolumns, hholds'⟩ := hd.columns
  have hts : strCol tableBatch 0 = .ok (d.tables.map (text (·.1)).2) := strCol_of_holds hholds rfl
  have htn : strCol tableBatch 1 = .ok (d.tables.map (text (·.2)).2) := strCol_of_holds hholds rfl
  have hcts : strCol columnBatch 0 = .ok (d.columns.map (text (·.tableSchema)).2) :=
    strCol_of_holds hholds' rfl
  have hctn : strCol columnBatch 1 = .ok (d.columns.map (text (·.tableName)).2) :=
    strCol_of_holds hholds' rfl
  have hccn : strCol columnBatch 2 = .ok (d.columns.map (text (·.columnName)).2) :=
    strCol_of_holds hholds' rfl
  have hctype : strCol columnBatch 3 = .ok (d.columns.map (text (·.spannerType)).2) :=
    strCol_of_holds hholds' rfl
  have hok : ∀ {α β : Type} (a : α) (f : α → Except Error β), (Except.ok a >>= f) = f a :=
    fun _ _ => rfl
  simp only [collectStatistics, prepareScans, phases, htables, hcolumns, hts, htn, hcts, hctn, hccn,
    hctype, hok, bind_assoc, tableRows_eq hholds, prepareTables_eq (columnsByTable_eq hholds'),
    Discovered.scanned, Discovered.matching]

theorem collectStatistics_eq_ok (hd : S.Discovers d) (dbSchema tableName : Option (List Char))
    {result : List SchemaStatistics} :
    collectStatistics D S dbSchema tableName = .ok result ↔
      ∃ stats, List.Forall₂ (Scanned D S) (d.scanned dbSchema tableName).zipIdx stats ∧
        result = reported (bySchema (d.scanned dbSchema tableName) stats) := by
  rw [collectStatistics_eq hd, bind_eq_ok]
  constructor
  · rintro ⟨groups, hgroups, hresult⟩
    obtain ⟨stats, hstats, rfl⟩ := phases_eq_ok.mp hgroups
    refine ⟨stats, hstats, ?_⟩
    cases hresult
    rw [Groups.entries_foldl, List.map_map]
    rfl
  · rintro ⟨stats, hstats, rfl⟩
    refine ⟨_, phases_eq_ok.mpr ⟨stats, hstats, rfl⟩, ?_⟩
    rw [Groups.entries_foldl, List.map_map]
    rfl

end Pipeline

/-- A row of counts is read in full: one statistic for each result column. -/
theorem parse_counts {counts : List Int}
    (hbatch : batch.columns = counts.map fun n => .scalars .int64 [some (.int n)])
    (hlen : counts.length = (planned columns).length) (table : List Char) :
    ∃ stats, parseTableStatistics batch table (columns.flatMap planOf) = .ok stats ∧
      ReadFrom batch table columns stats ∧ stats.map Statistic.value = counts := by
  let stats := ((planned columns).zip counts).map fun r => Statistic.mk table r.1.1 r.1.2 r.2
  have hread : ReadFrom batch table columns stats := by
    refine ⟨fun s hs => ?_, ?_, fun i s hi => ?_⟩
    · obtain ⟨r, -, rfl⟩ := List.mem_map.mp hs
      rfl
    · rw [List.map_map]
      exact List.map_fst_zip hlen.ge
    · rw [List.getElem?_map] at hi
      obtain ⟨r, hr, rfl⟩ := Option.map_eq_some_iff.mp hi
      have hn := (List.getElem?_zip_eq_some.mp hr).2
      rw [aggregate, hbatch, List.getElem?_map, hn]
      rfl
  refine ⟨stats, parseTableStatistics_eq_ok.mpr hread, hread, ?_⟩
  rw [List.map_map]
  exact List.map_snd_zip hlen.le

/-- Every generated query has one result column for the row count and one for each planned
statistic, and every row of counts that answers it is read in that order. All matching tables are
scanned, the statistics come out by schema, and each is the count of its own expression. -/
theorem statistics_stay_attached (D : Debug) {S : Snapshot} {d : Discovered} (hd : S.Discovers d)
    (dbSchema tableName : Option (List Char)) :
    (∀ schema table columns sql plan, buildTableQuery D schema table columns = .ok (sql, plan) →
      plan = columns.flatMap planOf ∧
      ∀ g : Grammar, selectList (g.tokens sql) =
          expression (none, rowCountKey) :: plan.map (fun p => expression (some p.1, p.2)) ∧
        ∀ batch counts, batch.columns = counts.map (fun n => .scalars .int64 [some (.int n)]) →
          counts.length = (selectList (g.tokens sql)).length →
          ∃ stats, parseTableStatistics batch table plan = .ok stats ∧
            ReadFrom batch table columns stats ∧ stats.map Statistic.value = counts) ∧
    (d.scanned dbSchema tableName).map Prod.fst = d.matching dbSchema tableName ∧
    (d.tables.Nodup → d.scanned dbSchema tableName =
      (d.matching dbSchema tableName).map fun t => (t, d.columnsOf t)) ∧
    ∀ result, collectStatistics D S dbSchema tableName = .ok result ↔
      ∃ stats, List.Forall₂ (Scanned D S) (d.scanned dbSchema tableName).zipIdx stats ∧
        result = reported (bySchema (d.scanned dbSchema tableName) stats) := by
  refine ⟨fun schema table columns sql plan hbuild => ?_, map_fst_scans _ _, fun h => ?_,
    fun result => collectStatistics_eq_ok hd dbSchema tableName⟩
  · obtain ⟨rfl, hlist⟩ := buildTableQuery_eq_ok hbuild
    refine ⟨rfl, fun g => ⟨?_, fun batch counts hbatch hlen => ?_⟩⟩
    · rw [hlist, planned, List.map_cons, List.map_map]
      rfl
    · rw [hlist, List.length_map] at hlen
      exact parse_counts hbatch hlen table
  · exact scans_of_nodup (h.filter _)

/-- Three tables, the first and the last in one schema. -/
def threeTables : Discovered where
  tables := [([], "a".toList), ("s".toList, "b".toList), ([], "c".toList)]
  columns := [⟨[], "a".toList, "x".toList, "INT64".toList⟩, ⟨[], "a".toList, "j".toList, "JSON".toList⟩]

/-- One row of counts. -/
def countsBatch (counts : List Int) (h : ∀ n ∈ counts, fitsSigned 64 n = true) : RecordBatch where
  schema := counts.map fun _ => .new [] .int64 true
  columns := counts.map fun n => .scalars .int64 [some (.int n)]
  numRows := 1
  types := by
    rw [List.map_map, List.map_map]
    rfl
  lengths := by
    intro column hc
    obtain ⟨n, -, rfl⟩ := List.mem_map.mp hc
    rfl
  nulls := by
    intro fc hfc hnullable
    obtain ⟨n, -, hn⟩ := List.mem_map.mp (List.of_mem_zip hfc).1
    rw [← hn] at hnullable
    cases hnullable
  valid := by
    intro column hc
    obtain ⟨n, hn, rfl⟩ := List.mem_map.mp hc
    refine ⟨rfl, fun slot hslot value hvalue => ?_⟩
    obtain rfl := List.mem_singleton.mp hslot
    obtain rfl := Option.mem_some_iff.mp hvalue
    exact h n hn

def tablesBatch : RecordBatch :=
  batchOf tablesSelect threeTables.tables (by simp [tablesSelect, storable_text])

def columnsBatch : RecordBatch :=
  batchOf columnsSelect threeTables.columns (by simp [columnsSelect, storable_text])

def threeTablesSnapshot : Snapshot where
  query sql := if sql = tablesSql then .ok tablesBatch else .ok columnsBatch
  scan
    | 0, _ => .ok (countsBatch [5, 1, 4, 0] (by decide))
    | 1, _ => .ok (countsBatch [7] (by decide))
    | _, _ => .ok (countsBatch [9] (by decide))

theorem discovers_threeTables : threeTablesSnapshot.Discovers threeTables := by
  have hne : columnsSql ≠ tablesSql := fun h => absurd (congrArg List.length h) (by decide +kernel)
  have htables : threeTablesSnapshot.query tablesSql = .ok tablesBatch := by
    simp [threeTablesSnapshot]
  have hcolumns : threeTablesSnapshot.query columnsSql = .ok columnsBatch := by
    simp [threeTablesSnapshot, hne]
  exact ⟨⟨tablesBatch, htables, rfl, rfl⟩, ⟨columnsBatch, hcolumns, rfl, rfl⟩⟩

def bareDebug : Debug := { string := id, char := fun c => [c] }

theorem statistics_stay_attached_threeTables :
    let result : List SchemaStatistics := [
      ⟨[], [⟨"a".toList, none, rowCountKey, 5⟩, ⟨"a".toList, some "x".toList, nullCountKey, 1⟩,
        ⟨"a".toList, some "x".toList, distinctCountKey, 4⟩,
        ⟨"a".toList, some "j".toList, nullCountKey, 0⟩, ⟨"c".toList, none, rowCountKey, 9⟩]⟩,
      ⟨"s".toList, [⟨"b".toList, none, rowCountKey, 7⟩]⟩]
    collectStatistics bareDebug threeTablesSnapshot none none = .ok result ∧
      ∃ stats, List.Forall₂ (Scanned bareDebug threeTablesSnapshot)
          (threeTables.scanned none none).zipIdx stats ∧
        result = reported (bySchema (threeTables.scanned none none) stats) := by
  intro result
  have hcollect : collectStatistics bareDebug threeTablesSnapshot none none = .ok result := by
    rw [collectStatistics_eq discovers_threeTables]
    rfl
  obtain ⟨-, -, -, hiff⟩ :=
    statistics_stay_attached bareDebug discovers_threeTables none none
  exact ⟨hcollect, (hiff result).mp hcollect⟩

end Statistics
end SpannerAdbc
