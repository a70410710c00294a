import Mathlib.Data.List.Sublists
import SpannerAdbc.Objects.Listing

/-!
# SpannerAdbc.Objects.PushDown

The queries of `get_objects` carry its patterns as `LIKE` predicates on bound parameters. To the server
a backslash in a pattern is an escape, to the driver it is a character like any other;
`sql_like_pattern` doubles it. `passes` is the server's side: it reads the predicates off the text of
a statement and looks up columns and parameters by name. What it drops the listing does not use
(`listing_pushedDown`).
-/

namespace SpannerAdbc
namespace Objects

open Arrow Lib Metadata Sql

/-! ## The queries -/

/-- `pattern.replace('\\', "\\\\")`. -/
def sqlLikePattern (pattern : List Char) : List Char :=
  pattern.flatMap fun c => if c = '\\' then ['\\', '\\'] else [c]

/-- The local variables of `filtered_sql`. -/
structure Building where
  sql : List Char
  predicates : Nat
  params : List (List Char × List Char)

def paramName (i : Nat) : List Char := 'p' :: Nat.toDigits 10 i

def likeClause (predicates : Nat) (column : List Char) (i : Nat) : List Char :=
  (if predicates = 0 then " WHERE ".toList else " AND ".toList) ++ column ++ " LIKE @".toList ++
    paramName i

/-- The body of the loop, for a filter that is present. -/
def Building.like (b : Building) (filter : List Char × List Char) : Building where
  sql := b.sql ++ likeClause b.predicates filter.1 b.params.length
  predicates := b.predicates + 1
  params := b.params ++ [(paramName b.params.length, sqlLikePattern filter.2)]

/-- The body of the loop. -/
def Building.filter (b : Building) (filter : List Char × Option (List Char)) : Building :=
  match filter.2 with
  | none => b
  | some pattern => b.like (filter.1, pattern)

def Building.start (base : List Char) (basePredicate : Option (List Char)) : Building :=
  match basePredicate with
  | none => { sql := base, predicates := 0, params := [] }
  | some predicate => { sql := base ++ " WHERE ".toList ++ predicate, predicates := 1, params := [] }

def filteredSql (base : List Char) (basePredicate : Option (List Char))
    (filters : List (List Char × Option (List Char))) (orderBy : Option (List Char)) :
    List Char × List (List Char × List Char) :=
  let b := filters.foldl Building.filter (.start base basePredicate)
  (b.sql ++ (orderBy.elim [] fun orderBy => " ORDER BY ".toList ++ orderBy), b.params)

/-- The filters that are present. -/
def present (filters : List (List Char × Option (List Char))) : List (List Char × List Char) :=
  filters.filterMap fun f => f.2.map fun pattern => (f.1, pattern)

theorem foldl_filter (filters : List (List Char × Option (List Char))) (b : Building) :
    filters.foldl Building.filter b = (present filters).foldl Building.like b := by
  induction filters generalizing b with
  | nil => rfl
  | cons f filters ih =>
    obtain ⟨column, pattern⟩ := f
    rw [List.foldl_cons, ih]
    cases pattern <;> rfl

/-- The predicates in the text and the parameters: the predicate `i` is on the parameter `p<i>`. -/
theorem foldl_like (filters : List (List Char × List Char)) (b : Building) (hb : b.params = []) :
    filters.foldl Building.like b =
      { sql := b.sql ++ (filters.mapIdx fun i f => likeClause (b.predicates + i) f.1 i).flatten
        predicates := b.predicates + filters.length
        params := filters.mapIdx fun i f => (paramName i, sqlLikePattern f.2) } := by
  induction filters using List.reverseRecOn with
  | nil =>
    cases b
    cases hb
    simp
  | append_singleton filters f ih =>
    rw [List.foldl_append, ih, List.foldl_cons, List.foldl_nil, Building.like]
    simp [List.mapIdx_append, Nat.add_assoc]

/-- The text, which has only the columns of the filters in it, and the parameters. -/
theorem filteredSql_eq (base : List Char) (basePredicate : Option (List Char))
    (filters : List (List Char × Option (List Char))) (orderBy : Option (List Char)) :
    filteredSql base basePredicate filters orderBy =
      ((filteredSql base basePredicate
          (((present filters).map Prod.fst).map fun column => (column, some [])) orderBy).1,
        (present filters).mapIdx fun i f => (paramName i, sqlLikePattern f.2)) := by
  have hparams : (Building.start base basePredicate).params = [] := by
    cases basePredicate <;> rfl
  have hpresent : present (((present filters).map Prod.fst).map fun column => (column, some [])) =
      (present filters).map fun f => (f.1, []) := by
    simp [present, List.filterMap_map, Function.comp_def, List.map_map]
  have hclauses : ∀ k, ((present filters).map fun f => (f.1, ([] : List Char))).mapIdx
      (fun i f => likeClause (k + i) f.1 i) =
      (present filters).mapIdx fun i f => likeClause (k + i) f.1 i := fun k =>
    List.ext_getElem? fun i => by simp [List.getElem?_mapIdx, Function.comp_def]
  simp only [filteredSql, foldl_filter, hpresent, foldl_like _ _ hparams, hclauses]

/-! ## The statements -/

def hideHiddenColumns : List Char := "NOT CAST(IS_HIDDEN AS BOOL)".toList

def hideHiddenColumnConstraints : List Char :=
  "NOT EXISTS ( SELECT 1 FROM INFORMATION_SCHEMA.CONSTRAINT_COLUMN_USAGE AS u ".toList ++
    "JOIN INFORMATION_SCHEMA.COLUMNS AS c ".toList ++
    "ON c.TABLE_SCHEMA = u.TABLE_SCHEMA AND c.TABLE_NAME = u.TABLE_NAME ".toList ++
    "AND c.COLUMN_NAME = u.COLUMN_NAME WHERE u.CONSTRAINT_SCHEMA = tc.CONSTRAINT_SCHEMA ".toList ++
    "AND u.CONSTRAINT_NAME = tc.CONSTRAINT_NAME AND CAST(c.IS_HIDDEN AS BOOL))".toList

def schemaName : List Char := "SCHEMA_NAME".toList
def tableSchema : List Char := "TABLE_SCHEMA".toList
def tableName : List Char := "TABLE_NAME".toList
def columnName : List Char := "COLUMN_NAME".toList

def schemataBase : List Char := "SELECT SCHEMA_NAME FROM INFORMATION_SCHEMA.SCHEMATA".toList

def tablesBase : List Char :=
  "SELECT TABLE_SCHEMA, TABLE_NAME, TABLE_TYPE FROM INFORMATION_SCHEMA.TABLES".toList

def columnsBase : List Char :=
  ("SELECT TABLE_SCHEMA, TABLE_NAME, COLUMN_NAME, ORDINAL_POSITION, " ++
    "IS_NULLABLE, SPANNER_TYPE FROM INFORMATION_SCHEMA.COLUMNS").toList

def columnsOrder : Option (List Char) := some "TABLE_SCHEMA, TABLE_NAME, ORDINAL_POSITION".toList

def constraintsBase : List Char :=
  ("SELECT TABLE_SCHEMA, TABLE_NAME, CONSTRAINT_NAME, CONSTRAINT_TYPE " ++
    "FROM INFORMATION_SCHEMA.TABLE_CONSTRAINTS AS tc").toList

def keyColumnsSql : List Char :=
  ("SELECT CONSTRAINT_SCHEMA, CONSTRAINT_NAME, TABLE_SCHEMA, TABLE_NAME, COLUMN_NAME, " ++
    "CAST(ORDINAL_POSITION AS STRING), CAST(POSITION_IN_UNIQUE_CONSTRAINT AS STRING) " ++
    "FROM INFORMATION_SCHEMA.KEY_COLUMN_USAGE " ++
    "ORDER BY CONSTRAINT_SCHEMA, CONSTRAINT_NAME, ORDINAL_POSITION").toList

def referentialSql : List Char :=
  ("SELECT CONSTRAINT_SCHEMA, CONSTRAINT_NAME, UNIQUE_CONSTRAINT_SCHEMA, " ++
    "UNIQUE_CONSTRAINT_NAME FROM INFORMATION_SCHEMA.REFERENTIAL_CONSTRAINTS").toList

namespace ObjectFilters

variable (filters : ObjectFilters)

def onSchemata : List (List Char × Option (List Char)) := [(Objects.schemaName, filters.dbSchema)]

def onTables : List (List Char × Option (List Char)) :=
  [(Objects.tableSchema, filters.dbSchema), (Objects.tableName, filters.tableName)]

def onColumns : List (List Char × Option (List Char)) :=
  [(Objects.tableSchema, filters.dbSchema), (Objects.tableName, filters.tableName),
    (Objects.columnName, filters.columnName)]

def schemataStmt : List Char × List (List Char × List Char) :=
  filteredSql schemataBase none filters.onSchemata none

def tablesStmt : List Char × List (List Char × List Char) :=
  filteredSql tablesBase none filters.onTables none

def columnsStmt : List Char × List (List Char × List Char) :=
  filteredSql columnsBase (some hideHiddenColumns) filters.onColumns columnsOrder

def constraintsStmt : List Char × List (List Char × List Char) :=
  filteredSql constraintsBase (some hideHiddenColumnConstraints) filters.onTables none

end ObjectFilters

/-! ## The server -/

/-- A pattern of the server: a backslash takes the character behind it as it is. A pattern that ends
with a lone backslash is refused. -/
def serverGlyphs : List Char → Option (List (Glyph Char))
  | [] => some []
  | ['\\'] => none
  | '\\' :: c :: pattern => (serverGlyphs pattern).map (.lit c :: ·)
  | c :: pattern => (serverGlyphs pattern).map (glyph c :: ·)

/-- The server's `LIKE`: a backslash escapes, otherwise it is the usual one. -/
def ServerLike (like : List Char → List Char → Bool) : Prop :=
  ∀ pattern glyphs value, serverGlyphs pattern = some glyphs →
    (like pattern value = true ↔ Matches glyphs value)

theorem serverGlyphs_cons {c : Char} (hc : c ≠ '\\') (pattern : List Char) :
    serverGlyphs (c :: pattern) = (serverGlyphs pattern).map (glyph c :: ·) := by
  rw [serverGlyphs]
  · rintro rfl
    exact absurd rfl hc
  · rintro _ _ rfl
    exact absurd rfl hc

/-- The doubled pattern means to the server what the pattern means to the driver. -/
theorem serverGlyphs_sqlLikePattern (pattern : List Char) :
    serverGlyphs (sqlLikePattern pattern) = some (pattern.map glyph) := by
  induction pattern with
  | nil => rfl
  | cons c pattern ih =>
    rw [sqlLikePattern, List.flatMap_cons, ← sqlLikePattern]
    by_cases hc : c = '\\'
    · subst hc
      rw [if_pos rfl, List.cons_append, List.cons_append, List.nil_append, serverGlyphs, ih]
      rfl
    · rw [if_neg hc, List.singleton_append, serverGlyphs_cons hc, ih]
      rfl

theorem exists_serverLike : ∃ like, ServerLike like := by
  classical
  refine ⟨fun pattern value => (serverGlyphs pattern).any fun glyphs => decide (Matches glyphs value),
    fun pattern glyphs value h => ?_⟩
  simp only [h, Option.any_some, decide_eq_true_eq]

/-! ## The predicates of a statement -/

def isWord (word : String) : Lexeme → Bool
  | .word w => eqIgnoreAsciiCase w word.toList
  | _ => false

/-- The predicates that are joined by `AND`, up to `ORDER BY`, both outside brackets. -/
def conjunctsLoop : (depth : Nat) → (conjunct : List Lexeme) → List Lexeme → List (List Lexeme)
  | _, conjunct, [] => [conjunct]
  | depth, conjunct, l :: ls =>
    if depth = 0 ∧ isWord "ORDER" l = true then [conjunct]
    else if depth = 0 ∧ isWord "AND" l = true then conjunct :: conjunctsLoop 0 [] ls
    else
      let depth := if l = .other '(' then depth + 1 else if l = .other ')' then depth - 1 else depth
      conjunctsLoop depth (conjunct ++ [l]) ls

/-- The predicates of the `WHERE` clause. -/
def conjuncts (sql : List Char) : List (List Lexeme) :=
  match (significantLexemes sql).dropWhile fun l => !isWord "WHERE" l with
  | [] => []
  | _ :: ls => conjunctsLoop 0 [] ls

/-- A row, or the parameters of a statement, by name. -/
abbrev Named := List (List Char × List Char)

/-- The predicates against hidden columns, which the catalog does not have. -/
def hidesColumns (conjunct : List Lexeme) : Bool :=
  conjunct == significantLexemes hideHiddenColumns ||
    conjunct == significantLexemes hideHiddenColumnConstraints

/-- The predicate `column LIKE @parameter` of a row. -/
def likeHolds (like : List Char → List Char → Bool) (params row : Named) : List Lexeme → Bool
  | [.word column, .word op, .other '@', .word param] =>
    eqIgnoreAsciiCase op "LIKE".toList &&
      ((row.lookup column).bind fun cell => (params.lookup param).map fun p => like p cell) == some true
  | _ => false

def holds (like : List Char → List Char → Bool) (params row : Named) (conjunct : List Lexeme) : Bool :=
  hidesColumns conjunct || likeHolds like params row conjunct

/-- The row is in the answer of a statement. -/
def passes (like : List Char → List Char → Bool) (stmt : List Char × Named) (row : Named) : Bool :=
  (conjuncts stmt.1).all (holds like stmt.2 row)

/-- The predicate of the filter on a column, the `i`th that is present. -/
def likeLexemes (i : Nat) (column : List Char) : List Lexeme :=
  [.word column, .word "LIKE".toList, .other '@', .word (paramName i)]

theorem hidesColumns_like (i : Nat) (column : List Char) :
    hidesColumns (likeLexemes i column) = false := by
  have hne : ∀ ls : List Lexeme, ls[1]? ≠ some (.word "LIKE".toList) →
      (likeLexemes i column == ls) = false := by
    intro ls hls
    refine beq_eq_false_iff_ne.mpr fun h => hls ?_
    rw [← h]
    rfl
  rw [hidesColumns, hne _ (by decide +kernel), hne _ (by decide +kernel), Bool.false_or]

theorem paramName_injective : Function.Injective paramName := by
  intro i j h
  have hdigits := congrArg (Nat.ofDigitChars 10 · 0) (List.cons.inj h).2
  simpa only [Nat.ofDigitChars_ten_toDigits] using hdigits

theorem lookup_mapIdx {A B : Type} {name : Nat → List Char} (hname : Function.Injective name)
    (f : A → B) (as : List A) (i : Nat) :
    (as.mapIdx fun i a => (name i, f a)).lookup (name i) = as[i]?.map f := by
  induction as generalizing name i with
  | nil => rfl
  | cons a as ih =>
    rw [List.mapIdx_cons, List.lookup_cons]
    cases i with
    | zero => simp
    | succ i =>
      have hne : (name (i + 1) == name 0) = false :=
        beq_eq_false_iff_ne.mpr fun h => absurd (hname h) (Nat.succ_ne_zero i)
      rw [hne]
      exact ih (fun j k h => Nat.succ.inj (hname h)) i

variable {basePredicate orderBy : Option (List Char)} {front : List (List Lexeme)}

/-- A statement whose text has these predicates, one for each filter that is present, returns the rows
that the driver accepts. -/
theorem passes_iff (filters : List (List Char × Option (List Char)))
    {like : List Char → List Char → Bool} (hlike : ServerLike like) {base : List Char}
    (htext : conjuncts (filteredSql base basePredicate filters orderBy).1 =
      front ++ ((present filters).map Prod.fst).mapIdx likeLexemes)
    (hfront : front.all hidesColumns = true) {row : Named}
    (hrow : ∀ f ∈ filters, (row.lookup f.1).isSome = true) :
    passes like (filteredSql base basePredicate filters orderBy) row = true ↔
      ∀ f ∈ filters, Accepts f.2 ((row.lookup f.1).getD []) := by
  have hone : ∀ i f, (present filters)[i]? = some f →
      (holds like (filteredSql base basePredicate filters orderBy).2 row (likeLexemes i f.1) = true ↔
        Like f.2 ((row.lookup f.1).getD [])) := by
    intro i f hf
    obtain ⟨g, hg, hpattern⟩ := List.mem_filterMap.mp (List.mem_of_getElem? hf)
    obtain ⟨pattern, -, rfl⟩ := Option.map_eq_some_iff.mp hpattern
    obtain ⟨cell, hcell⟩ := Option.isSome_iff_exists.mp (hrow g hg)
    have hparam : (filteredSql base basePredicate filters orderBy).2.lookup (paramName i) =
        some (sqlLikePattern pattern) := by
      rw [filteredSql_eq]
      exact (lookup_mapIdx paramName_injective _ _ i).trans (by rw [hf]; rfl)
    have hop : eqIgnoreAsciiCase "LIKE".toList "LIKE".toList = true := by decide
    rw [holds, hidesColumns_like, Bool.false_or, likeLexemes, likeHolds, hop, hcell, hparam, Bool.true_and, Option.bind_some, Option.map_some,
      beq_iff_eq, Option.some.injEq, Option.getD_some]
    exact hlike _ _ _ (serverGlyphs_sqlLikePattern pattern)
  have hhidden : front.all (holds like (filteredSql base basePredicate filters orderBy).2 row) =
      true := by
    refine List.all_eq_true.mpr fun conjunct hmem => ?_
    rw [holds, List.all_eq_true.mp hfront conjunct hmem, Bool.true_or]
  rw [passes, htext, List.all_append, hhidden, Bool.true_and, List.all_eq_true]
  constructor
  · intro h f hf pattern hpattern
    have hmem : (f.1, pattern) ∈ present filters :=
      List.mem_filterMap.mpr ⟨f, hf, by rw [Option.mem_def.mp hpattern]; rfl⟩
    obtain ⟨i, hi⟩ := List.mem_iff_getElem?.mp hmem
    refine (hone i _ hi).mp (h _ (List.mem_iff_getElem?.mpr ⟨i, ?_⟩))
    rw [List.getElem?_mapIdx, List.getElem?_map, hi]
    rfl
  · intro h conjunct hconjunct
    obtain ⟨i, hi⟩ := List.mem_iff_getElem?.mp hconjunct
    rw [List.getElem?_mapIdx, List.getElem?_map, Option.map_map] at hi
    obtain ⟨f, hf, rfl⟩ := Option.map_eq_some_iff.mp hi
    obtain ⟨g, hg, hpattern⟩ := List.mem_filterMap.mp (List.mem_of_getElem? hf)
    obtain ⟨pattern, hp, rfl⟩ := Option.map_eq_some_iff.mp hpattern
    exact (hone i _ hf).mpr (h g hg pattern hp)

/-! ## The texts of the statements -/

theorem columns_sublist (filters : List (List Char × Option (List Char))) :
    (present filters).map Prod.fst ∈ (filters.map Prod.fst).sublists := by
  rw [List.mem_sublists]
  induction filters with
  | nil => exact .slnil
  | cons f filters ih =>
    obtain ⟨column, pattern⟩ := f
    cases pattern with
    | none => exact ih.cons _
    | some pattern => exact ih.cons_cons _

/-- The predicates in the text of a statement, whichever filters are present. -/
def Reads (base : List Char) (basePredicate orderBy : Option (List Char))
    (front : List (List Lexeme)) (columns : List (List Char)) : Prop :=
  ∀ present ∈ columns.sublists,
    conjuncts (filteredSql base basePredicate (present.map fun column => (column, some [])) orderBy).1 =
      front ++ present.mapIdx likeLexemes

instance {base : List Char} {basePredicate orderBy : Option (List Char)}
    {front : List (List Lexeme)} {columns : List (List Char)} :
    Decidable (Reads base basePredicate orderBy front columns) :=
  inferInstanceAs (Decidable (∀ present ∈ columns.sublists, _))

theorem reads_schemata : Reads schemataBase none none [] [schemaName] := by decide +kernel

theorem reads_tables : Reads tablesBase none none [] [tableSchema, tableName] := by decide +kernel

theorem reads_columns : Reads columnsBase (some hideHiddenColumns) columnsOrder
    [significantLexemes hideHiddenColumns] [tableSchema, tableName, columnName] := by
  decide +kernel

theorem reads_constraints : Reads constraintsBase (some hideHiddenColumnConstraints) none
    [significantLexemes hideHiddenColumnConstraints] [tableSchema, tableName] := by
  decide +kernel

theorem Reads.conjuncts_eq {base : List Char} {filters : List (List Char × Option (List Char))}
    (h : Reads base basePredicate orderBy front (filters.map Prod.fst)) :
    conjuncts (filteredSql base basePredicate filters orderBy).1 =
      front ++ ((present filters).map Prod.fst).mapIdx likeLexemes := by
  rw [filteredSql_eq]
  exact h _ (columns_sublist filters)

theorem filter_of_implied {A : Type} {p q : A → Bool} {rows : List A}
    (h : ∀ a, p a = true → q a = true) : (rows.filter q).filter p = rows.filter p := by
  rw [List.filter_filter]
  refine List.filter_congr fun a _ => ?_
  cases hp : p a with
  | false => rfl
  | true => rw [h a hp, Bool.and_true]


/-! ## The rows that the server returns -/

def schemaNamed (schema : List Char) : Named := [("SCHEMA_NAME".toList, schema)]

def tableNamed (schema table : List Char) : Named :=
  [("TABLE_SCHEMA".toList, schema), ("TABLE_NAME".toList, table)]

def columnNamed (schema table name : List Char) : Named :=
  tableNamed schema table ++ [("COLUMN_NAME".toList, name)]

/-- The rows that satisfy the predicates of their statements. Key columns and references are asked for
without a filter. -/
def Catalog.pushedDown (like : List Char → List Char → Bool) (filters : ObjectFilters)
    (rows : Catalog) : Catalog :=
  { rows with
    schemata := rows.schemata.filter fun schema => passes like filters.schemataStmt (schemaNamed schema)
    tables := rows.tables.filter fun t =>
      passes like filters.tablesStmt (tableNamed t.tableSchema t.tableName)
    columns := rows.columns.filter fun c =>
      passes like filters.columnsStmt (columnNamed c.tableSchema c.tableName c.columnName)
    constraints := rows.constraints.filter fun c =>
      passes like filters.constraintsStmt (tableNamed c.tableSchema c.tableName) }

section PushedDown

variable {like : List Char → List Char → Bool} (hlike : ServerLike like) (filters : ObjectFilters)
  {schema : List Char}

/-- The filters of both statements about tables. -/
theorem lookup_tables (schema table : List Char) : ∀ f ∈ filters.onTables,
    ((tableNamed schema table).lookup f.1).isSome = true :=
  List.forall_mem_cons.mpr ⟨rfl, List.forall_mem_singleton.mpr rfl⟩

theorem accepts_tables (schema table : List Char) :
    (∀ f ∈ filters.onTables, Accepts f.2 (((tableNamed schema table).lookup f.1).getD [])) ↔
      Accepts filters.dbSchema schema ∧ Accepts filters.tableName table := by
  simp only [ObjectFilters.onTables, List.forall_mem_cons, List.not_mem_nil, false_implies,
    implies_true, and_true]
  rfl

include hlike

theorem passes_schemata (schema : List Char) :
    passes like filters.schemataStmt (schemaNamed schema) =
      decide (Accepts filters.dbSchema schema) := by
  rw [Bool.eq_iff_iff, ObjectFilters.schemataStmt,
    passes_iff filters.onSchemata hlike (Reads.conjuncts_eq reads_schemata) rfl
      (List.forall_mem_singleton.mpr rfl),
    decide_eq_true_eq]
  simp only [ObjectFilters.onSchemata, List.forall_mem_singleton]
  rfl

theorem passes_tables (schema table : List Char) :
    passes like filters.tablesStmt (tableNamed schema table) =
      decide (Accepts filters.dbSchema schema ∧ Accepts filters.tableName table) := by
  rw [Bool.eq_iff_iff, ObjectFilters.tablesStmt,
    passes_iff filters.onTables hlike (Reads.conjuncts_eq reads_tables) rfl
      (lookup_tables filters schema table),
    decide_eq_true_eq, accepts_tables]

theorem passes_constraints (schema table : List Char) :
    passes like filters.constraintsStmt (tableNamed schema table) =
      decide (Accepts filters.dbSchema schema ∧ Accepts filters.tableName table) := by
  rw [Bool.eq_iff_iff, ObjectFilters.constraintsStmt,
    passes_iff filters.onTables hlike (Reads.conjuncts_eq reads_constraints) (by simp [hidesColumns])
      (lookup_tables filters schema table),
    decide_eq_true_eq, accepts_tables]

theorem passes_columns (schema table name : List Char) :
    passes like filters.columnsStmt (columnNamed schema table name) =
      decide (Accepts filters.dbSchema schema ∧ Accepts filters.tableName table ∧
        Accepts filters.columnName name) := by
  rw [Bool.eq_iff_iff, ObjectFilters.columnsStmt,
    passes_iff filters.onColumns hlike (Reads.conjuncts_eq reads_columns) (by simp [hidesColumns])
      (List.forall_mem_cons.mpr ⟨rfl, List.forall_mem_cons.mpr
        ⟨rfl, List.forall_mem_singleton.mpr rfl⟩⟩),
    decide_eq_true_eq]
  simp only [ObjectFilters.onColumns, List.forall_mem_cons, List.not_mem_nil, false_implies,
    implies_true, and_true]
  rfl

theorem listedColumns_pushedDown (rows : Catalog) {table : List Char}
    (hs : Accepts filters.dbSchema schema) (ht : Accepts filters.tableName table) :
    (rows.pushedDown like filters).listedColumns filters schema table =
      rows.listedColumns filters schema table := by
  rw [Catalog.listedColumns, Catalog.pushedDown, filter_of_implied, Catalog.listedColumns]
  intro c hc
  obtain ⟨rfl, rfl, hname⟩ := of_decide_eq_true hc
  rw [passes_columns hlike]
  exact decide_eq_true ⟨hs, ht, hname⟩

theorem listedConstraints_pushedDown (rows : Catalog) {table : List Char}
    (hs : Accepts filters.dbSchema schema) (ht : Accepts filters.tableName table) :
    (rows.pushedDown like filters).listedConstraints schema table =
      rows.listedConstraints schema table := by
  have hrows : ∀ c : ConstraintsRow, decide (c.tableSchema = schema ∧ c.tableName = table) = true →
      passes like filters.constraintsStmt (tableNamed c.tableSchema c.tableName) = true := by
    intro c hc
    obtain ⟨rfl, rfl⟩ := of_decide_eq_true hc
    rw [passes_constraints hlike]
    exact decide_eq_true ⟨hs, ht⟩
  rw [Catalog.listedConstraints, Catalog.listedConstraints]
  exact congrArg (List.map _) (filter_of_implied hrows)

theorem listedTables_pushedDown (rows : Catalog) (hs : Accepts filters.dbSchema schema) :
    (rows.pushedDown like filters).listedTables filters schema = rows.listedTables filters schema := by
  have hrows : ∀ t : TablesRow, decide (t.tableSchema = schema ∧
      Accepts filters.tableName t.tableName ∧ AcceptsType filters.tableType t.tableType) = true →
      passes like filters.tablesStmt (tableNamed t.tableSchema t.tableName) = true := by
    intro t ht
    obtain ⟨rfl, hname, -⟩ := of_decide_eq_true ht
    rw [passes_tables hlike]
    exact decide_eq_true ⟨hs, hname⟩
  rw [Catalog.listedTables, Catalog.listedTables]
  refine (congrArg (List.map _) (filter_of_implied hrows)).trans (List.map_congr_left fun t ht => ?_)
  obtain ⟨-, hname, -⟩ := of_decide_eq_true (List.mem_filter.mp ht).2
  rw [listedColumns_pushedDown hlike filters rows hs hname,
    listedConstraints_pushedDown hlike filters rows hs hname]

/-- What the server drops is not listed. -/
theorem listing_pushedDown (rows : Catalog) :
    (rows.pushedDown like filters).listing filters = rows.listing filters := by
  have hrows : ∀ schema, decide (Accepts filters.dbSchema schema) = true →
      passes like filters.schemataStmt (schemaNamed schema) = true := by
    intro schema hs
    rw [passes_schemata hlike]
    exact hs
  rw [Catalog.listing, Catalog.listing]
  refine (congrArg (List.map _) (filter_of_implied hrows)).trans
    (List.map_congr_left fun schema hs => ?_)
  have hs := of_decide_eq_true (List.mem_filter.mp hs).2
  rw [listedTables_pushedDown hlike filters rows hs]

end PushedDown

/-- The assembly of any rows of the catalog is their listing, and that of the rows that the server
returns for the statements is the same. -/
theorem objects_listing_exact (filters : ObjectFilters) {rows : Catalog} {batches : ObjectBatches}
    (hbatches : batches.Hold rows) :
    assembleObjects batches filters = .ok (rows.listing filters) ∧
      ∀ like, ServerLike like → ∀ fetched : ObjectBatches,
        fetched.Hold (rows.pushedDown like filters) →
          assembleObjects fetched filters = .ok (rows.listing filters) := by
  refine ⟨assembleObjects_eq hbatches, fun like hlike fetched hfetched => ?_⟩
  rw [assembleObjects_eq hfetched, listing_pushedDown hlike]

/-- Two schemas, with tables and columns. -/
def shop : Catalog where
  schemata := ["a\\b".toList, "ab".toList]
  tables := [⟨"a\\b".toList, "orders".toList, "BASE TABLE".toList⟩,
    ⟨"a\\b".toList, "items".toList, "BASE TABLE".toList⟩,
    ⟨"ab".toList, "orders".toList, "BASE TABLE".toList⟩]
  columns := [⟨"a\\b".toList, "orders".toList, "id".toList, 1, "NO".toList, "INT64".toList⟩,
    ⟨"a\\b".toList, "items".toList, "id".toList, 1, "NO".toList, "INT64".toList⟩,
    ⟨"ab".toList, "orders".toList, "id".toList, 1, "NO".toList, "INT64".toList⟩]
  constraints := []
  keyColumns := []
  referential := []

/-- The rows of `shop` that are left by the filters below. -/
def shopOrders : Catalog :=
  { shop with
    schemata := shop.schemata.take 1, tables := shop.tables.take 1, columns := shop.columns.take 1 }

/-- The filters `a\%` on the schema and `o%` on the table keep the schema `a\b` with its orders, on the
server and in the driver. -/
theorem objects_listing_exact_backslash :
    let filters : ObjectFilters := ⟨some "a\\%".toList, some "o%".toList, none, none⟩
    let listing : List DbSchema := [⟨"a\\b".toList, [⟨"orders".toList, "BASE TABLE".toList,
      [⟨"id".toList, 1, false, "INT64".toList⟩], []⟩]⟩]
    assembleObjects (shop.batches (by decide)) filters = .ok listing ∧
      ∃ like, ServerLike like ∧ shop.pushedDown like filters = shopOrders ∧
        assembleObjects (shopOrders.batches (by decide)) filters = .ok listing := by
  intro filters listing
  obtain ⟨like, hlike⟩ := exists_serverLike
  have hlisting : shop.listing filters = listing := by decide +kernel
  have hdown : shop.pushedDown like filters = shopOrders := by
    simp only [Catalog.pushedDown, passes_schemata hlike, passes_tables hlike, passes_columns hlike]
    rfl
  have hholds : (shopOrders.batches (by decide)).Hold (shop.pushedDown like filters) := by
    rw [hdown]
    exact hold_batches shopOrders _
  have hexact := objects_listing_exact filters (hold_batches shop (by decide))
  rw [hlisting] at hexact
  exact ⟨hexact.1, like, hlike, hdown, hexact.2 like hlike _ hholds⟩

end Objects
end SpannerAdbc
