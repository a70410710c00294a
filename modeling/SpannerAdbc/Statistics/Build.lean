import SpannerAdbc.Objects.Build
import SpannerAdbc.Statistics.Collect

/-!
# SpannerAdbc.Statistics.Build

`build`: the one-row batch of `get_statistics`. The counts are the `int64` branch of a dense union, whose
other branches are empty.
-/

namespace SpannerAdbc
namespace Statistics

open Arrow Lib Metadata
open SpannerAdbc.Objects (textField listField)

/-! ## The result schema -/

def valueFields : UnionFields :=
  .cons 0 (.new "int64".toList .int64 true) (.cons 1 (.new "uint64".toList .uint64 true)
    (.cons 2 (.new "float64".toList .float64 true) (.cons 3 (.new "binary".toList .binary true) .nil)))

def statisticFields : List Field :=
  [textField "table_name" false, textField "column_name" true,
   .new "statistic_key".toList .int16 false,
   .new "statistic_value".toList (.union valueFields .dense) false,
   .new "statistic_is_approximate".toList .boolean false]

def dbSchemaFields : List Field :=
  [textField "db_schema_name" true,
   listField "db_schema_statistics" (.struct (.ofList statisticFields)) false]

/-- `GET_STATISTICS_SCHEMA` of the ADBC specification. -/
def getStatisticsSchema : Schema :=
  [textField "catalog_name" true,
   listField "catalog_db_schemas" (.struct (.ofList dbSchemaFields)) false]

/-! ## The code -/

section Build

variable (message : ArrowError → List Char)

def int64Branch : Int := 0

/-- The branches of the `statistic_value` field. -/
def unionFields (valueField : Field) : Except Error UnionFields :=
  match valueField.dataType with
  | .union fields _ => .ok fields
  | _ => .error (err
      "unexpected ADBC result schema shape: expected `statistic_value` to be a union".toList .internal)

def buildStatisticStruct (fields : Fields) (stats : List Statistic) : Except Error ArrayRef := do
  let valueField ← field fields.toList "statistic_value".toList
  let valueFields ← unionFields valueField
  let int64Values := int64s (stats.map (·.value))
  let statisticValue ← denseUnion message valueFields [(int64Branch, int64Values)]
    (List.replicate stats.length int64Branch) (i32Range stats.length)
  structOf message fields (byName fields
    [("table_name".toList, strings (stats.map (·.table))),
     ("column_name".toList, stringsOpt (stats.map (·.column))),
     ("statistic_key".toList, int16s (stats.map (·.key))),
     ("statistic_value".toList, statisticValue),
     ("statistic_is_approximate".toList, bools (List.replicate stats.length false))] stats.length)

def build (catalog : List Char) (schemas : List SchemaStatistics) (outSchema : Schema) :
    Except Error RecordBatch := do
  let dbSchemasField ← field outSchema "catalog_db_schemas".toList
  let dbSchemaItem ← listItem dbSchemasField
  let dbSchemaStructFields ← structFields dbSchemaItem
  let statsField ← field dbSchemaStructFields.toList "db_schema_statistics".toList
  let statItem ← listItem statsField
  let statFields ← structFields statItem
  let statStruct ← buildStatisticStruct message statFields (schemas.flatMap (·.statistics))
  let dbSchemaStatistics ← listOf message statItem (schemas.map (·.statistics.length)) statStruct
  let schemaNames := strings (schemas.map (·.dbSchema))
  let dbSchemaStruct ← structOf message dbSchemaStructFields [schemaNames, dbSchemaStatistics]
  let catalogDbSchemas ← listOf message dbSchemaItem [schemas.length] dbSchemaStruct
  recordBatch message outSchema [strings [catalog], catalogDbSchemas]

end Build

/-! ## Reading a batch -/

def readStatistic (d : Datum) : Option Statistic := do
  let table ← readText (fieldOf statisticFields "table_name".toList d)
  let column ← readTextOpt (fieldOf statisticFields "column_name".toList d)
  let key ← readInt (fieldOf statisticFields "statistic_key".toList d)
  let value ← readInt (fieldOf statisticFields "statistic_value".toList d)
  return { table, column, key, value }

def readDbSchema (d : Datum) : Option SchemaStatistics := do
  let dbSchema ← readText (fieldOf dbSchemaFields "db_schema_name".toList d)
  let statistics ← readList readStatistic (fieldOf dbSchemaFields "db_schema_statistics".toList d)
  return { dbSchema, statistics }

def readCatalog (d : Datum) : Option (List Char × List SchemaStatistics) := do
  let name ← readText (fieldOf getStatisticsSchema "catalog_name".toList d)
  let schemas ← readList readDbSchema (fieldOf getStatisticsSchema "catalog_db_schemas".toList d)
  return (name, schemas)

def readStatistics (batch : RecordBatch) : Option (List (List Char × List SchemaStatistics)) :=
  batch.rows.mapM readCatalog

/-- Keys are of type `i16` and counts of type `i64`. -/
def InRange (schemas : List SchemaStatistics) : Prop :=
  ∀ s ∈ schemas, ∀ stat ∈ s.statistics,
    fitsSigned 16 stat.key = true ∧ fitsSigned 64 stat.value = true

/-- The totals that the lists count. -/
def Fits (schemas : List SchemaStatistics) : Prop :=
  (schemas.flatMap (·.statistics)).length < 2 ^ 31 ∧ schemas.length < 2 ^ 31

/-! ## The records of each level -/

section Cells

variable (catalog : List Char)

def statisticCells : List (Field × (Statistic → Datum)) :=
  [(textField "table_name" false, fun s => .scalar (.text s.table)),
   (textField "column_name" true, fun s => Datum.ofSlot (s.column.map .text)),
   (.new "statistic_key".toList .int16 false, fun s => .scalar (.int (wrap 16 s.key))),
   (.new "statistic_value".toList (.union valueFields .dense) false, fun s =>
      .scalar (.int (wrap 64 s.value))),
   (.new "statistic_is_approximate".toList .boolean false, fun _ => .scalar (.bool false))]

def dbSchemaCells : List (Field × (SchemaStatistics → Datum)) :=
  [(textField "db_schema_name" true, fun s => .scalar (.text s.dbSchema)),
   (listField "db_schema_statistics" (.struct (.ofList statisticFields)) false, fun s =>
      .list (s.statistics.map (record statisticFields statisticCells)))]

def catalogCells (schemas : List SchemaStatistics) : List (Field × (Unit → Datum)) :=
  [(textField "catalog_name" true, fun _ => .scalar (.text catalog)),
   (listField "catalog_db_schemas" (.struct (.ofList dbSchemaFields)) false, fun _ =>
      .list (schemas.map (record dbSchemaFields dbSchemaCells)))]

theorem layout_statisticCells : Layout statisticFields statisticCells where
  names := by decide +kernel
  mem := by simp [statisticFields, statisticCells]
  required := by decide +kernel
  nulls := by simp [statisticCells, textField, Field.isNullable, Field.new]

theorem layout_dbSchemaCells : Layout dbSchemaFields dbSchemaCells where
  names := by decide
  mem := by simp [dbSchemaFields, dbSchemaCells]
  required := by simp [dbSchemaFields, dbSchemaCells]
  nulls := by simp [dbSchemaCells]

theorem layout_catalogCells (schemas : List SchemaStatistics) :
    Layout getStatisticsSchema (catalogCells catalog schemas) where
  names := by decide
  mem := by simp [getStatisticsSchema, catalogCells]
  required := by simp [getStatisticsSchema, catalogCells]
  nulls := by simp [catalogCells]

end Cells

/-! ## The builders -/

section Settles

variable (message : ArrowError → List Char)

theorem settles_buildStatisticStruct (stats : List Statistic) :
    Settles (buildStatisticStruct message (.ofList statisticFields) stats) (stats.length < 2 ^ 31)
      fun a => Encodes a.1 (.struct (.ofList statisticFields))
        (stats.map (record statisticFields statisticCells)) := by
  have hkeys : Encodes (int16s (stats.map (·.key))).1 .int16
      (stats.map fun s => .scalar (.int (wrap 16 s.key))) :=
    encodes_ints _ _ (by decide) rfl fun _ h => by exact h
  have hvalues : Encodes (int64s (stats.map (·.value))).1 .int64
      (stats.map fun s => .scalar (.int (wrap 64 s.value))) :=
    encodes_ints _ _ (by decide) rfl fun _ h => by exact h
  have happroximate := encodes_bools stats fun _ => false
  rw [List.map_const'] at happroximate
  have hbranch : (int64Branch, .new "int64".toList .int64 true) ∈ valueFields.toList :=
    List.mem_cons_self
  have htypes : ∀ f, (int64Branch, f) ∈ valueFields.toList →
      (int64s (stats.map (·.value))).1.dataType = f.dataType := by
    intro f hf
    rw [hvalues.dataType]
    simp only [valueFields, UnionFields.toList, List.mem_cons, Prod.mk.injEq, List.not_mem_nil,
      or_false, int64Branch] at hf
    rcases hf with ⟨-, rfl⟩ | ⟨h, -⟩ | ⟨h, -⟩ | ⟨h, -⟩
    · rfl
    · cases h
    · cases h
    · cases h
  have hunion := settles_denseUnion message hbranch htypes hvalues.rows
  rw [List.length_map] at hunion
  refine .ok_bind rfl (.ok_bind rfl ((hunion.bind fun union hunion => ?_).congr (and_true _).to_iff))
  exact settles_byName message layout_statisticCells (List.cons_ne_nil _ _)
    (.cons ⟨rfl, encodes_strings _ _⟩ (.cons ⟨rfl, encodes_stringsOpt _ _⟩ (.cons ⟨rfl, hkeys⟩
      (.cons ⟨rfl, hunion⟩ (.cons ⟨rfl, happroximate⟩ .nil)))))

theorem settles_build (catalog : List Char) (schemas : List SchemaStatistics) :
    Settles (build message catalog schemas getStatisticsSchema) (Fits schemas) fun batch =>
      batch.schema = getStatisticsSchema ∧
        batch.rows = [()].map (record getStatisticsSchema (catalogCells catalog schemas)) := by
  have hflat : [()].flatMap (fun _ => schemas) = schemas := by simp
  refine .ok_bind rfl (.ok_bind rfl (.ok_bind rfl (.ok_bind rfl (.ok_bind rfl (.ok_bind rfl ?_)))))
  refine ((settles_buildStatisticStruct message _).bind fun statStruct hstats =>
    (settles_grouped message _ _ rfl hstats).bind fun statistics hstatistics =>
    (settles_inOrder message layout_dbSchemaCells rfl (List.cons_ne_nil _ _)
      (.cons (encodes_strings _ _) (.cons hstatistics .nil))).bind fun schemaStruct hschemas =>
    Settles.bind (p := schemas.length < 2 ^ 31) ?_ fun dbSchemas hdbSchemas =>
    settles_recordBatch message (layout_catalogCells catalog schemas) rfl (List.cons_ne_nil _ _)
      (.cons (encodes_strings [()] fun _ => catalog) (.cons hdbSchemas .nil))).congr ?_
  · rw [← hflat] at hschemas
    have h := settles_grouped message [()] (fun _ => schemas)
      (show (Field.new "item".toList (.struct (.ofList dbSchemaFields)) true).isNullable = true from rfl)
      hschemas
    rw [hflat] at h
    exact h
  · rw [Fits]
    tauto

end Settles

/-! ## Reading the records -/

theorem readStatistic_record {s : Statistic} (hkey : fitsSigned 16 s.key = true)
    (hvalue : fitsSigned 64 s.value = true) :
    readStatistic (record statisticFields statisticCells s) = some s := by
  calc readStatistic (record statisticFields statisticCells s)
    _ = (do
        let column ← readTextOpt (Datum.ofSlot (s.column.map .text))
        return { table := s.table, column, key := wrap 16 s.key, value := wrap 64 s.value }) := rfl
    _ = some s := by
      rw [readTextOpt_ofSlot, wrap_eq (by decide) hkey, wrap_eq (by decide) hvalue]
      rfl

theorem readDbSchema_record {s : SchemaStatistics} (h : ∀ stat ∈ s.statistics,
    fitsSigned 16 stat.key = true ∧ fitsSigned 64 stat.value = true) :
    readDbSchema (record dbSchemaFields dbSchemaCells s) = some s := by
  have hstatistics := mapM_map_eq_some fun stat hstat =>
    readStatistic_record (h stat hstat).1 (h stat hstat).2
  rw [List.map_id'] at hstatistics
  calc readDbSchema (record dbSchemaFields dbSchemaCells s)
    _ = (do
        let statistics ← (s.statistics.map (record statisticFields statisticCells)).mapM readStatistic
        return { dbSchema := s.dbSchema, statistics }) := rfl
    _ = some s := by
      rw [hstatistics]
      rfl

theorem readStatistics_of_rows {batch : RecordBatch} {catalog : List Char}
    {schemas : List SchemaStatistics} (h : InRange schemas)
    (hrows : batch.rows = [()].map (record getStatisticsSchema (catalogCells catalog schemas))) :
    readStatistics batch = some [(catalog, schemas)] := by
  have hschemas := mapM_map_eq_some fun s hs => readDbSchema_record (h s hs)
  rw [List.map_id'] at hschemas
  have hcatalog : readCatalog (record getStatisticsSchema (catalogCells catalog schemas) ()) =
      some (catalog, schemas) :=
    calc readCatalog (record getStatisticsSchema (catalogCells catalog schemas) ())
      _ = (do
          let schemas ← (schemas.map (record dbSchemaFields dbSchemaCells)).mapM readDbSchema
          return (catalog, schemas)) := rfl
      _ = some (catalog, schemas) := by
        rw [hschemas]
        rfl
  rw [readStatistics, hrows, List.map_singleton, List.mapM_cons, hcatalog]
  rfl

end Statistics

/-! ## The metadata batches -/

namespace Metadata

open Arrow

/-- The batches of `get_objects` and `get_statistics` read as what they were built from, the objects cut
at the depth; if a total does not fit an `i32` there is no batch. -/
theorem metadata_batches_lossless (message : ArrowError → List Char) (catalog : List Char) :
    (∀ (depth : Objects.ObjectDepth) (schemas : List Objects.DbSchema), Objects.InRange schemas →
      Objects.OnlyForeignKeysRefer schemas →
      (Objects.Fits depth schemas →
        ∃ batch, Objects.build message catalog depth schemas = .ok batch ∧
          Objects.readObjects batch = some [(catalog, Objects.cut depth catalog schemas)]) ∧
      (3 ≤ depth.levels →
        ((Objects.cut depth catalog schemas).getD []).map Objects.CutSchema.restore = schemas) ∧
      (¬ Objects.Fits depth schemas →
        ∃ e, Objects.build message catalog depth schemas = .error e)) ∧
    ∀ schemas : List Statistics.SchemaStatistics, Statistics.InRange schemas →
      (Statistics.Fits schemas →
        ∃ batch, Statistics.build message catalog schemas Statistics.getStatisticsSchema = .ok batch ∧
          Statistics.readStatistics batch = some [(catalog, schemas)]) ∧
      (¬ Statistics.Fits schemas →
        ∃ e, Statistics.build message catalog schemas Statistics.getStatisticsSchema = .error e) := by
  constructor
  · intro depth schemas hrange hrefer
    have hsettles := Objects.settles_build message catalog depth schemas
    refine ⟨fun hfits => ?_, fun hdepth => Objects.restore_cut hdepth hrefer, hsettles.error⟩
    obtain ⟨batch, hbatch, -, hrows⟩ := hsettles.ok hfits
    exact ⟨batch, hbatch, Objects.readObjects_of_rows depth catalog hrange hrows⟩
  · intro schemas hrange
    have hsettles := Statistics.settles_build message catalog schemas
    refine ⟨fun hfits => ?_, hsettles.error⟩
    obtain ⟨batch, hbatch, -, hrows⟩ := hsettles.ok hfits
    exact ⟨batch, hbatch, Statistics.readStatistics_of_rows hrange hrows⟩

def albums : Objects.Table where
  name := "Albums".toList
  tableType := "BASE TABLE".toList
  columns := [{ name := "Id".toList, ordinal := 1, nullable := false, typeName := "INT64".toList },
    { name := "Singer".toList, ordinal := 2, nullable := true, typeName := "INT64".toList }]
  constraints := [
    { name := some "PK_Albums".toList
      constraintType := "PRIMARY KEY".toList
      columns := ["Id".toList]
      usages := [] },
    { name := none
      constraintType := Objects.foreignKey
      columns := ["Singer".toList]
      usages := [{ dbSchema := [], table := "Singers".toList, column := "Id".toList }] }]

def albumSchemas : List Objects.DbSchema :=
  [{ name := [], tables := [albums] }, { name := "Empty".toList, tables := [] }]

def albumStatistics : List Statistics.SchemaStatistics :=
  [{ dbSchema := [], statistics := [
    { table := "Albums".toList
      column := none
      key := Statistics.rowCountKey
      value := 7 },
    { table := "Albums".toList
      column := some "Singer".toList
      key := Statistics.nullCountKey
      value := 2 }] }]

theorem metadata_batches_lossless_albums :
    (∃ batch, Objects.build (fun _ => []) "db".toList .columns albumSchemas = .ok batch ∧
      Objects.readObjects batch =
        some [("db".toList, Objects.cut .columns "db".toList albumSchemas)]) ∧
    ∃ batch, Statistics.build (fun _ => []) "db".toList albumStatistics
        Statistics.getStatisticsSchema = .ok batch ∧
      Statistics.readStatistics batch = some [("db".toList, albumStatistics)] := by
  have h := metadata_batches_lossless (fun _ => []) "db".toList
  have hrange : Objects.InRange albumSchemas := by
    unfold Objects.InRange
    decide
  have hrefer : Objects.OnlyForeignKeysRefer albumSchemas := by
    unfold Objects.OnlyForeignKeysRefer
    decide
  have hstats : Statistics.InRange albumStatistics := by
    unfold Statistics.InRange
    decide
  refine ⟨(h.1 .columns albumSchemas hrange hrefer).1 ⟨?_, ?_, ?_, ?_, ?_, ?_⟩,
    (h.2 albumStatistics hstats).1 ⟨?_, ?_⟩⟩
  all_goals decide

end Metadata
end SpannerAdbc
