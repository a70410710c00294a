import SpannerAdbc.Arrow.DataType
import SpannerAdbc.Lib.Result
import SpannerAdbc.Sql.Quote

/-!
# SpannerAdbc.Binding.Table

The `CREATE TABLE` statement of a bulk ingest: the Spanner column type of an Arrow type, by itself
(`spannerColumnType`) and with the JSON tag of its field (`spannerFieldType`), and the statement for
a schema.

Both mappings produce text. `ColumnType` is the type that the text stands for; `columnType_text` and
`fieldType_text` say that every text they produce is the text of one.
-/

namespace SpannerAdbc
namespace Binding

open Arrow Sql Lib

variable (D : TypeDebug)

def noColumnType (other : DataType) : Error :=
  invalidArgument ("cannot create a Spanner column for Arrow type ".toList ++ D.dataType other ++
    "; cast it to a type with a Spanner equivalent before ingesting".toList)

def arrayOf (element : List Char) : List Char := "ARRAY<".toList ++ (element ++ ">".toList)

def spannerColumnType : DataType → Except Error (List Char)
  | .int8 | .int16 | .int32 | .int64 => .ok "INT64".toList
  | .uint8 | .uint16 | .uint32 => .ok "INT64".toList
  | .float16 | .float32 => .ok "FLOAT32".toList
  | .float64 => .ok "FLOAT64".toList
  | .boolean => .ok "BOOL".toList
  | .utf8 | .largeUtf8 | .utf8View => .ok "STRING(MAX)".toList
  | .binary | .largeBinary | .binaryView | .fixedSizeBinary _ => .ok "BYTES(MAX)".toList
  | .date32 | .date64 => .ok "DATE".toList
  | .timestamp _ _ => .ok "TIMESTAMP".toList
  | .decimal128 _ _ => .ok "NUMERIC".toList
  | .list (.mk _ item _ _) | .largeList (.mk _ item _ _) => do
    return arrayOf (← spannerColumnType item)
  | .dictionary _ value => spannerColumnType value
  | other => .error (noColumnType D other)

def spannerFieldType : Field → Except Error (List Char)
  | .mk name dataType nullable metadata =>
    if isJsonField (.mk name dataType nullable metadata) then .ok "JSON".toList
    else
      match dataType with
      | .list item | .largeList item => do return arrayOf (← spannerFieldType item)
      | other => spannerColumnType D other

def createColumn (field : Field) : Except Error (List Char) := do
  let columnType ← (spannerFieldType D field).mapError fun e =>
    annotate e fun m => "ingest column ".toList ++ D.string field.name ++ ": ".toList ++ m
  return (← quoteIdent D.toDebug field.name) ++ ' ' :: columnType

/-- The format of the statement. -/
def createText (guard name : List Char) (columns : List (List Char)) : List Char :=
  "CREATE TABLE ".toList ++ (guard ++ (name ++ (" (".toList ++
    (", ".toList.intercalate columns ++ ")".toList))))

def createTableSql (table : List Char) (dbSchema : Option (List Char)) (schema : Schema)
    (ifNotExists : Bool) : Except Error (List Char) := do
  let columns ← schema.mapM (createColumn D)
  let guard := if ifNotExists then "IF NOT EXISTS ".toList else []
  return createText guard (← qualifiedTable D.toDebug dbSchema table) columns

/-! ## The types behind the texts -/

/-- Spanner's column types. -/
inductive ColumnType where
  | int64
  | float32
  | float64
  | bool
  | string
  | bytes
  | date
  | timestamp
  | numeric
  | json
  | array (element : ColumnType)
  deriving DecidableEq, Repr

namespace ColumnType

def text : ColumnType → List Char
  | .int64 => "INT64".toList
  | .float32 => "FLOAT32".toList
  | .float64 => "FLOAT64".toList
  | .bool => "BOOL".toList
  | .string => "STRING(MAX)".toList
  | .bytes => "BYTES(MAX)".toList
  | .date => "DATE".toList
  | .timestamp => "TIMESTAMP".toList
  | .numeric => "NUMERIC".toList
  | .json => "JSON".toList
  | .array element => arrayOf element.text

def tokens : ColumnType → List Token
  | .int64 => [keyword "INT64"]
  | .float32 => [keyword "FLOAT32"]
  | .float64 => [keyword "FLOAT64"]
  | .bool => [keyword "BOOL"]
  | .string => [keyword "STRING", .symbol '(', keyword "MAX", .symbol ')']
  | .bytes => [keyword "BYTES", .symbol '(', keyword "MAX", .symbol ')']
  | .date => [keyword "DATE"]
  | .timestamp => [keyword "TIMESTAMP"]
  | .numeric => [keyword "NUMERIC"]
  | .json => [keyword "JSON"]
  | .array element => keyword "ARRAY" :: .symbol '<' :: (element.tokens ++ [.symbol '>'])

theorem reads_text (g : Grammar) (t : ColumnType) : Reads g t.text t.tokens := by
  induction t with
  | array element ih =>
    have hopen : Reads g "ARRAY<".toList [keyword "ARRAY", .symbol '<'] :=
      reads_fixed (by decide) rfl rfl g
    have hclose : Reads g ">".toList [.symbol '>'] := reads_fixed (by decide) rfl rfl g
    exact hopen.append (ih.append hclose (joins_of_head rfl (by decide) _))
      (joins_of_getLast rfl (by decide) _)
  | int64 | float32 | float64 | bool | string | bytes | date | timestamp | numeric | json =>
    exact reads_fixed (by decide) rfl rfl g

theorem not_semicolon_mem_tokens (t : ColumnType) : Token.symbol ';' ∉ t.tokens := by
  induction t with
  | array element ih =>
    simp only [tokens, List.mem_cons, List.mem_append, List.not_mem_nil, or_false, not_or]
    exact ⟨by decide, by decide, ih, by decide⟩
  | int64 | float32 | float64 | bool | string | bytes | date | timestamp | numeric | json => decide

end ColumnType

variable {D} {schema : Schema} {s : List Char} {field : Field} {dbSchema : Option (List Char)}
  {types : List ColumnType}

theorem columnType_text {dataType : DataType} (h : spannerColumnType D dataType = .ok s) :
    ∃ t : ColumnType, s = t.text := by
  fun_induction spannerColumnType D dataType generalizing s with
  | case1 | case2 | case3 | case4 | case5 | case6 | case7 => exact ⟨.int64, (Except.ok.inj h).symm⟩
  | case8 | case9 => exact ⟨.float32, (Except.ok.inj h).symm⟩
  | case10 => exact ⟨.float64, (Except.ok.inj h).symm⟩
  | case11 => exact ⟨.bool, (Except.ok.inj h).symm⟩
  | case12 | case13 | case14 => exact ⟨.string, (Except.ok.inj h).symm⟩
  | case15 | case16 | case17 | case18 => exact ⟨.bytes, (Except.ok.inj h).symm⟩
  | case19 | case20 => exact ⟨.date, (Except.ok.inj h).symm⟩
  | case21 => exact ⟨.timestamp, (Except.ok.inj h).symm⟩
  | case22 => exact ⟨.numeric, (Except.ok.inj h).symm⟩
  | case23 _ item _ _ ih | case24 _ item _ _ ih =>
    obtain ⟨e, he, hs⟩ := bind_eq_ok.mp h
    obtain ⟨t, rfl⟩ := ih he
    exact ⟨.array t, (Except.ok.inj hs).symm⟩
  | case25 _ value ih => exact ih h
  | case26 => cases h

theorem fieldType_text (h : spannerFieldType D field = .ok s) :
    ∃ t : ColumnType, s = t.text := by
  fun_induction spannerFieldType D field generalizing s with
  | case1 => exact ⟨.json, (Except.ok.inj h).symm⟩
  | case2 _ _ _ _ item ih | case3 _ _ _ _ item ih =>
    obtain ⟨e, he, hs⟩ := bind_eq_ok.mp h
    obtain ⟨t, rfl⟩ := ih he
    exact ⟨.array t, (Except.ok.inj hs).symm⟩
  | case4 => exact columnType_text h

/-! ## The statement -/

/-- The fields and the column types they are created with. -/
def Typed (D : TypeDebug) (schema : Schema) (types : List ColumnType) : Prop :=
  List.Forall₂ (fun field t => spannerFieldType D field = .ok t.text) schema types

theorem exists_typed (h : ∀ field ∈ schema, ∃ s, spannerFieldType D field = .ok s) :
    ∃ types, Typed D schema types := by
  induction schema with
  | nil => exact ⟨[], .nil⟩
  | cons field schema ih =>
    obtain ⟨s, hs⟩ := h field List.mem_cons_self
    obtain ⟨t, rfl⟩ := fieldType_text hs
    obtain ⟨types, ht⟩ := ih fun f hf => h f (List.mem_cons_of_mem _ hf)
    exact ⟨t :: types, .cons hs ht⟩

def columnTokens (column : Field × ColumnType) : List Token :=
  .ident column.1.name :: column.2.tokens

def createTokens (dbSchema : Option (List Char)) (table : List Char)
    (columns : List (Field × ColumnType)) (ifNotExists : Bool) : List Token :=
  [keyword "CREATE", keyword "TABLE"] ++
    ((if ifNotExists then [keyword "IF", keyword "NOT", keyword "EXISTS"] else []) ++
      (tableTokens dbSchema table ++
        ([.symbol '('] ++ ([Token.symbol ','].intercalate (columns.map columnTokens) ++
          [.symbol ')']))))

theorem createColumn_eq_ok (h : createColumn D field = .ok s) :
    Accepted D.toDebug field.name ∧ ∃ t, spannerFieldType D field = .ok t := by
  obtain ⟨t, ht, h⟩ := bind_eq_ok.mp h
  obtain ⟨quoted, hq, -⟩ := bind_eq_ok.mp h
  exact ⟨⟨quoted, hq⟩, t, mapError_eq_ok.mp ht⟩

theorem createColumn_reads {t : ColumnType} (hn : Accepted D.toDebug field.name)
    (ht : spannerFieldType D field = .ok t.text) :
    ∃ s, createColumn D field = .ok s ∧ ∀ g, Reads g s (columnTokens (field, t)) := by
  obtain ⟨quoted, hq⟩ := hn
  refine ⟨quoted ++ ([' '] ++ t.text), ?_, fun g => ?_⟩
  · simp only [createColumn, ht, hq]
    rfl
  · have hspace : Reads g [' '] [] := reads_fixed (by decide) rfl rfl g
    exact (reads_quoted g hq).append
      (hspace.append (t.reads_text g) (joins_of_getLast rfl (by decide) _))
      (joins_of_getLast (ends_quoted hq).2 (by decide) _)

theorem createColumns_reads (hn : ∀ field ∈ schema, Accepted D.toDebug field.name)
    (ht : Typed D schema types) :
    ∃ columns, schema.mapM (createColumn D) = .ok columns ∧
      ∀ g, List.Forall₂ (Reads g) columns ((schema.zip types).map columnTokens) := by
  induction ht with
  | nil => exact ⟨[], rfl, fun g => .nil⟩
  | @cons field t schema types h _ ih =>
    obtain ⟨s, hs, hreads⟩ := createColumn_reads (hn field List.mem_cons_self) h
    obtain ⟨columns, hc, hrest⟩ := ih fun f hf => hn f (List.mem_cons_of_mem _ hf)
    refine ⟨s :: columns, ?_, fun g => .cons (hreads g) (hrest g)⟩
    rw [List.mapM_cons, hs, hc]
    rfl

theorem not_semicolon_mem_createTokens (dbSchema : Option (List Char)) (table : List Char)
    (columns : List (Field × ColumnType)) (ifNotExists : Bool) :
    Token.symbol ';' ∉ (createTokens dbSchema table columns ifNotExists).tail := by
  have htable := not_semicolon_mem_tableTokens dbSchema table
  have hcolumns : Token.symbol ';' ∉ [Token.symbol ','].intercalate (columns.map columnTokens) := by
    refine not_semicolon_mem_commas fun ts hts => ?_
    obtain ⟨column, -, rfl⟩ := List.mem_map.mp hts
    rw [columnTokens, List.mem_cons, not_or]
    exact ⟨by simp, column.2.not_semicolon_mem_tokens⟩
  cases ifNotExists <;> simp [createTokens, keyword, htable, hcolumns]

/-- A statement is generated only if quoting accepts all its names and all its columns have types. -/
theorem createTableSql_eq_ok {table : List Char} {ifNotExists : Bool} {text : List Char}
    (h : createTableSql D table dbSchema schema ifNotExists = .ok text) :
    (∃ name, qualifiedTable D.toDebug dbSchema table = .ok name) ∧
      (∀ field ∈ schema, Accepted D.toDebug field.name) ∧
      ∀ field ∈ schema, ∃ s, spannerFieldType D field = .ok s := by
  obtain ⟨columns, hc, h⟩ := bind_eq_ok.mp h
  obtain ⟨name, hname, -⟩ := bind_eq_ok.mp h
  have hcolumn : ∀ field ∈ schema, ∃ s, createColumn D field = .ok s := by
    intro field hf
    obtain ⟨s, -, hs⟩ := step_of_mapM hc field hf
    exact ⟨s, hs⟩
  refine ⟨⟨name, hname⟩, fun field hf => ?_, fun field hf => ?_⟩
  · obtain ⟨s, hs⟩ := hcolumn field hf
    exact (createColumn_eq_ok hs).1
  · obtain ⟨s, hs⟩ := hcolumn field hf
    exact (createColumn_eq_ok hs).2

/-- The statement is generated, and it reads as its skeleton under both grammars. -/
theorem createTableSql_inert {table : List Char} (hs : AcceptedSchema D.toDebug dbSchema)
    (htable : Accepted D.toDebug table) (hn : ∀ field ∈ schema, Accepted D.toDebug field.name)
    (ht : Typed D schema types) (ifNotExists : Bool) :
    ∃ text, createTableSql D table dbSchema schema ifNotExists = .ok text ∧
      ∀ g, Inert g text (createTokens dbSchema table (schema.zip types) ifNotExists) := by
  obtain ⟨columns, hc, hcolumns⟩ := createColumns_reads hn ht
  obtain ⟨name, hname, hhead, hlast, htokens⟩ := qualifiedTable_eq_ok hs htable
  refine ⟨createText (if ifNotExists then "IF NOT EXISTS ".toList else []) name columns, ?_,
    inert_of_reads (w := "CREATE".toList) (fun g => ?_)
    (not_semicolon_mem_createTokens dbSchema table (schema.zip types) ifNotExists)
    (a := 'C') rfl (z := ')') ?_ (by decide) (by decide)⟩
  · rw [createTableSql, hc, hname]
    rfl
  · have hcreate : Reads g "CREATE TABLE ".toList [keyword "CREATE", keyword "TABLE"] :=
      reads_fixed (by decide) rfl rfl g
    have hguard : Reads g (if ifNotExists then "IF NOT EXISTS ".toList else [])
        (if ifNotExists then [keyword "IF", keyword "NOT", keyword "EXISTS"] else []) := by
      cases ifNotExists
      · exact fun rest _ => rfl
      · exact reads_fixed (by decide) rfl rfl g
    have hopen : Reads g " (".toList [.symbol '('] := reads_fixed (by decide) rfl rfl g
    have hclose : Reads g ")".toList [.symbol ')'] := reads_fixed (by decide) rfl rfl g
    exact hcreate.append (hguard.append ((htokens g).append
      (hopen.append ((reads_commas (hcolumns g)).append hclose (joins_of_head rfl (by decide) _))
        (joins_of_getLast rfl (by decide) _))
      (joins_of_getLast hlast (by decide) _))
      (joins_of_head (head?_append_some hhead) (by decide) _))
      (joins_of_getLast rfl (by decide) _)
  · exact getLast?_append_some (getLast?_append_some (getLast?_append_some
      (getLast?_append_some (getLast?_append_some rfl))))

/-- Names are themselves in the messages. -/
def plainDebug : TypeDebug := { string := id, char := fun c => [c], dataType := fun _ => [] }

end Binding
end SpannerAdbc
