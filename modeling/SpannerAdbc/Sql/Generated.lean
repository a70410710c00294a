import SpannerAdbc.Binding.Table
import SpannerAdbc.Session.Execute
import SpannerAdbc.Statistics.Query

/-!
# SpannerAdbc.Sql.Generated

The SQL texts that the driver generates around names it is given: the DDL of a bulk ingest, the
zero-row query behind `get_table_schema` and the aggregate query of a table's statistics. Every one
of them reads as a skeleton that is fixed up to the names and the column types, with each name one
quoted identifier, under the grammar of queries and under the one of DDL.
-/

namespace SpannerAdbc
namespace Sql

open Arrow Binding Statistics Lib

variable {D : TypeDebug} {dbSchema : Option (List Char)}

/-- The format of the statement that `replace` mode runs first. -/
def dropText (name : List Char) : List Char := "DROP TABLE IF EXISTS ".toList ++ name

def dropTableSql (D : Debug) (dbSchema : Option (List Char)) (table : List Char) :
    Except Error (List Char) := do
  return dropText (← qualifiedTable D dbSchema table)

def dropTokens (dbSchema : Option (List Char)) (table : List Char) : List Token :=
  [keyword "DROP", keyword "TABLE", keyword "IF", keyword "EXISTS"] ++ tableTokens dbSchema table

/-- The format of the query of `get_table_schema`. -/
def tableSchemaText (name : List Char) : List Char :=
  "SELECT * FROM ".toList ++ (name ++ " LIMIT 0".toList)

def tableSchemaSql (D : Debug) (dbSchema : Option (List Char)) (table : List Char) :
    Except Error (List Char) := do
  return tableSchemaText (← qualifiedTable D dbSchema table)

def tableSchemaTokens (dbSchema : Option (List Char)) (table : List Char) : List Token :=
  [keyword "SELECT", .symbol '*', keyword "FROM"] ++
    (tableTokens dbSchema table ++ [keyword "LIMIT", keyword "0"])

theorem dropTableSql_inert {D : Debug} {table : List Char} (hs : AcceptedSchema D dbSchema)
    (ht : Accepted D table) :
    ∃ text, dropTableSql D dbSchema table = .ok text ∧ ∀ g, Inert g text (dropTokens dbSchema table) := by
  obtain ⟨name, hname, -, hlast, htokens⟩ := qualifiedTable_eq_ok hs ht
  have hfree : Token.symbol ';' ∉ (dropTokens dbSchema table).tail := by
    simp [dropTokens, keyword, not_semicolon_mem_tableTokens]
  refine ⟨dropText name, by rw [dropTableSql, hname]; rfl,
    inert_of_reads (w := "DROP".toList) (fun g => ?_) hfree (a := 'D') rfl
      (getLast?_append_some hlast) (by decide) (by decide)⟩
  have hdrop : Reads g "DROP TABLE IF EXISTS ".toList
      [keyword "DROP", keyword "TABLE", keyword "IF", keyword "EXISTS"] :=
    reads_fixed (by decide) rfl rfl g
  exact hdrop.append (htokens g) (joins_of_getLast rfl (by decide) _)

theorem tableSchemaSql_inert {D : Debug} {table : List Char} (hs : AcceptedSchema D dbSchema)
    (ht : Accepted D table) :
    ∃ text, tableSchemaSql D dbSchema table = .ok text ∧
      ∀ g, Inert g text (tableSchemaTokens dbSchema table) := by
  obtain ⟨name, hname, -, hlast, htokens⟩ := qualifiedTable_eq_ok hs ht
  have hfree : Token.symbol ';' ∉ (tableSchemaTokens dbSchema table).tail := by
    simp [tableSchemaTokens, keyword, not_semicolon_mem_tableTokens]
  refine ⟨tableSchemaText name, by rw [tableSchemaSql, hname]; rfl,
    inert_of_reads (w := "SELECT".toList) (fun g => ?_) hfree (a := 'S') rfl (z := '0')
      (getLast?_append_some (getLast?_append_some rfl)) (by decide) (by decide)⟩
  have hselect : Reads g "SELECT * FROM ".toList [keyword "SELECT", .symbol '*', keyword "FROM"] :=
    reads_fixed (by decide) rfl rfl g
  have hlimit : Reads g " LIMIT 0".toList [keyword "LIMIT", keyword "0"] :=
    reads_fixed (by decide) rfl rfl g
  exact hselect.append ((htokens g).append hlimit (joins_of_getLast hlast (by decide) _))
    (joins_of_getLast rfl (by decide) _)

/-- For all names that quoting accepts the four texts are generated, and each of them reads as its
skeleton and is one statement under both grammars. -/
theorem generated_texts_inert (g : Grammar) (dbSchema : Option (List Char)) (table : List Char)
    (hs : AcceptedSchema D.toDebug dbSchema) (ht : Accepted D.toDebug table) :
    (∀ (schema : Schema) (ifNotExists : Bool),
      (∀ field ∈ schema, Accepted D.toDebug field.name) →
      (∀ field ∈ schema, ∃ s, spannerFieldType D field = .ok s) →
      ∃ text types, createTableSql D table dbSchema schema ifNotExists = .ok text ∧
        Typed D schema types ∧
        Inert g text (createTokens dbSchema table (schema.zip types) ifNotExists)) ∧
    (∃ text, dropTableSql D.toDebug dbSchema table = .ok text ∧
      Inert g text (dropTokens dbSchema table)) ∧
    (∃ text, tableSchemaSql D.toDebug dbSchema table = .ok text ∧
      Inert g text (tableSchemaTokens dbSchema table)) ∧
    (∀ (columns : List (List Char × Bool)), (∀ column ∈ columns, Accepted D.toDebug column.1) →
      ∃ text plan, buildTableQuery D.toDebug (dbSchema.getD []) table columns = .ok (text, plan) ∧
        Inert g text (queryTokens (dbSchema.getD []) table columns)) := by
  refine ⟨fun schema ifNotExists hn hf => ?_, ?_, ?_, fun columns hc => ?_⟩
  · obtain ⟨types, htyped⟩ := exists_typed hf
    obtain ⟨text, htext, hinert⟩ := createTableSql_inert hs ht hn htyped ifNotExists
    exact ⟨text, types, htext, htyped, hinert g⟩
  · obtain ⟨text, htext, hinert⟩ := dropTableSql_inert hs ht
    exact ⟨text, htext, hinert g⟩
  · obtain ⟨text, htext, hinert⟩ := tableSchemaSql_inert hs ht
    exact ⟨text, htext, hinert g⟩
  · -- the schema of a table in the catalog is a name, the empty one for the default schema
    have hs' : AcceptedSchema D.toDebug (some (dbSchema.getD [])) := by
      cases dbSchema with
      | none => exact fun schema h => by simp at h
      | some schema => exact hs
    obtain ⟨text, plan, htext, hinert⟩ := buildTableQuery_inert hs' ht hc
    exact ⟨text, plan, htext, hinert g⟩

/-- A name that would be a second statement and a comment if it were not quoted. -/
def hostileName : List Char := "a; DROP TABLE b -- /* 'é".toList

theorem generated_texts_inert_hostile :
    ∃ text types, createTableSql plainDebug hostileName (some "app".toList)
        [.new hostileName (.list (.new "item".toList .utf8 true)) true] false = .ok text ∧
      Typed plainDebug [.new hostileName (.list (.new "item".toList .utf8 true)) true] types ∧
      Inert .ddl text (createTokens (some "app".toList) hostileName
        ([Field.new hostileName (.list (.new "item".toList .utf8 true)) true].zip types) false) := by
  have hname : Accepted plainDebug.toDebug hostileName := ⟨_, rfl⟩
  have hschema : AcceptedSchema plainDebug.toDebug (some "app".toList) := by
    intro schema h
    obtain rfl : schema = "app".toList := (Option.mem_some.mp h).symm
    exact ⟨_, rfl⟩
  refine (generated_texts_inert .ddl _ _ hschema hname).1 _ false ?_ ?_
  · intro field hf
    obtain rfl := List.mem_singleton.mp hf
    exact hname
  · intro field hf
    obtain rfl := List.mem_singleton.mp hf
    exact ⟨_, rfl⟩

/-! ## The DDL of a bulk ingest -/

open Session in
/-- A client whose texts are the ones of the source, for schemas of which it knows the fields. -/
structure Generates (D : TypeDebug) (K : Client) (fields : K.Schema → Schema) : Prop where
  table : ∀ dbSchema table, K.qualifiedTable dbSchema table = qualifiedTable D.toDebug dbSchema table
  create : ∀ table dbSchema schema ifNotExists, K.createTableSql table dbSchema schema ifNotExists =
    createTableSql D table dbSchema (fields schema) ifNotExists

section Ingest

open Session

variable {K : Client} {fields : K.Schema → Schema} {self : Session.Statement K} {table : List Char}

/-- The texts that an ingest into `table` may send to the schema endpoint. -/
def IngestText (D : TypeDebug) (fields : K.Schema → Schema) (self : Session.Statement K)
    (table : List Char) (g : Grammar) (text : List Char) : Prop :=
  Inert g text (dropTokens self.targetDbSchema table) ∨
    ∃ schema types ifNotExists, Typed D (fields schema) types ∧ Inert g text
      (createTokens self.targetDbSchema table ((fields schema).zip types) ifNotExists)

theorem ingestText_create (hK : Generates D K fields) {schema : K.Schema} {ifNotExists : Bool}
    {text : List Char} (h : K.createTableSql table self.targetDbSchema schema ifNotExists = .ok text)
    (g : Grammar) : IngestText D fields self table g text := by
  rw [hK.create] at h
  obtain ⟨⟨name, hname⟩, hn, hf⟩ := createTableSql_eq_ok h
  obtain ⟨hs, ht⟩ := accepted_of_qualifiedTable hname
  obtain ⟨types, htyped⟩ := exists_typed hf
  obtain ⟨text', htext, hinert⟩ := createTableSql_inert hs ht hn htyped ifNotExists
  obtain rfl := Except.ok.inj (h.symm.trans htext)
  exact .inr ⟨schema, types, ifNotExists, htyped, hinert g⟩

theorem ingestText_drop (hK : Generates D K fields) {name : List Char}
    (h : K.qualifiedTable self.targetDbSchema table = .ok name) (g : Grammar) :
    IngestText D fields self table g (dropText name) := by
  rw [hK.table] at h
  obtain ⟨hs, ht⟩ := accepted_of_qualifiedTable h
  obtain ⟨text, htext, hinert⟩ := dropTableSql_inert hs ht
  rw [dropTableSql, h] at htext
  obtain rfl := Except.ok.inj htext
  exact .inl (hinert g)

theorem firstKeywordLoop_of_tokens {w : List Char} {ts : List Token} {ls : List Lexeme}
    (h : ls.filterMap Grammar.query.token = .word w :: ts) (hw : w.takeWhile Char.isAlpha ≠ []) :
    firstKeywordLoop false (ls.filter Lexeme.isSignificant) = some (w.takeWhile Char.isAlpha) := by
  induction ls with
  | nil => cases h
  | cons l ls ih =>
    rw [List.filterMap_cons] at h
    cases l with
    | word s =>
      cases h
      exact if_pos (List.length_pos_iff.mpr hw)
    | quoted s =>
      rw [Grammar.token] at h
      cases hn : Grammar.query.name? s <;> rw [hn] at h <;> cases h
    | comment s => cases h
    | other c =>
      simp only [Grammar.token] at h
      by_cases hc : isWhitespace c = true
      · rw [if_pos hc] at h
        rw [List.filter_cons_of_neg (by simp [Lexeme.isSignificant, hc])]
        exact ih h
      · rw [if_neg hc] at h
        cases h

/-- A text that reads as a skeleton with a DDL keyword is one DDL statement to the driver. -/
theorem isDdl_of_tokens {sql w : List Char} {ts : List Token}
    (h : Grammar.query.tokens sql = .word w :: ts)
    (hw : ddlKeywords.any (eqIgnoreAsciiCase (w.takeWhile Char.isAlpha)) = true)
    (hne : w.takeWhile Char.isAlpha ≠ []) : isDdl sql = true := by
  rw [Grammar.tokens, lexer_query] at h
  rw [isDdl, firstKeyword, significantLexemes, firstKeywordLoop_of_tokens h hne]
  exact hw

end Ingest

end Sql
end SpannerAdbc
