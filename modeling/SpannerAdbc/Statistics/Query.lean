import SpannerAdbc.Lib.Result
import SpannerAdbc.Sql.Quote

/-!
# SpannerAdbc.Statistics.Query

`build_table_query`: the aggregate query that computes the statistics of one table in one scan, and
the plan that says which column and statistic each of its result columns belongs to.
-/

namespace SpannerAdbc
namespace Statistics

open Sql Lib

/-- The statistic keys of the ADBC specification that the driver reports. -/
def distinctCountKey : Int := 1
def nullCountKey : Int := 5

variable (D : Debug)

def nullCount (quoted : List Char) : List Char :=
  "COUNTIF(".toList ++ (quoted ++ " IS NULL)".toList)

def distinctCount (quoted : List Char) : List Char :=
  "COUNT(DISTINCT ".toList ++ (quoted ++ ")".toList)

/-- The loop over the columns; the flag says whether the column's type can be grouped by. -/
def columnExprs : List (List Char × Bool) →
    Except Error (List (List Char) × List (List Char × Int))
  | [] => return ([], [])
  | (name, groupable) :: columns => do
    let quoted ← quoteIdent D name
    let (exprs, plan) ← columnExprs columns
    if groupable then
      return (nullCount quoted :: distinctCount quoted :: exprs,
        (name, nullCountKey) :: (name, distinctCountKey) :: plan)
    else return (nullCount quoted :: exprs, (name, nullCountKey) :: plan)

/-- The format of the query. -/
def queryText (exprs : List (List Char)) (table : List Char) : List Char :=
  "SELECT ".toList ++ (", ".toList.intercalate exprs ++ (" FROM ".toList ++ table))

def buildTableQuery (schema table : List Char) (columns : List (List Char × Bool)) :
    Except Error (List Char × List (List Char × Int)) := do
  let (exprs, plan) ← columnExprs D columns
  return (queryText ("COUNT(*)".toList :: exprs) (← qualifiedTable D (some schema) table), plan)

/-! ## What the query reads as -/

/-- The expressions of one column. -/
def exprTokens (column : List Char × Bool) : List (List Token) :=
  [keyword "COUNTIF", .symbol '(', .ident column.1, keyword "IS", keyword "NULL", .symbol ')'] ::
    if column.2 then
      [[keyword "COUNT", .symbol '(', keyword "DISTINCT", .ident column.1, .symbol ')']]
    else []

def queryTokens (schema table : List Char) (columns : List (List Char × Bool)) : List Token :=
  [keyword "SELECT"] ++ ([Token.symbol ','].intercalate
    ([keyword "COUNT", .symbol '(', .symbol '*', .symbol ')'] :: columns.flatMap exprTokens) ++
      ([keyword "FROM"] ++ tableTokens (some schema) table))

variable {D} {columns : List (List Char × Bool)} {quoted : List Char}

theorem nullCount_reads (g : Grammar) {name : List Char} (h : quoteIdent D name = .ok quoted) :
    Reads g (nullCount quoted)
      [keyword "COUNTIF", .symbol '(', .ident name, keyword "IS", keyword "NULL", .symbol ')'] := by
  have hopen : Reads g "COUNTIF(".toList [keyword "COUNTIF", .symbol '('] :=
    reads_fixed (by decide) rfl rfl g
  have hclose : Reads g " IS NULL)".toList [keyword "IS", keyword "NULL", .symbol ')'] :=
    reads_fixed (by decide) rfl rfl g
  exact hopen.append ((reads_quoted g h).append hclose (joins_of_getLast (ends_quoted h).2 (by decide) _))
    (joins_of_getLast rfl (by decide) _)

theorem distinctCount_reads (g : Grammar) {name : List Char} (h : quoteIdent D name = .ok quoted) :
    Reads g (distinctCount quoted)
      [keyword "COUNT", .symbol '(', keyword "DISTINCT", .ident name, .symbol ')'] := by
  have hopen : Reads g "COUNT(DISTINCT ".toList
      [keyword "COUNT", .symbol '(', keyword "DISTINCT"] := reads_fixed (by decide) rfl rfl g
  have hclose : Reads g ")".toList [.symbol ')'] := reads_fixed (by decide) rfl rfl g
  exact hopen.append ((reads_quoted g h).append hclose (joins_of_getLast (ends_quoted h).2 (by decide) _))
    (joins_of_getLast rfl (by decide) _)

theorem columnExprs_reads (h : ∀ column ∈ columns, Accepted D column.1) :
    ∃ exprs plan, columnExprs D columns = .ok (exprs, plan) ∧
      ∀ g, List.Forall₂ (Reads g) exprs (columns.flatMap exprTokens) := by
  induction columns with
  | nil => exact ⟨[], [], rfl, fun g => .nil⟩
  | cons column columns ih =>
    obtain ⟨name, groupable⟩ := column
    obtain ⟨quoted, hq⟩ := h _ List.mem_cons_self
    obtain ⟨exprs, plan, he, hreads⟩ := ih fun c hc => h c (List.mem_cons_of_mem _ hc)
    cases groupable with
    | false =>
      refine ⟨_, _, by rw [columnExprs, hq, he]; rfl, fun g => ?_⟩
      exact .cons (nullCount_reads g hq) (hreads g)
    | true =>
      refine ⟨_, _, by rw [columnExprs, hq, he]; rfl, fun g => ?_⟩
      exact .cons (nullCount_reads g hq) (.cons (distinctCount_reads g hq) (hreads g))

theorem not_semicolon_mem_queryTokens (schema table : List Char) (columns : List (List Char × Bool)) :
    Token.symbol ';' ∉ (queryTokens schema table columns).tail := by
  have htable := not_semicolon_mem_tableTokens (some schema) table
  have hexprs : Token.symbol ';' ∉ [Token.symbol ','].intercalate
      ([keyword "COUNT", .symbol '(', .symbol '*', .symbol ')'] :: columns.flatMap exprTokens) := by
    refine not_semicolon_mem_commas fun ts hts => ?_
    rcases List.mem_cons.mp hts with rfl | hts
    · decide
    · obtain ⟨⟨name, groupable⟩, -, hts⟩ := List.mem_flatMap.mp hts
      cases groupable <;> simp only [exprTokens, List.mem_cons, List.not_mem_nil, or_false,
        if_true, Bool.false_eq_true, if_false] at hts
      · subst hts
        simp [keyword]
      · rcases hts with rfl | rfl <;> simp [keyword]
  rw [queryTokens, List.singleton_append, List.tail_cons, List.mem_append, List.mem_append, not_or,
    not_or]
  exact ⟨hexprs, by decide, htable⟩

/-- The query is built, and it reads as its skeleton under both grammars. -/
theorem buildTableQuery_inert {schema table : List Char} (hs : AcceptedSchema D (some schema))
    (ht : Accepted D table) (h : ∀ column ∈ columns, Accepted D column.1) :
    ∃ text plan, buildTableQuery D schema table columns = .ok (text, plan) ∧
      ∀ g, Inert g text (queryTokens schema table columns) := by
  obtain ⟨exprs, plan, he, hexprs⟩ := columnExprs_reads h
  obtain ⟨name, hname, hhead, hlast, htokens⟩ := qualifiedTable_eq_ok hs ht
  refine ⟨queryText ("COUNT(*)".toList :: exprs) name, plan, ?_,
    inert_of_reads (w := "SELECT".toList) (fun g => ?_)
      (not_semicolon_mem_queryTokens schema table columns)
      (a := 'S') rfl (getLast?_append_some (getLast?_append_some (getLast?_append_some hlast)))
      (by decide) (by decide)⟩
  · rw [buildTableQuery, he, hname]
    rfl
  · have hselect : Reads g "SELECT ".toList [keyword "SELECT"] := reads_fixed (by decide) rfl rfl g
    have hcount : Reads g "COUNT(*)".toList
        [keyword "COUNT", .symbol '(', .symbol '*', .symbol ')'] :=
      reads_fixed (by decide) rfl rfl g
    have hfrom : Reads g " FROM ".toList [keyword "FROM"] := reads_fixed (by decide) rfl rfl g
    exact hselect.append ((reads_commas (.cons hcount (hexprs g))).append
      (hfrom.append (htokens g) (joins_of_getLast rfl (by decide) _))
      (joins_of_head rfl (by decide) _)) (joins_of_getLast rfl (by decide) _)

end Statistics
end SpannerAdbc
