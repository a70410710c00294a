import SpannerAdbc.Sql.Split

/-!
# SpannerAdbc.Sql.Keyword

The classifiers that decide how a statement is executed: `is_ddl` and `is_dml` by the first
keyword, `is_dml_returning` by a scan for `THEN RETURN`. They are run on the text as the user gave
it, while the text that is sent is the statement the splitter finds in it. `lex_of_split` says how
the two texts differ: by blanks, comments and semicolons on both sides. The keyword scan steps over
the blanks and comments and over what stands behind the statement, but a semicolon in front of it
stops the scan (`firstKeyword_of_split`), so the classes agree exactly where no such semicolon
stands or the statement has no class to lose (`classes_eq_iff`).
-/

namespace SpannerAdbc
namespace Sql

open Lib Scanner

def ddlKeywords : List (List Char) :=
  ["CREATE", "DROP", "ALTER", "RENAME", "GRANT", "REVOKE", "ANALYZE"].map String.toList

def dmlKeywords : List (List Char) := ["INSERT", "UPDATE", "DELETE"].map String.toList

/-- `str::eq_ignore_ascii_case`. -/
def eqIgnoreAsciiCase (a b : List Char) : Bool := a.map Char.toLower == b.map Char.toLower

def significantLexemes (sql : List Char) : List Lexeme := (lex sql).filter Lexeme.isSignificant

/-- The loop of `first_keyword`. The flag is set while the inner loop skips a statement hint, from
its `@` through the closing brace. -/
def firstKeywordLoop : Bool → List Lexeme → Option (List Char)
  | _, [] => none
  | true, l :: ls => firstKeywordLoop (l != .other '}') ls
  | false, .comment _ :: ls => firstKeywordLoop false ls
  | false, .word word :: _ =>
    let kw := word.takeWhile Char.isAlpha
    if kw.length > 0 then some kw else none
  | false, .quoted _ :: _ => none
  | false, .other c :: ls =>
    if c = '@' ∧ ls.head? = some (.other '{') then firstKeywordLoop true ls else none

def firstKeyword (sql : List Char) : Option (List Char) :=
  firstKeywordLoop false (significantLexemes sql)

def isDdl (sql : List Char) : Bool :=
  (firstKeyword sql).any fun kw => ddlKeywords.any (eqIgnoreAsciiCase kw)

def isDml (sql : List Char) : Bool :=
  (firstKeyword sql).any fun kw => dmlKeywords.any (eqIgnoreAsciiCase kw)

/-- The loop of `is_dml_returning`. -/
def dmlReturningLoop : List Lexeme → Bool → Nat → Bool
  | [], _, _ => false
  | .word word :: ls, previousWasThen, caseDepth =>
    if previousWasThen ∧ caseDepth = 0 ∧ eqIgnoreAsciiCase word "RETURN".toList then true
    else
      dmlReturningLoop ls (eqIgnoreAsciiCase word "THEN".toList)
        (if eqIgnoreAsciiCase word "CASE".toList then caseDepth + 1
          else if eqIgnoreAsciiCase word "END".toList then caseDepth - 1
          else caseDepth)
  | .quoted _ :: ls, _, caseDepth => dmlReturningLoop ls false caseDepth
  | .comment _ :: ls, previousWasThen, caseDepth => dmlReturningLoop ls previousWasThen caseDepth
  | .other _ :: ls, previousWasThen, caseDepth => dmlReturningLoop ls previousWasThen caseDepth

def isDmlReturning (sql : List Char) : Bool := dmlReturningLoop (lex sql) false 0

/-! ## The classifiers read shapes -/

theorem head?_map_shape {ls : List Lexeme} {c : Char} :
    (ls.map Lexeme.shape).head? = some (.other c) ↔ ls.head? = some (.other c) := by
  cases ls with
  | nil => rfl
  | cons l ls => cases l <;> simp [Lexeme.shape]

theorem shape_eq_other {l : Lexeme} {c : Char} : l.shape = .other c ↔ l = .other c := by
  cases l <;> simp [Lexeme.shape]

theorem firstKeywordLoop_shape (inHint : Bool) (ls : List Lexeme) :
    firstKeywordLoop inHint (ls.map Lexeme.shape) = firstKeywordLoop inHint ls := by
  induction ls generalizing inHint with
  | nil => rfl
  | cons l ls ih =>
    cases inHint with
    | true =>
      have e : (l.shape != .other '}') = (l != .other '}') := by
        rw [Bool.eq_iff_iff, bne_iff_ne, bne_iff_ne, Ne, Ne, shape_eq_other]
      rw [List.map_cons, firstKeywordLoop, firstKeywordLoop, e, ih]
    | false =>
      cases l with
      | word | quoted => rfl
      | comment s => exact ih false
      | other c =>
        simp only [List.map_cons, Lexeme.shape, firstKeywordLoop, head?_map_shape, ih]

theorem dmlReturningLoop_shape (ls : List Lexeme) (previousWasThen : Bool) (caseDepth : Nat) :
    dmlReturningLoop (ls.map Lexeme.shape) previousWasThen caseDepth
      = dmlReturningLoop ls previousWasThen caseDepth := by
  induction ls generalizing previousWasThen caseDepth with
  | nil => rfl
  | cons l ls ih => cases l <;> simp only [List.map_cons, Lexeme.shape, dmlReturningLoop, ih]

variable {sql s : List Char} {seg : List Lexeme} {keep : Lexeme → Bool}

/-- Comments and single characters are transparent to the `THEN RETURN` scan. -/
theorem dmlReturningLoop_filter (hw : ∀ s, keep (.word s) = true)
    (hq : ∀ s, keep (.quoted s) = true) (ls : List Lexeme) (previousWasThen : Bool)
    (caseDepth : Nat) : dmlReturningLoop (ls.filter keep) previousWasThen caseDepth
      = dmlReturningLoop ls previousWasThen caseDepth := by
  induction ls generalizing previousWasThen caseDepth with
  | nil => rfl
  | cons l ls ih =>
    cases l with
    | word s => simp only [List.filter_cons, hw, if_true, dmlReturningLoop, ih]
    | quoted s => simp only [List.filter_cons, hq, if_true, dmlReturningLoop, ih]
    | comment s =>
      rw [List.filter_cons]
      split <;> simp only [dmlReturningLoop, ih]
    | other c =>
      rw [List.filter_cons]
      split <;> simp only [dmlReturningLoop, ih]

/-! ## A text with one statement -/

/-- The shapes of the significant lexemes. -/
def sigShapes (ls : List Lexeme) : List Lexeme := (ls.filter Lexeme.isSignificant).map Lexeme.shape

theorem sigShapes_append (ls ls' : List Lexeme) :
    sigShapes (ls ++ ls') = sigShapes ls ++ sigShapes ls' := by
  simp [sigShapes]

theorem sigShapes_eq_filter_shape (ls : List Lexeme) :
    sigShapes ls = (ls.map Lexeme.shape).filter Lexeme.isSignificant := by
  rw [sigShapes, List.filter_map]
  simp [Function.comp_def]

theorem sigShapes_eq_nil {ls : List Lexeme} (h : ls.any Lexeme.isSignificant = false) :
    sigShapes ls = [] := by
  simp only [List.any_eq_false, Bool.not_eq_true] at h
  simpa [sigShapes] using h

/-- Trimming keeps the significant lexemes. -/
theorem sigShapes_trim (text : List Char) : sigShapes (lex (trim text)) = sigShapes (lex text) := by
  obtain ⟨w, v, hw, hv, e⟩ := lex_trim text
  have hblank : ∀ {x : List Char}, (∀ c ∈ x, isWhitespace c = true) →
      (x.map Lexeme.other).filter Lexeme.isSignificant = [] := by
    intro x hx
    simpa [Lexeme.isSignificant] using hx
  rw [sigShapes_eq_filter_shape, sigShapes_eq_filter_shape, e, List.filter_append,
    List.filter_append, hblank hw, hblank hv, List.nil_append, List.append_nil]

/-- What a segment leaves in the list of statements has its significant lexemes. -/
theorem Segment.sigShapes_push {rest : List Char} (h : Segment sql seg rest) :
    (pushStatement [] (lexer.flat seg) = [] ∧ sigShapes seg = []) ∨
      ∃ s, pushStatement [] (lexer.flat seg) = [s] ∧ sigShapes seg = sigShapes (lex s) := by
  rcases pushStatement_cases h.lex_free with ⟨e, hns⟩ | ⟨e, -⟩
  · rw [hasStatement, h.lex_flat] at hns
    exact .inl ⟨e, sigShapes_eq_nil hns⟩
  · refine .inr ⟨_, e, ?_⟩
    rw [sigShapes_trim, h.lex_flat]

theorem Segment.sigShapes_lex_last (h : Segment sql seg []) :
    sigShapes (lex sql) = sigShapes seg := by
  rw [lex, tokens_eq_of_scans h.scans]

theorem Segment.sigShapes_lex_semicolon {rest : List Char} (h : Segment sql seg (';' :: rest)) :
    sigShapes (lex sql) = sigShapes seg ++ .other ';' :: sigShapes (lex rest) := by
  rw [lex, h.scans.tokens_eq, sigShapes_append]
  have e : lex (';' :: rest) = .other ';' :: lex rest := lex_of_cut (cut_semicolon rest)
  rw [← lex, e]
  rfl

/-- A text without statements has no significant lexeme but semicolons. -/
theorem lex_of_split_nil (sql : List Char) :
    splitStatements sql = [] → ∀ l ∈ sigShapes (lex sql), l = .other ';' := by
  induction sql using segment_induction with
  | last h =>
    intro hsplit l hl
    rw [h.splitStatements_last] at hsplit
    rw [h.sigShapes_lex_last] at hl
    rcases h.sigShapes_push with ⟨-, e⟩ | ⟨s, e, -⟩
    · rw [e] at hl
      cases hl
    · rw [e] at hsplit
      cases hsplit
  | semicolon h ih =>
    intro hsplit l hl
    rw [h.splitStatements_semicolon, List.append_eq_nil_iff] at hsplit
    rw [h.sigShapes_lex_semicolon, List.mem_append, List.mem_cons] at hl
    rcases h.sigShapes_push with ⟨-, e⟩ | ⟨s, e, -⟩
    · rw [e] at hl
      rcases hl with hl | hl | hl
      · cases hl
      · exact hl
      · exact ih hsplit.2 l hl
    · rw [e] at hsplit
      cases hsplit.1

/-- A text with one statement is, up to blanks and comments, the statement between semicolons. -/
theorem lex_of_split (sql : List Char) : splitStatements sql = [s] →
    ∃ pre post : List Lexeme, (∀ l ∈ pre, l = .other ';') ∧ (∀ l ∈ post, l = .other ';') ∧
      sigShapes (lex sql) = pre ++ (sigShapes (lex s) ++ post) := by
  induction sql using segment_induction with
  | last h =>
    intro hsplit
    rw [h.splitStatements_last] at hsplit
    rcases h.sigShapes_push with ⟨e, -⟩ | ⟨s', e, hs'⟩
    · rw [e] at hsplit
      cases hsplit
    · rw [e] at hsplit
      cases hsplit
      exact ⟨[], [], by simp, by simp, by rw [h.sigShapes_lex_last, hs']; simp⟩
  | @semicolon sql seg rest h ih =>
    intro hsplit
    rw [h.splitStatements_semicolon] at hsplit
    rw [h.sigShapes_lex_semicolon]
    rcases h.sigShapes_push with ⟨e, hseg⟩ | ⟨s', e, hseg⟩
    · rw [e] at hsplit
      obtain ⟨pre, post, hpre, hpost, hlex⟩ := ih hsplit
      refine ⟨.other ';' :: pre, post, ?_, hpost, by rw [hseg, hlex]; simp⟩
      intro l hl
      rcases List.mem_cons.mp hl with hl | hl
      · exact hl
      · exact hpre l hl
    · rw [e] at hsplit
      obtain ⟨rfl, hrest⟩ := List.cons.inj hsplit
      refine ⟨[], .other ';' :: sigShapes (lex rest), by simp, ?_, by rw [hseg]; simp⟩
      intro l hl
      rcases List.mem_cons.mp hl with hl | hl
      · exact hl
      · exact lex_of_split_nil rest hrest l hl

/-! ## Classes of the text and of its statement -/

theorem firstKeyword_eq (sql : List Char) :
    firstKeyword sql = firstKeywordLoop false (sigShapes (lex sql)) := by
  rw [firstKeyword, significantLexemes, sigShapes, firstKeywordLoop_shape]

/-- Semicolons behind a text carry no keyword. -/
theorem firstKeywordLoop_append {post : List Lexeme} (hpost : ∀ l ∈ post, l = .other ';')
    (inHint : Bool) (ls : List Lexeme) :
    firstKeywordLoop inHint (ls ++ post) = firstKeywordLoop inHint ls := by
  have hhead : post.head? ≠ some (.other '{') := by
    intro hh
    exact absurd (hpost _ (List.mem_of_head? hh)) (by decide)
  induction ls generalizing inHint with
  | nil =>
    induction post with
    | nil => rfl
    | cons l post ih =>
      obtain rfl := hpost l List.mem_cons_self
      cases inHint with
      | false => rfl
      | true =>
        have htail : ∀ l ∈ post, l = .other ';' := fun l hl => hpost l (List.mem_cons_of_mem _ hl)
        refine ih htail ?_
        intro hh
        exact absurd (htail _ (List.mem_of_head? hh)) (by decide)
  | cons l ls ih =>
    cases inHint with
    | true => exact ih _
    | false =>
      cases l with
      | word | quoted => rfl
      | comment s => exact ih false
      | other c =>
        have e : (ls ++ post).head? = some (.other '{') ↔ ls.head? = some (.other '{') := by
          cases ls with
          | nil => simpa using hhead
          | cons l ls => rfl
        simp only [List.cons_append, firstKeywordLoop, e, ih]

/-- The keyword scan of the text finds the keyword of its statement, unless it meets a semicolon
first. -/
theorem firstKeyword_of_split (h : splitStatements sql = [s]) :
    firstKeyword sql =
      if (significantLexemes sql).head? = some (.other ';') then none else firstKeyword s := by
  obtain ⟨pre, post, hpre, hpost, e⟩ := lex_of_split sql h
  have hhead : (significantLexemes sql).head? = some (.other ';') ↔
      (sigShapes (lex sql)).head? = some (.other ';') := head?_map_shape.symm
  rw [firstKeyword_eq, firstKeyword_eq s]
  cases pre with
  | cons l pre =>
    obtain rfl := hpre l List.mem_cons_self
    rw [if_pos (hhead.mpr (by rw [e]; rfl)), e]
    rfl
  | nil =>
    rw [List.nil_append] at e
    have hne : (significantLexemes sql).head? ≠ some (.other ';') := by
      rw [Ne, hhead, e]
      have hst : Statement s := statement_of_mem_split sql s (by rw [h]; exact List.mem_cons_self)
      intro hh
      cases hs : sigShapes (lex s) with
      | nil =>
        have hany := hst.significant
        rw [hasStatement, List.any_eq_true] at hany
        obtain ⟨l, hl, hsig⟩ := hany
        have hm : l.shape ∈ sigShapes (lex s) :=
          List.mem_map.mpr ⟨l, List.mem_filter.mpr ⟨hl, hsig⟩, rfl⟩
        rw [hs] at hm
        cases hm
      | cons l ls =>
        rw [hs, List.cons_append, List.head?_cons, Option.some.injEq] at hh
        have hm : Lexeme.other ';' ∈ sigShapes (lex s) := by rw [hs, hh]; exact List.mem_cons_self
        rw [sigShapes, mem_map_shape_semicolon] at hm
        exact hst.free (List.mem_filter.mp hm).1
    rw [if_neg hne, e, firstKeywordLoop_append hpost]

theorem isDmlReturning_eq (hw : ∀ s, keep (.word s) = true) (hq : ∀ s, keep (.quoted s) = true)
    (sql : List Char) :
    isDmlReturning sql = dmlReturningLoop ((sigShapes (lex sql)).filter keep) false 0 := by
  rw [dmlReturningLoop_filter hw hq, sigShapes, dmlReturningLoop_shape,
    dmlReturningLoop_filter (fun _ => rfl) (fun _ => rfl)]
  rfl

/-- The `THEN RETURN` scan does not see the semicolons. -/
theorem isDmlReturning_of_split (h : splitStatements sql = [s]) :
    isDmlReturning sql = isDmlReturning s := by
  obtain ⟨pre, post, hpre, hpost, e⟩ := lex_of_split sql h
  have hsemi : ∀ {ls : List Lexeme}, (∀ l ∈ ls, l = Lexeme.other ';') →
      ls.filter (fun l => l != .other ';') = [] := by
    intro ls hls
    rw [List.filter_eq_nil_iff]
    intro l hl
    rw [hls l hl]
    decide
  have hkeep := @isDmlReturning_eq (fun l => l != .other ';') (fun _ => rfl) (fun _ => rfl)
  rw [hkeep sql, hkeep s, e, List.filter_append, List.filter_append, hsemi hpre, hsemi hpost,
    List.nil_append, List.append_nil]

theorem split_of_length_one (h : (splitStatements sql).length = 1) :
    splitStatements sql = [stripTrailingTerminators sql] := by
  obtain ⟨s, e⟩ := List.length_eq_one_iff.mp h
  rw [stripTrailingTerminators, e]

/-- The classes of a text with one statement are those of the statement that is sent if and only
if no top-level semicolon stands in front of the statement, or it is neither DDL nor DML. -/
theorem classes_eq_iff {sql : List Char} (h : (splitStatements sql).length = 1) :
    (isDdl sql = isDdl (stripTrailingTerminators sql) ∧
      isDml sql = isDml (stripTrailingTerminators sql) ∧
      isDmlReturning sql = isDmlReturning (stripTrailingTerminators sql)) ↔
    ((significantLexemes sql).head? ≠ some (.other ';') ∨
      (isDdl (stripTrailingTerminators sql) = false ∧
        isDml (stripTrailingTerminators sql) = false)) := by
  have hsplit := split_of_length_one h
  have hkw := firstKeyword_of_split hsplit
  have hret := isDmlReturning_of_split hsplit
  by_cases hhead : (significantLexemes sql).head? = some (.other ';')
  · rw [if_pos hhead] at hkw
    have hddl : isDdl sql = false := by rw [isDdl, hkw]; rfl
    have hdml : isDml sql = false := by rw [isDml, hkw]; rfl
    rw [hddl, hdml]
    constructor
    · rintro ⟨h1, h2, -⟩
      exact .inr ⟨h1.symm, h2.symm⟩
    · rintro (hne | ⟨h1, h2⟩)
      · exact absurd hhead hne
      · exact ⟨h1.symm, h2.symm, hret⟩
  · rw [if_neg hhead] at hkw
    have hddl : isDdl sql = isDdl (stripTrailingTerminators sql) := by rw [isDdl, hkw]; rfl
    have hdml : isDml sql = isDml (stripTrailingTerminators sql) := by rw [isDml, hkw]; rfl
    exact ⟨fun _ => .inl hhead, fun _ => ⟨hddl, hdml, hret⟩⟩

theorem classes_eq_iff_trailing :
    (splitStatements "DELETE FROM t WHERE true; -- done".toList).length = 1 ∧
    ((isDdl "DELETE FROM t WHERE true; -- done".toList
        = isDdl (stripTrailingTerminators "DELETE FROM t WHERE true; -- done".toList) ∧
      isDml "DELETE FROM t WHERE true; -- done".toList
        = isDml (stripTrailingTerminators "DELETE FROM t WHERE true; -- done".toList) ∧
      isDmlReturning "DELETE FROM t WHERE true; -- done".toList
        = isDmlReturning (stripTrailingTerminators "DELETE FROM t WHERE true; -- done".toList)) ↔
    ((significantLexemes "DELETE FROM t WHERE true; -- done".toList).head? ≠ some (.other ';') ∨
      (isDdl (stripTrailingTerminators "DELETE FROM t WHERE true; -- done".toList) = false ∧
        isDml (stripTrailingTerminators "DELETE FROM t WHERE true; -- done".toList) = false))) :=
  ⟨by decide, classes_eq_iff (by decide)⟩

/-- A semicolon in front of a `DELETE` hides its keyword: the text is classified as a query, the
statement that is sent is DML. -/
theorem leading_semicolon_hides_dml :
    splitStatements "; DELETE FROM t WHERE true".toList = ["DELETE FROM t WHERE true".toList] ∧
    stripTrailingTerminators "; DELETE FROM t WHERE true".toList
      = "DELETE FROM t WHERE true".toList ∧
    isDml "; DELETE FROM t WHERE true".toList = false ∧
    isDml "DELETE FROM t WHERE true".toList = true := by
  decide

end Sql
end SpannerAdbc
