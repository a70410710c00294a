import SpannerAdbc.Sql.Relex

/-!
# SpannerAdbc.Sql.Split

`split_statements` and its helpers, translated from the source, and what they guarantee for every
text. The loop of `split_statements` is reduced to two equations, one for the last segment
(`Segment.splitStatements_last`) and one for a segment in front of a top-level semicolon
(`Segment.splitStatements_semicolon`); every result is an induction over the segments with these two.

* `statement_of_mem_split`: what each returned statement is on its own.
* `carved_split`: the statements are slices of the input, in order, and what is left out is
  whitespace, comments and top-level semicolons.
* `split_join`: joining the statements with `"\n;\n"` and splitting again changes nothing.
-/

namespace SpannerAdbc
namespace Sql

open Lib Scanner

/-- The lexemes `push_statement` and `significant_lexemes` look for: no comment, no whitespace. -/
def Lexeme.isSignificant : Lexeme → Bool
  | .comment _ => false
  | .other c => !isWhitespace c
  | .word _ | .quoted _ => true

def hasStatement (trimmed : List Char) : Bool := (lex trimmed).any Lexeme.isSignificant

def pushStatement (statements : List (List Char)) (current : List Char) : List (List Char) :=
  let trimmed := trim current
  if hasStatement trimmed then statements ++ [trimmed] else statements

/-- The loop of `split_statements`; `current` is the text copied since the last semicolon. -/
def splitLoop : List Lexeme → List (List Char) → List Char → List (List Char)
  | [], statements, current => pushStatement statements current
  | l :: ls, statements, current =>
    if l = .other ';' then splitLoop ls (pushStatement statements current) []
    else splitLoop ls statements (current ++ l.text)

def splitStatements (sql : List Char) : List (List Char) := splitLoop (lex sql) [] []

def stripTrailingTerminators (sql : List Char) : List Char :=
  match splitStatements sql with
  | [s] => s
  | _ => sql

/-- The statements with newline, semicolon, newline between them. -/
def joinStatements (statements : List (List Char)) : List Char :=
  "\n;\n".toList.intercalate statements

/-! ## The loop, segment by segment -/

theorem pushStatement_eq (statements : List (List Char)) (current : List Char) :
    pushStatement statements current = statements ++ pushStatement [] current := by
  simp only [pushStatement]
  split
  · rfl
  · simp

theorem splitLoop_eq (ls : List Lexeme) (statements : List (List Char)) (current : List Char) :
    splitLoop ls statements current = statements ++ splitLoop ls [] current := by
  induction ls generalizing statements current with
  | nil => exact pushStatement_eq statements current
  | cons l ls ih =>
    simp only [splitLoop]
    split
    · rw [ih, pushStatement_eq, ih (pushStatement [] current), List.append_assoc]
    · exact ih _ _

variable {seg : List Lexeme} {rest sql text s : List Char} {ss : List (List Char)}

/-- Lexemes other than a semicolon are copied. -/
theorem splitLoop_append (hseg : Lexeme.other ';' ∉ seg) (ls : List Lexeme)
    (statements : List (List Char)) (current : List Char) :
    splitLoop (seg ++ ls) statements current
      = splitLoop ls statements (current ++ lexer.flat seg) := by
  induction seg generalizing current with
  | nil => simp
  | cons l seg ih =>
    rw [List.mem_cons, not_or] at hseg
    rw [List.cons_append, splitLoop, if_neg (Ne.symm hseg.1), ih hseg.2, flat_cons,
      List.append_assoc]
    rfl

/-- The first segment of `sql`: the lexemes up to the first top-level semicolon, or all of them. -/
structure Segment (sql : List Char) (seg : List Lexeme) (rest : List Char) : Prop where
  scans : Scans lexer sql seg rest
  free : Lexeme.other ';' ∉ seg
  ends : rest = [] ∨ ∃ rest', rest = ';' :: rest'

theorem cut_semicolon (rest : List Char) : Cut (';' :: rest) (.other ';') rest :=
  .other (by decide) (by simp) (by decide) (by simp) (by decide)

/-- Induction over the segments of a text. -/
theorem segment_induction {P : List Char → Prop}
    (last : ∀ {sql seg}, Segment sql seg [] → P sql)
    (semicolon : ∀ {sql seg rest}, Segment sql seg (';' :: rest) → P rest → P sql)
    (sql : List Char) : P sql := by
  induction hn : sql.length using Nat.strongRecOn generalizing sql with
  | ind n ih =>
    by_cases h : Lexeme.other ';' ∈ lex sql
    · obtain ⟨seg, tail, e, hseg⟩ := List.eq_append_cons_of_mem h
      obtain ⟨mid, hs, ht⟩ := scans_of_tokens (S := lexer) e
      have hmid := scans_tokens (S := lexer) mid
      rw [ht] at hmid
      cases hmid with
      | @cons _ rest _ _ _ hnext _ =>
        have hcut : mid = ';' :: rest := (cut_of_next hnext).text_append
        subst hcut
        have hlen := congrArg List.length hs.flat_eq
        rw [List.length_append, List.length_cons] at hlen
        exact semicolon ⟨hs, hseg, .inr ⟨rest, rfl⟩⟩ (ih rest.length (by omega) rest rfl)
    · exact last ⟨scans_tokens sql, h, .inl rfl⟩

namespace Segment

variable {sql rest : List Char} {seg : List Lexeme}

theorem splitStatements_last (h : Segment sql seg []) :
    splitStatements sql = pushStatement [] (lexer.flat seg) := by
  have e := splitLoop_append h.free [] [] []
  rw [List.append_nil] at e
  rw [splitStatements, lex, tokens_eq_of_scans h.scans, e]
  rfl

theorem splitStatements_semicolon (h : Segment sql seg (';' :: rest)) :
    splitStatements sql = pushStatement [] (lexer.flat seg) ++ splitStatements rest := by
  have hs := h.scans.trans (scans_cons_cut (cut_semicolon rest) .nil)
  rw [splitStatements, lex, hs.tokens_eq, List.append_assoc, splitLoop_append h.free]
  simp only [List.singleton_append, List.nil_append, splitLoop, if_true]
  exact splitLoop_eq _ _ _

/-- A segment lexed on its own has the lexemes it has in the text. -/
theorem lex_flat (h : Segment sql seg rest) : lex (lexer.flat seg) = seg := by
  by_cases hr : rest = []
  · have hs := h.scans
    rw [hr] at hs
    have e := hs.flat_eq
    rw [List.append_nil] at e
    rw [← e, lex, tokens_eq_of_scans hs]
  · have hs : Scans lexer (lexer.flat seg ++ []) seg [] := scans_swap h.scans hr (.inr (.inl rfl))
    rw [List.append_nil] at hs
    exact tokens_eq_of_scans hs

theorem lex_free (h : Segment sql seg rest) : Lexeme.other ';' ∉ lex (lexer.flat seg) := by
  rw [h.lex_flat]
  exact h.free

end Segment

/-! ## Statements -/

/-- What a returned statement is on its own. -/
structure Statement (s : List Char) : Prop where
  trimmed : trim s = s
  free : Lexeme.other ';' ∉ lex s
  significant : hasStatement s = true

theorem Statement.ne_nil (h : Statement s) : s ≠ [] := by
  rintro rfl
  exact absurd h.significant (by decide)

theorem mem_map_shape_semicolon {ls : List Lexeme} :
    Lexeme.other ';' ∈ ls.map Lexeme.shape ↔ Lexeme.other ';' ∈ ls := by
  rw [List.mem_map]
  constructor
  · rintro ⟨l, hl, e⟩
    cases l <;> simp_all [Lexeme.shape]
  · intro h
    exact ⟨_, h, rfl⟩

@[simp] theorem isSignificant_shape (l : Lexeme) : l.shape.isSignificant = l.isSignificant := by
  cases l <;> rfl

theorem any_isSignificant_shape (ls : List Lexeme) :
    (ls.map Lexeme.shape).any Lexeme.isSignificant = ls.any Lexeme.isSignificant := by
  simp [List.any_map, Function.comp_def]

/-- Whitespace is no significant lexeme. -/
theorem any_isSignificant_blanks {w : List Char} (hw : ∀ c ∈ w, isWhitespace c = true) :
    (w.map Lexeme.other).any Lexeme.isSignificant = false := by
  simpa [Lexeme.isSignificant] using hw

theorem hasStatement_trim (text : List Char) : hasStatement (trim text) = hasStatement text := by
  obtain ⟨w, v, hw, hv, e⟩ := lex_trim text
  rw [hasStatement, hasStatement, ← any_isSignificant_shape (lex text), e, List.any_append,
    List.any_append, any_isSignificant_blanks hw, any_isSignificant_blanks hv,
    any_isSignificant_shape]
  simp

theorem free_trim (h : Lexeme.other ';' ∉ lex text) :
    Lexeme.other ';' ∉ lex (trim text) := by
  obtain ⟨w, v, -, -, e⟩ := lex_trim text
  intro hm
  apply h
  rw [← mem_map_shape_semicolon, e]
  exact List.mem_append_right _ (List.mem_append_left _ (mem_map_shape_semicolon.mpr hm))

/-- A segment yields no statement, or its trimmed text. -/
theorem pushStatement_cases (h : Lexeme.other ';' ∉ lex text) :
    (pushStatement [] text = [] ∧ hasStatement text = false) ∨
      (pushStatement [] text = [trim text] ∧ Statement (trim text)) := by
  simp only [pushStatement]
  split
  · rename_i hs
    exact .inr ⟨rfl, trim_trim text, free_trim h, hs⟩
  · rename_i hs
    rw [hasStatement_trim] at hs
    exact .inl ⟨rfl, by simpa using hs⟩

theorem statement_of_mem_push (h : Lexeme.other ';' ∉ lex text) (hs : s ∈ pushStatement [] text) :
    Statement s := by
  rcases pushStatement_cases h with ⟨e, -⟩ | ⟨e, hst⟩
  · rw [e] at hs
    cases hs
  · rw [e, List.mem_singleton] at hs
    exact hs ▸ hst

theorem statement_of_mem_split (sql : List Char) : ∀ s ∈ splitStatements sql, Statement s := by
  induction sql using segment_induction with
  | last h =>
    intro s hs
    rw [h.splitStatements_last] at hs
    exact statement_of_mem_push h.lex_free hs
  | semicolon h ih =>
    intro s hs
    rw [h.splitStatements_semicolon, List.mem_append] at hs
    rcases hs with hs | hs
    · exact statement_of_mem_push h.lex_free hs
    · exact ih s hs

/-- A statement splits into itself. -/
theorem Statement.split (h : Statement s) : splitStatements s = [s] := by
  have hseg : Segment s (lex s) [] := ⟨scans_tokens s, h.free, .inl rfl⟩
  rw [hseg.splitStatements_last, lex, flat_tokens, pushStatement, h.trimmed, if_pos h.significant]
  rfl

/-! ## Slices of the input -/

/-- The lexemes that are left out of every statement. -/
def Lexeme.isFiller : Lexeme → Bool
  | .comment _ => true
  | .other c => isWhitespace c || c == ';'
  | .word _ | .quoted _ => false

/-- `Carved sql ss`: reading `sql` from left to right, lexeme by lexeme, the statements `ss` are
slices of it. What is left out is whole filler lexemes, and whitespace `u` between the end of a
statement and the end of its segment. -/
inductive Carved : List Char → List (List Char) → Prop where
  | done : Carved [] []
  | filler {sql rest : List Char} {l : Lexeme} {ss : List (List Char)} :
      Cut sql l rest → l.isFiller = true → Carved rest ss → Carved sql ss
  | slice {s u rest : List Char} {ls : List Lexeme} {ss : List (List Char)} :
      Segment (s ++ (u ++ rest)) ls rest → (∀ c ∈ u, isWhitespace c = true) →
      Carved rest ss → Carved (s ++ (u ++ rest)) (s :: ss)

theorem carved_of_fillers {ls : List Lexeme} (h : Scans lexer sql ls rest)
    (hl : ∀ l ∈ ls, l.isFiller = true) (hc : Carved rest ss) :
    Carved sql ss := by
  induction h with
  | nil => exact hc
  | cons hn _ ih =>
    exact .filler (cut_of_next hn) (hl _ List.mem_cons_self)
      (ih (fun l hm => hl l (List.mem_cons_of_mem _ hm)) hc)

/-- Between the whitespace at its start and at its end, a segment is its trimmed text. -/
theorem Segment.trim_parts (h : Segment sql seg rest) :
    ∃ (w u : List Char) (ls : List Lexeme), (∀ c ∈ w, isWhitespace c = true) ∧
      (∀ c ∈ u, isWhitespace c = true) ∧ sql = w ++ (trim (lexer.flat seg) ++ (u ++ rest)) ∧
      Segment (trim (lexer.flat seg) ++ (u ++ rest)) ls rest := by
  obtain ⟨w, u, hw, hu, e⟩ := Sql.trim_parts (lexer.flat seg)
  have hsql : sql = w ++ (trim (lexer.flat seg) ++ (u ++ rest)) := by
    rw [h.scans.flat_eq]
    nth_rewrite 1 [e]
    simp only [List.append_assoc]
  have hblank := scans_blanks hw (trim (lexer.flat seg) ++ (u ++ rest))
  rw [← hsql] at hblank
  obtain ⟨ls, rfl, hs⟩ := hblank.drop h.scans (by simp only [List.length_append]; omega)
  exact ⟨w, u, ls, hw, hu, hsql, hs, fun hm => h.free (List.mem_append_right _ hm), h.ends⟩

theorem isFiller_of_not_significant {l : Lexeme} (h : l.isSignificant = false) :
    l.isFiller = true := by
  cases l <;> simp_all [Lexeme.isSignificant, Lexeme.isFiller]

/-- A segment is carved into the statement that is pushed for it. -/
theorem Segment.carved (h : Segment sql seg rest) (hc : Carved rest ss) :
    Carved sql (pushStatement [] (lexer.flat seg) ++ ss) := by
  rcases pushStatement_cases h.lex_free with ⟨e, hns⟩ | ⟨e, -⟩
  · rw [e]
    rw [hasStatement, h.lex_flat, List.any_eq_false] at hns
    exact carved_of_fillers h.scans
      (fun l hl => isFiller_of_not_significant (by simpa using hns l hl)) hc
  · rw [e]
    obtain ⟨w, u, ls, hw, hu, hsql, hs⟩ := h.trim_parts
    rw [hsql]
    refine carved_of_fillers (scans_blanks hw _) ?_ (.slice hs hu hc)
    intro l hl
    obtain ⟨c, hcw, rfl⟩ := List.mem_map.mp hl
    simp [Lexeme.isFiller, hw c hcw]

theorem carved_split (sql : List Char) : Carved sql (splitStatements sql) := by
  induction sql using segment_induction with
  | last h =>
    have hc := h.carved .done
    rwa [List.append_nil, ← h.splitStatements_last] at hc
  | semicolon h ih =>
    rw [h.splitStatements_semicolon]
    exact h.carved (.filler (cut_semicolon _) rfl ih)

/-! ## Joining and splitting again -/

/-- Whitespace in front of a text changes nothing. -/
theorem splitStatements_blanks {w : List Char} (hw : ∀ c ∈ w, isWhitespace c = true)
    (sql : List Char) : splitStatements (w ++ sql) = splitStatements sql := by
  have hpush : ∀ text, pushStatement [] (w ++ text) = pushStatement [] text := by
    intro text
    rw [pushStatement, trim_blanks_append hw]
    rfl
  have hseg : ∀ {seg rest}, Segment sql seg rest →
      Segment (w ++ sql) (w.map .other ++ seg) rest := by
    intro seg rest h
    refine ⟨(scans_blanks hw sql).trans h.scans, ?_, h.ends⟩
    rw [List.mem_append, not_or]
    refine ⟨?_, h.free⟩
    intro hm
    exact absurd (isBlank_of_mem_map hw hm) (by decide)
  have hflat : ∀ seg, lexer.flat (w.map Lexeme.other ++ seg) = w ++ lexer.flat seg := by
    intro seg
    have e := (scans_blanks hw []).flat_eq
    rw [List.append_nil, List.append_nil] at e
    rw [flat_append, ← e]
  induction sql using segment_induction with
  | last h =>
    rw [(hseg h).splitStatements_last, h.splitStatements_last, hflat, hpush]
  | semicolon h _ =>
    rw [(hseg h).splitStatements_semicolon, h.splitStatements_semicolon, hflat, hpush]

/-- A statement that was followed by a semicolon can be followed by a newline and a semicolon. -/
theorem Segment.newline (h : Segment sql seg (';' :: rest)) (x : List Char) :
    ∃ ls, Segment (trim (lexer.flat seg) ++ '\n' :: ';' :: x) ls (';' :: x) ∧
      lexer.flat ls = trim (lexer.flat seg) ++ ['\n'] := by
  obtain ⟨w, u, ls, -, hu, -, hs⟩ := h.trim_parts
  obtain ⟨ls', hs', hshape⟩ := scans_newline hs.scans hu (by simp) (';' :: x)
  have hfree : Lexeme.other ';' ∉ ls' := by
    intro hm
    rcases hshape _ hm with hb | ⟨l, hl, e⟩
    · exact absurd hb (by decide)
    · exact hs.free (mem_map_shape_semicolon.mp (List.mem_map.mpr ⟨l, hl, e.symm⟩))
  refine ⟨ls', ⟨hs', hfree, .inr ⟨x, rfl⟩⟩, ?_⟩
  have e := hs'.flat_eq
  rw [List.append_cons] at e
  exact (List.append_cancel_right e).symm

theorem joinStatements_cons (s : List Char) (h : ss ≠ []) :
    joinStatements (s :: ss) = s ++ '\n' :: ';' :: '\n' :: joinStatements ss := by
  obtain ⟨t, ss, rfl⟩ := List.exists_cons_of_ne_nil h
  rfl

theorem isWhitespace_newline : ∀ c ∈ ['\n'], isWhitespace c = true := by
  intro c hc
  rw [List.mem_singleton.mp hc]
  decide

theorem split_join (sql : List Char) :
    splitStatements (joinStatements (splitStatements sql)) = splitStatements sql := by
  have hone : ∀ {s}, Statement s → splitStatements (joinStatements [s]) = [s] := by
    intro s hs
    simpa [joinStatements, List.intercalate] using hs.split
  induction sql using segment_induction with
  | last h =>
    rw [h.splitStatements_last]
    rcases pushStatement_cases h.lex_free with ⟨e, -⟩ | ⟨e, hs⟩
    · rw [e]
      rfl
    · rw [e]
      exact hone hs
  | @semicolon sql seg rest h ih =>
    rw [h.splitStatements_semicolon]
    rcases pushStatement_cases h.lex_free with ⟨e, -⟩ | ⟨e, hs⟩
    · rw [e]
      exact ih
    · rw [e]
      by_cases hne : splitStatements rest = []
      · rw [hne]
        exact hone hs
      · -- the first statement gets its semicolon back, behind a newline
        obtain ⟨ls, hls, hflat⟩ := h.newline ('\n' :: joinStatements (splitStatements rest))
        rw [List.singleton_append, joinStatements_cons _ hne, hls.splitStatements_semicolon, hflat,
          pushStatement, trim_append hs.trimmed isWhitespace_newline, if_pos hs.significant]
        have hnl := splitStatements_blanks isWhitespace_newline
          (joinStatements (splitStatements rest))
        rw [List.singleton_append] at hnl
        rw [hnl, ih]
        rfl

/-- Statement splitting is faithful. -/
theorem splitStatements_faithful (sql : List Char) :
    (∀ s ∈ splitStatements sql, s ≠ [] ∧ trim s = s ∧ Lexeme.other ';' ∉ lex s) ∧
    Carved sql (splitStatements sql) ∧
    (∀ s ∈ splitStatements sql, splitStatements s = [s]) ∧
    splitStatements (joinStatements (splitStatements sql)) = splitStatements sql := by
  refine ⟨?_, carved_split sql, ?_, split_join sql⟩
  · intro s hs
    have hst := statement_of_mem_split sql s hs
    exact ⟨hst.ne_nil, hst.trimmed, hst.free⟩
  · intro s hs
    exact (statement_of_mem_split sql s hs).split

end Sql
end SpannerAdbc
