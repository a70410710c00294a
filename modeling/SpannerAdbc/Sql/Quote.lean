import SpannerAdbc.Basic
import SpannerAdbc.Lib.Result
import SpannerAdbc.Sql.Split

/-!
# SpannerAdbc.Sql.Quote

`quote_ident` and `qualified_table`, and what a quoted name is to the two grammars it must be safe
in. The query grammar is the one of the driver's own lexer: a backslash binds the next character in
every literal. The DDL grammar differs in the backtick identifier alone: it ends at the first
backtick, and a backslash is an ordinary character.

A generated text is put together from pieces. `Reads g s ts` says that the piece `s` contributes the
tokens `ts` whatever stands behind it, unless a word runs across the boundary; `Reads.append` puts
pieces together, `reads_plain` computes those without quotes and comments,
and `reads_quoted` is the one for a quoted name.
-/

namespace SpannerAdbc
namespace Sql

open Lib Scanner

/-! ## Quoting -/

/-- `char::is_control`, the Unicode category `Cc`. -/
def isControl (c : Char) : Bool := c.toNat < 0x20 || (0x7f ≤ c.toNat && c.toNat < 0xa0)

def emptyIdentifier : List Char :=
  "invalid SQL identifier: the name is empty, which Spanner rejects as an invalid empty ".toList ++
    "identifier".toList

def unsafeIdentifier (D : Debug) (ident : List Char) (bad : Char) : List Char :=
  "invalid SQL identifier ".toList ++ D.string ident ++ ": a name cannot contain ".toList ++
    D.char bad ++ ", because Spanner's DDL parser does not honour backslash escapes inside ".toList ++
    "backticks and would read the remainder of the name as SQL".toList

def quoteIdent (D : Debug) (ident : List Char) : Except Error (List Char) :=
  if ident.isEmpty then .error (invalidArgument emptyIdentifier)
  else
    match ident.find? fun c => c == '`' || c == '\\' || isControl c with
    | some bad => .error (invalidArgument (unsafeIdentifier D ident bad))
    | none => .ok ('`' :: (ident ++ ['`']))

def qualifiedTable (D : Debug) (dbSchema : Option (List Char)) (tableName : List Char) :
    Except Error (List Char) :=
  match dbSchema.filter fun s => !s.isEmpty with
  | some schema => do return (← quoteIdent D schema) ++ '.' :: (← quoteIdent D tableName)
  | none => quoteIdent D tableName

variable {D : Debug} {name quoted s : List Char} {a c z : Char}
  {dbSchema : Option (List Char)}

/-- The names that quoting accepts. -/
def Accepted (D : Debug) (name : List Char) : Prop := ∃ quoted, quoteIdent D name = .ok quoted

theorem quoteIdent_eq_ok {ident : List Char} (h : quoteIdent D ident = .ok quoted) :
    quoted = '`' :: (ident ++ ['`']) ∧ '`' ∉ ident ∧ '\\' ∉ ident := by
  rw [quoteIdent] at h
  split at h
  · simp at h
  · split at h
    · simp at h
    · rename_i hfind
      rw [List.find?_eq_none] at hfind
      refine ⟨(Except.ok.inj h).symm, fun hc => ?_, fun hc => ?_⟩
      · exact hfind _ hc (by decide)
      · exact hfind _ hc (by decide)

/-! ## The grammars -/

inductive Grammar where
  | query
  | ddl
  deriving DecidableEq, Repr

/-- The rest of a backtick identifier in the DDL grammar. -/
def backtickBody : List Char → List Char × List Char
  | [] => ([], [])
  | ch :: chars => if ch = '`' then ([ch], chars) else push [ch] (backtickBody chars)

theorem backtickBody_append (chars : List Char) :
    (backtickBody chars).1 ++ (backtickBody chars).2 = chars := by
  fun_induction backtickBody chars <;> simp_all [push]

namespace Grammar

def next (g : Grammar) (chars : List Char) : Option (Lexeme × List Char) :=
  if g = .ddl ∧ chars.head? = some '`' then
    some (.quoted ('`' :: (backtickBody chars.tail).1), (backtickBody chars.tail).2)
  else Sql.next chars

def lexer (g : Grammar) : Scanner Char Lexeme where
  next := g.next
  text := Lexeme.text
  next_nil := by simp [next, Sql.next]
  next_cons := by
    intro c chars
    unfold next
    split
    · exact ⟨_, _, rfl⟩
    · exact Sql.lexer.next_cons c chars
  next_text := by
    intro chars l rest h
    unfold next at h
    split at h
    · rename_i hc
      cases h
      rw [eq_cons_of_head? hc.2]
      simp [Lexeme.text, backtickBody_append]
    · exact Sql.lexer.next_text h
  text_ne_nil := by
    intro chars l rest h
    unfold next at h
    split at h
    · cases h
      simp [Lexeme.text]
    · exact Sql.lexer.text_ne_nil h

end Grammar

/-- What a parser sees: the lexemes without the whitespace. A quoted identifier is told apart from
the other literals and carries its name. -/
inductive Token where
  | word (s : List Char)
  | ident (name : List Char)
  | literal (s : List Char)
  | comment (s : List Char)
  | symbol (c : Char)
  deriving DecidableEq, Repr

variable {ts : List Token}

def keyword (s : String) : Token := .word s.toList

namespace Grammar

/-- The name that a quoted text stands for, if it is a closed backtick identifier without escapes. -/
def name? (g : Grammar) : List Char → Option (List Char)
  | '`' :: body =>
    if body.getLast? = some '`' ∧ (g = .query → '\\' ∉ body) then some body.dropLast else none
  | _ => none

def token (g : Grammar) : Lexeme → Option Token
  | .word s => some (.word s)
  | .quoted s =>
    match g.name? s with
    | some name => some (.ident name)
    | none => some (.literal s)
  | .comment s => some (.comment s)
  | .other c => if isWhitespace c then none else some (.symbol c)

def tokens (g : Grammar) (sql : List Char) : List Token :=
  (g.lexer.tokens sql).filterMap g.token

theorem tokens_of_next {g : Grammar} {chars rest : List Char} {l : Lexeme}
    (h : g.next chars = some (l, rest)) : g.tokens chars = (g.token l).toList ++ g.tokens rest := by
  rw [tokens, Scanner.tokens_of_next (S := g.lexer) h, List.filterMap_cons, tokens]
  cases g.token l <;> rfl

end Grammar

/-! ## Pieces of a text -/

/-- No word runs across the boundary of the two texts. -/
def joins (s rest : List Char) : Bool := !(s.getLast?.any isIdentChar && rest.head?.any isIdentChar)

theorem getLast?_append_some {t : List Char} (h : t.getLast? = some c) :
    (s ++ t).getLast? = some c := by
  rw [List.getLast?_append, h]
  rfl

theorem head?_append_some {t : List Char} (h : s.head? = some c) :
    (s ++ t).head? = some c := by
  rw [List.head?_append, h]
  rfl

theorem joins_append_right {s' : List Char} (h : joins s s' = true) (hne : s' ≠ [])
    (rest : List Char) : joins s (s' ++ rest) = true := by
  obtain ⟨c, s', rfl⟩ := List.exists_cons_of_ne_nil hne
  exact h

theorem joins_of_append {s' rest : List Char} (h : joins (s ++ s') rest = true) (hne : s' ≠ []) :
    joins s' rest = true := by
  unfold joins at h ⊢
  rw [List.getLast?_append_of_ne_nil s hne] at h
  exact h

theorem joins_of_getLast (h : s.getLast? = some c) (hc : isIdentChar c = false) (rest : List Char) :
    joins s rest = true := by
  simp [joins, h, hc]

theorem joins_of_head {rest : List Char} (h : rest.head? = some c) (hc : isIdentChar c = false)
    (s : List Char) : joins s rest = true := by
  simp [joins, h, hc]

def Reads (g : Grammar) (s : List Char) (ts : List Token) : Prop :=
  ∀ rest, joins s rest = true → g.tokens (s ++ rest) = ts ++ g.tokens rest

namespace Reads

variable {g : Grammar} {s s' : List Char} {ts ts' : List Token}

theorem append (h : Reads g s ts) (h' : Reads g s' ts') (hs : joins s s' = true) :
    Reads g (s ++ s') (ts ++ ts') := by
  intro rest hr
  by_cases hne : s' = []
  · subst hne
    rw [List.append_nil] at hr
    rw [List.append_nil, h _ hr, List.append_assoc, ← h' rest (by simp [joins]), List.nil_append]
  · rw [List.append_assoc, h _ (joins_append_right hs hne rest), h' rest (joins_of_append hr hne),
      List.append_assoc]

theorem tokens_eq (h : Reads g s ts) : g.tokens s = ts := by
  have := h [] (by simp [joins])
  rwa [List.append_nil, show g.tokens [] = [] from rfl, List.append_nil] at this

end Reads

/-- The characters of the fixed parts of generated texts: no quote, and none that begins a comment. -/
def isPlain (c : Char) : Bool :=
  isIdentChar c || isWhitespace c || c ∈ ['(', ')', ',', '.', '<', '>', '*']

theorem isPlain_iff : isPlain c = true ↔
    isIdentChar c = true ∨ isWhitespace c = true ∨ c ∈ ['(', ')', ',', '.', '<', '>', '*'] := by
  simp [isPlain, or_assoc]

/-- A plain character that is no identifier character is a lexeme of its own. -/
theorem next_plain {g : Grammar} (hc : isPlain c = true) (hw : isIdentChar c = false)
    (chars : List Char) : g.next (c :: chars) = some (.other c, chars) := by
  have hcut : Cut (c :: chars) (.other c) chars := by
    rcases isPlain_iff.mp hc with h | h | h
    · rw [hw] at h
      cases h
    · exact cut_blank h chars
    · simp only [List.mem_cons, List.not_mem_nil, or_false] at h
      rcases h with rfl | rfl | rfl | rfl | rfl | rfl | rfl <;>
        exact .other (by decide) (by simp) (by decide) (by simp) (by decide)
  have hq : c ≠ '`' := by
    rintro rfl
    revert hc
    decide
  rw [Grammar.next, if_neg (by simp [hq]), next_of_cut hcut]

theorem next_word {g : Grammar} (hc : isIdentChar c = true) (chars : List Char) :
    g.next (c :: chars) =
      some (.word (c :: chars.takeWhile isIdentChar), chars.dropWhile isIdentChar) := by
  have hq : c ≠ '`' := by
    rintro rfl
    revert hc
    decide
  rw [Grammar.next, if_neg (by simp [hq]), next_of_cut (.word hc)]

/-- A word at the end of a piece is not extended by what follows. -/
theorem takeWhile_append_of_joins {rest : List Char} (hc : isIdentChar c = true)
    (hr : joins (c :: s) rest = true) :
    (s ++ rest).takeWhile isIdentChar = s.takeWhile isIdentChar ∧
      (s ++ rest).dropWhile isIdentChar = s.dropWhile isIdentChar ++ rest ∧
      joins (s.dropWhile isIdentChar) rest = true := by
  induction s generalizing c with
  | nil =>
    cases rest with
    | nil => simp [joins]
    | cons d rest =>
      have hd : isIdentChar d = false := by simpa [joins, hc] using hr
      simp [joins, hd]
  | cons d s ih =>
    have hs : joins (d :: s) rest = true := by simpa [joins] using hr
    cases hd : isIdentChar d with
    | true => simpa [hd] using ih hd hs
    | false => simpa [hd] using hs

/-- A piece of plain characters reads the same in front of any text. -/
theorem reads_plain (g : Grammar) (hs : ∀ c ∈ s, isPlain c = true) :
    Reads g s (g.tokens s) := by
  intro rest hr
  induction hn : s.length using Nat.strongRecOn generalizing s with
  | ind n ih =>
    cases s with
    | nil => rfl
    | cons c s =>
      rw [List.length_cons] at hn
      cases hc : isIdentChar c with
      | true =>
        obtain ⟨htake, hdrop, hjoins⟩ := takeWhile_append_of_joins hc hr
        have hle := (List.dropWhile_suffix isIdentChar (l := s)).length_le
        rw [List.cons_append, Grammar.tokens_of_next (next_word hc (s ++ rest)),
          Grammar.tokens_of_next (next_word hc s), htake, hdrop,
          ih (s.dropWhile isIdentChar).length (by omega)
            (fun d hd => hs d (List.mem_cons_of_mem c ((List.dropWhile_suffix _).subset hd)))
            hjoins rfl,
          List.append_assoc]
      | false =>
        have hp := hs c List.mem_cons_self
        have hjoins : joins s rest = true := by
          cases s with
          | nil => simp [joins]
          | cons d s => simpa [joins] using hr
        rw [List.cons_append, Grammar.tokens_of_next (next_plain hp hc (s ++ rest)),
          Grammar.tokens_of_next (next_plain hp hc s),
          ih s.length (by omega) (fun d hd => hs d (List.mem_cons_of_mem c hd)) hjoins rfl,
          List.append_assoc]

theorem reads_fixed (hs : s.all isPlain = true) (hq : Grammar.query.tokens s = ts)
    (hd : Grammar.ddl.tokens s = ts) (g : Grammar) :
    Reads g s ts := by
  cases g with
  | query => exact hq ▸ reads_plain .query (List.all_eq_true.mp hs)
  | ddl => exact hd ▸ reads_plain .ddl (List.all_eq_true.mp hs)

/-- Pieces with `", "` between them. -/
theorem reads_commas {g : Grammar} {pieces : List (List Char)} {tokens : List (List Token)}
    (h : List.Forall₂ (Reads g) pieces tokens) :
    Reads g (", ".toList.intercalate pieces) ([Token.symbol ','].intercalate tokens) := by
  have hsep : Reads g ", ".toList [.symbol ','] := reads_fixed (by decide) rfl rfl g
  induction h with
  | nil => exact fun rest _ => rfl
  | @cons s ts pieces tokens hs hrest ih =>
    cases hrest with
    | nil => simpa using hs
    | cons _ _ =>
      simp only [List.intercalate_cons_cons] at ih ⊢
      exact (hs.append hsep (joins_of_head rfl (by decide) _)).append ih
        (joins_of_getLast (List.getLast?_append_of_ne_nil _ (by decide)) (by decide) _)

theorem not_semicolon_mem_commas {tokens : List (List Token)}
    (h : ∀ ts ∈ tokens, Token.symbol ';' ∉ ts) :
    Token.symbol ';' ∉ [Token.symbol ','].intercalate tokens := by
  induction tokens with
  | nil => simp
  | cons ts tokens ih =>
    have hts := h ts List.mem_cons_self
    cases tokens with
    | nil => simpa using hts
    | cons us tokens =>
      have hrest := ih fun x hx => h x (List.mem_cons_of_mem ts hx)
      rw [List.intercalate_cons_cons, List.mem_append, List.mem_append, not_or, not_or]
      exact ⟨⟨hts, by decide⟩, hrest⟩

/-! ## Quoted names -/

theorem backtickBody_name (h : '`' ∉ name) (rest : List Char) :
    backtickBody (name ++ '`' :: rest) = (name ++ ['`'], rest) := by
  induction name with
  | nil => simp [backtickBody]
  | cons c name ih =>
    rw [List.mem_cons, not_or] at h
    simp [backtickBody, Ne.symm h.1, ih h.2, push]

theorem quotedBody_name (h : '`' ∉ name) (he : '\\' ∉ name) (rest : List Char) :
    quotedBody '`' false 0 (name ++ '`' :: rest) = (name ++ ['`'], rest) := by
  rw [quotedBody_eq_munch]
  induction name with
  | nil => simp [munch, quotedStep]
  | cons c name ih =>
    rw [List.mem_cons, not_or] at h he
    simp [munch, quotedStep, Ne.symm h.1, Ne.symm he.1, ih h.2 he.2]

/-- Both grammars cut off a quoted name as one lexeme. -/
theorem next_quoted (g : Grammar) (h : '`' ∉ name) (he : '\\' ∉ name) (rest : List Char) :
    g.next ('`' :: (name ++ '`' :: rest)) = some (.quoted ('`' :: (name ++ ['`'])), rest) := by
  cases g with
  | query => simp [Grammar.next, Sql.next, isQuote, consumeQuoted, quotedBody_name h he rest]
  | ddl => simp [Grammar.next, backtickBody_name h rest]

theorem name?_quoted (g : Grammar) (he : '\\' ∉ name) :
    g.name? ('`' :: (name ++ ['`'])) = some name := by
  simp [Grammar.name?, he]

/-- A quoted name is one token under both grammars, and the token names it. -/
theorem reads_quoted (g : Grammar) (h : quoteIdent D name = .ok quoted) :
    Reads g quoted [.ident name] := by
  obtain ⟨rfl, hb, he⟩ := quoteIdent_eq_ok h
  intro rest _
  rw [List.cons_append, List.append_assoc, List.singleton_append,
    Grammar.tokens_of_next (next_quoted g hb he rest), Grammar.token, name?_quoted g he]
  rfl

theorem ends_quoted (h : quoteIdent D name = .ok quoted) :
    quoted.head? = some '`' ∧ quoted.getLast? = some '`' := by
  obtain ⟨rfl, -, -⟩ := quoteIdent_eq_ok h
  exact ⟨rfl, by rw [← List.cons_append, List.getLast?_concat]⟩

/-- The tokens of a table name. Spanner's default schema is the unnamed one. -/
def tableTokens (dbSchema : Option (List Char)) (table : List Char) : List Token :=
  match dbSchema.filter fun s => !s.isEmpty with
  | some schema => [.ident schema, .symbol '.', .ident table]
  | none => [.ident table]

theorem not_semicolon_mem_tableTokens (dbSchema : Option (List Char)) (table : List Char) :
    Token.symbol ';' ∉ tableTokens dbSchema table := by
  unfold tableTokens
  split <;> simp

/-- The schemas that a table name can be qualified with. -/
def AcceptedSchema (D : Debug) (dbSchema : Option (List Char)) : Prop :=
  ∀ schema ∈ dbSchema.filter fun s => !s.isEmpty, Accepted D schema

theorem accepted_of_qualifiedTable {table : List Char}
    (h : qualifiedTable D dbSchema table = .ok name) :
    AcceptedSchema D dbSchema ∧ Accepted D table := by
  unfold qualifiedTable at h
  unfold AcceptedSchema
  split at h
  · rename_i schema hf
    obtain ⟨qs, hqs, h⟩ := bind_eq_ok.mp h
    obtain ⟨quoted, hq, -⟩ := bind_eq_ok.mp h
    refine ⟨fun s hs => ?_, quoted, hq⟩
    obtain rfl : schema = s := Option.some.inj (hf.symm.trans hs)
    exact ⟨qs, hqs⟩
  · rename_i hf
    refine ⟨fun s hs => ?_, name, h⟩
    rw [hf] at hs
    cases hs

theorem qualifiedTable_eq_ok {table : List Char} (hs : AcceptedSchema D dbSchema)
    (ht : Accepted D table) :
    ∃ name, qualifiedTable D dbSchema table = .ok name ∧ name.head? = some '`' ∧
      name.getLast? = some '`' ∧ ∀ g, Reads g name (tableTokens dbSchema table) := by
  obtain ⟨quoted, hq⟩ := ht
  obtain ⟨hhead, hlast⟩ := ends_quoted hq
  unfold qualifiedTable tableTokens
  cases hf : dbSchema.filter fun s => !s.isEmpty with
  | none => exact ⟨quoted, hq, hhead, hlast, fun g => reads_quoted g hq⟩
  | some schema =>
    obtain ⟨qs, hqs⟩ := hs schema hf
    obtain ⟨hhead', hlast'⟩ := ends_quoted hqs
    refine ⟨qs ++ (['.'] ++ quoted), ?_, ?_, ?_, fun g => ?_⟩
    · simp only [hqs, hq]
      rfl
    · exact head?_append_some hhead'
    · exact getLast?_append_some (getLast?_append_some hlast)
    · have hdot : Reads g ['.'] [.symbol '.'] := reads_fixed (by decide) rfl rfl g
      exact (reads_quoted g hqs).append
        (hdot.append (reads_quoted g hq) (joins_of_head hhead (by decide) _))
        (joins_of_getLast hlast' (by decide) _)

/-! ## One statement -/

/-- The statements among the tokens: what the semicolons leave between them. -/
def statements (ts : List Token) : List (List Token) :=
  (ts.splitOn (.symbol ';')).filter fun s => !s.isEmpty

/-- The text reads as the skeleton and nothing else, and it is one statement, also to the splitter
that the driver itself puts in front of every execution. -/
structure Inert (g : Grammar) (sql : List Char) (skeleton : List Token) : Prop where
  tokens : g.tokens sql = skeleton
  one : statements (g.tokens sql) = [skeleton]
  split : splitStatements sql = [sql]

theorem trim_eq_self (hf : s.head? = some a) (hl : s.getLast? = some z)
    (ha : isWhitespace a = false) (hz : isWhitespace z = false) : trim s = s := by
  have hstart : trimStart s = s := by
    rw [eq_cons_of_head? hf, trimStart, List.dropWhile_cons_of_neg (by simp [ha])]
  rw [trim, hstart, trimEnd]
  obtain ⟨t, rfl⟩ := List.getLast?_eq_some_iff.mp hl
  exact List.rdropWhile_eq_self_iff.mpr (by simp [hz])

/-- The lexemes of the query grammar are the driver's own. -/
theorem lexer_query (sql : List Char) : Grammar.query.lexer.tokens sql = lex sql := by
  have hnext : Grammar.query.next = Sql.next := by
    funext chars
    simp [Grammar.next]
  have hsame : Grammar.query.lexer = lexer := by
    simp only [Grammar.lexer, hnext]
    rfl
  rw [hsame, lex]

theorem statement_of_tokens {sql : List Char} {w : List Char}
    (h : Grammar.query.tokens sql = .word w :: ts) (hfree : Token.symbol ';' ∉ ts)
    (hf : sql.head? = some a) (hl : sql.getLast? = some z) (ha : isWhitespace a = false)
    (hz : isWhitespace z = false) : Statement sql := by
  rw [Grammar.tokens, lexer_query] at h
  refine ⟨trim_eq_self hf hl ha hz, fun hsemi => ?_, ?_⟩
  · have hmem : Token.symbol ';' ∈ (lex sql).filterMap Grammar.query.token :=
      List.mem_filterMap.mpr ⟨_, hsemi, by decide⟩
    rw [h, List.mem_cons] at hmem
    rcases hmem with hmem | hmem
    · cases hmem
    · exact hfree hmem
  · have hmem : Token.word w ∈ (lex sql).filterMap Grammar.query.token := by
      rw [h]
      exact List.mem_cons_self
    obtain ⟨l, hl, hword⟩ := List.mem_filterMap.mp hmem
    refine List.any_eq_true.mpr ⟨l, hl, ?_⟩
    cases l with
    | word s => rfl
    | quoted s => rfl
    | comment s => cases hword
    | other c =>
      simp only [Grammar.token] at hword
      split at hword <;> cases hword

theorem inert_of_reads {sql w : List Char} (h : ∀ g, Reads g sql (.word w :: ts))
    (hfree : Token.symbol ';' ∉ ts) (hf : sql.head? = some a) (hl : sql.getLast? = some z)
    (ha : isWhitespace a = false) (hz : isWhitespace z = false) (g : Grammar) :
    Inert g sql (.word w :: ts) where
  tokens := (h g).tokens_eq
  one := by
    rw [(h g).tokens_eq, statements, List.splitOn_eq_splitOnP, List.splitOnP_eq_singleton]
    · rfl
    · intro t ht
      rw [beq_eq_false_iff_ne]
      rintro rfl
      rcases List.mem_cons.mp ht with ht | ht
      · cases ht
      · exact hfree ht
  split := (statement_of_tokens (h .query).tokens_eq hfree hf hl ha hz).split

end Sql
end SpannerAdbc
