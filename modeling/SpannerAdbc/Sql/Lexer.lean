import SpannerAdbc.Lib.Munch
import SpannerAdbc.Lib.Scanner
import Mathlib.Data.List.DropRight

/-!
# SpannerAdbc.Sql.Lexer

The GoogleSQL lexer of `src/sql.rs`: `consumeQuoted`, the `Lexer` iterator (`next`) and `lex`.
A `&str` is its list of characters; a slice `&input[start..pos]` is the text of the lexeme that
was cut off, so no byte offsets are needed.

The loops of the source are translated one by one (`quotedBody`, `lineComment`, `blockComment`)
and then shown to be munches, which is where every fact about the ends of literals and comments
comes from:

* `Cut.swap`: a lexeme that does not reach the end of the input is cut off in the same way when
  the text behind it is replaced, as long as the first character behind it stays the same or
  cannot extend a lexeme (`Follows`).
* `Cut.trim_end`: a comment or literal cut short at its end is still one comment or literal.
-/

namespace SpannerAdbc
namespace Sql

open Lib

/-- `char::is_whitespace`, the Unicode property `White_Space`. -/
def isWhitespace (c : Char) : Bool :=
  let n := c.toNat
  n == 0x20 || (0x09 ≤ n && n ≤ 0x0d) || n == 0x85 || n == 0xa0 || n == 0x1680 ||
    (0x2000 ≤ n && n ≤ 0x200a) || n == 0x2028 || n == 0x2029 || n == 0x202f || n == 0x205f ||
    n == 0x3000

/-- `is_ident_char`. Lean's `isAlphanum` is ASCII only, like `is_ascii_alphanumeric`. -/
def isIdentChar (c : Char) : Bool := c == '_' || c.isAlphanum

/-- The characters that open a literal or quoted identifier. -/
def isQuote (c : Char) : Bool := c == '\'' || c == '"' || c == '`'

theorem isQuote_iff {c : Char} : isQuote c = true ↔ c = '\'' ∨ c = '"' ∨ c = '`' := by
  simp [isQuote, or_assoc]

inductive Lexeme where
  | word (s : List Char)
  | quoted (s : List Char)
  | comment (s : List Char)
  | other (c : Char)
deriving DecidableEq, Repr

/-- The source text of a lexeme. -/
def Lexeme.text : Lexeme → List Char
  | .word s | .quoted s | .comment s => s
  | .other c => [c]

/-- The characters `s` were consumed ahead of those of `p`. -/
def push (s : List Char) (p : List Char × List Char) : List Char × List Char := (s ++ p.1, p.2)

/-- The `while` loop of `consume_quoted`: consumed characters and the rest. `run` is
`closing_run`. -/
def quotedBody (quote : Char) (triple : Bool) : Nat → List Char → List Char × List Char
  | _, [] => ([], [])
  | run, ch :: chars =>
    if ch = '\\' then
      match chars with
      | [] => ([ch], [])
      | escaped :: chars => push [ch, escaped] (quotedBody quote triple 0 chars)
    else if ch = quote then
      if !triple then ([ch], chars)
      else if run + 1 = 3 then ([ch], chars)
      else push [ch] (quotedBody quote triple (run + 1) chars)
    else push [ch] (quotedBody quote triple 0 chars)

/-- `consume_quoted`: the opening `quote` has just been read. -/
def consumeQuoted (quote : Char) (chars : List Char) : List Char × List Char :=
  if quote ≠ '`' ∧ chars.head? = some quote then
    -- The second quote. If a third follows the literal is triple-quoted, else it was empty.
    if chars.tail.head? = some quote then
      push [quote, quote] (quotedBody quote true 0 chars.tail.tail)
    else ([quote], chars.tail)
  else quotedBody quote false 0 chars

/-- `Lexer::consume_line_comment`: through the newline or to the end of the input. -/
def lineComment : List Char → List Char × List Char
  | [] => ([], [])
  | ch :: chars => if ch = '\n' then ([ch], chars) else push [ch] (lineComment chars)

/-- The loop over the body of a block comment, the opening `/*` already consumed. -/
def blockComment (prev : Char) : List Char → List Char × List Char
  | [] => ([], [])
  | ch :: chars =>
    if prev = '*' ∧ ch = '/' then ([ch], chars) else push [ch] (blockComment ch chars)

/-- `Lexer::next`: the lexeme at the front of the input, and what is left. -/
def next : List Char → Option (Lexeme × List Char)
  | [] => none
  | c :: chars =>
    if isQuote c then
      some (.quoted (c :: (consumeQuoted c chars).1), (consumeQuoted c chars).2)
    else if c = '-' ∧ chars.head? = some '-' then
      some (.comment (c :: (lineComment chars).1), (lineComment chars).2)
    else if c = '#' then
      some (.comment (c :: (lineComment chars).1), (lineComment chars).2)
    else if c = '/' ∧ chars.head? = some '*' then
      some (.comment (c :: '*' :: (blockComment '\x00' chars.tail).1),
        (blockComment '\x00' chars.tail).2)
    else if isIdentChar c then
      some (.word (c :: chars.takeWhile isIdentChar), chars.dropWhile isIdentChar)
    else some (.other c, chars)

/-! ## The loops are munches -/

/-- The automaton of `quotedBody`: the closing run, and whether a backslash was just read. -/
def quotedStep (quote : Char) (triple : Bool) : Nat × Bool → Char → Option (Nat × Bool)
  | (_, true), _ => some (0, false)
  | (run, false), ch =>
    if ch = '\\' then some (0, true)
    else if ch = quote then
      if !triple then none else if run + 1 = 3 then none else some (run + 1, false)
    else some (0, false)

def lineStep (_ : Unit) (ch : Char) : Option Unit := if ch = '\n' then none else some ()

def blockStep (prev ch : Char) : Option Char := if prev = '*' ∧ ch = '/' then none else some ch

variable {quote : Char} {r' : List Char}

/-- The automaton closes on the last of the quotes that a literal needs. -/
theorem quotedStep_eq_none {ch : Char} {triple : Bool} {state : Nat × Bool}
    (h : quotedStep quote triple state ch = none) :
    state.2 = false ∧ ch = quote ∧ (triple = true → state.1 = 2) := by
  obtain ⟨run, esc⟩ := state
  cases esc with
  | true => cases h
  | false =>
    simp only [quotedStep] at h
    split at h
    · cases h
    · split at h
      · rename_i hquote
        refine ⟨rfl, hquote, fun htriple => ?_⟩
        rw [htriple] at h
        simp only [Bool.not_true, Bool.false_eq_true, if_false] at h
        split at h
        · rename_i hrun
          exact Nat.succ.inj hrun
        · cases h
      · cases h

theorem quotedBody_eq_munch (quote : Char) (triple : Bool) (run : Nat) (chars : List Char) :
    quotedBody quote triple run chars = munch (quotedStep quote triple) (run, false) chars := by
  fun_induction quotedBody quote triple run chars <;> simp_all [munch, quotedStep, push]

theorem lineComment_eq_munch (chars : List Char) :
    lineComment chars = munch lineStep () chars := by
  fun_induction lineComment chars <;> simp_all [munch, lineStep, push]

theorem blockComment_eq_munch (prev : Char) (chars : List Char) :
    blockComment prev chars = munch blockStep prev chars := by
  fun_induction blockComment prev chars with
  | case1 => rfl
  | case2 prev ch chars h => simp [munch, blockStep, h]
  | case3 prev ch chars h ih => simp only [munch, blockStep, if_neg h, ih, push, List.singleton_append]

theorem eq_cons_of_head? {c : Char} {chars : List Char} (h : chars.head? = some c) :
    chars = c :: chars.tail := by
  cases chars with
  | nil => simp at h
  | cons d chars => simp only [List.head?_cons, Option.some.injEq] at h; rw [h, List.tail_cons]

theorem consumeQuoted_triple (hq : quote ≠ '`') (chars : List Char) :
    consumeQuoted quote (quote :: quote :: chars) =
      push [quote, quote] (munch (quotedStep quote true) (0, false) chars) := by
  simp [consumeQuoted, hq, quotedBody_eq_munch]

theorem consumeQuoted_empty {chars : List Char} (hq : quote ≠ '`') (hc : chars.head? ≠ some quote) :
    consumeQuoted quote (quote :: chars) = ([quote], chars) := by
  simp [consumeQuoted, hq, hc]

theorem consumeQuoted_plain {chars : List Char} (h : ¬ (quote ≠ '`' ∧ chars.head? = some quote)) :
    consumeQuoted quote chars = munch (quotedStep quote false) (0, false) chars := by
  rw [consumeQuoted, if_neg h, quotedBody_eq_munch]

/-- The three openings of a literal: triple-quoted, empty, and any other. -/
theorem consumeQuoted_cases (quote : Char) (chars : List Char) :
    (quote ≠ '`' ∧ ∃ rest, chars = quote :: quote :: rest) ∨
    (quote ≠ '`' ∧ ∃ rest, chars = quote :: rest ∧ rest.head? ≠ some quote) ∨
    ¬ (quote ≠ '`' ∧ chars.head? = some quote) := by
  by_cases h : quote ≠ '`' ∧ chars.head? = some quote
  · obtain ⟨hq, h⟩ := h
    by_cases h2 : chars.tail.head? = some quote
    · exact .inl ⟨hq, chars.tail.tail, by rw [← eq_cons_of_head? h2, ← eq_cons_of_head? h]⟩
    · exact .inr (.inl ⟨hq, chars.tail, eq_cons_of_head? h, h2⟩)
  · exact .inr (.inr h)

theorem consumeQuoted_append (quote : Char) (chars : List Char) :
    (consumeQuoted quote chars).1 ++ (consumeQuoted quote chars).2 = chars := by
  rcases consumeQuoted_cases quote chars with ⟨hq, rest, rfl⟩ | ⟨hq, rest, rfl, hc⟩ | h
  · simp [consumeQuoted_triple hq, push, munch_append]
  · rw [consumeQuoted_empty hq hc]; rfl
  · rw [consumeQuoted_plain h, munch_append]

theorem consumeQuoted_swap {chars x r : List Char} (h : consumeQuoted quote chars = (x, r))
    (hr : r ≠ []) (hf : r'.head? = r.head? ∨ r'.head? ≠ some quote) :
    consumeQuoted quote (x ++ r') = (x, r') := by
  have ha := consumeQuoted_append quote chars
  rw [h] at ha
  rcases consumeQuoted_cases quote chars with ⟨hq, rest, rfl⟩ | ⟨hq, rest, rfl, hc⟩ | hp
  · rw [consumeQuoted_triple hq] at h
    obtain ⟨rfl, h2⟩ := Prod.mk.inj h
    have hm : munch (quotedStep quote true) (0, false)
        ((munch (quotedStep quote true) (0, false) rest).1 ++ r) =
          ((munch (quotedStep quote true) (0, false) rest).1, r) := by
      rw [← h2, munch_append]
    simp [consumeQuoted_triple hq, munch_swap hm hr, push]
  · rw [consumeQuoted_empty hq hc] at h
    obtain ⟨rfl, rfl⟩ := Prod.mk.inj h
    have hc' : r'.head? ≠ some quote := by
      rcases hf with hf | hf
      · rw [hf]; exact hc
      · exact hf
    exact consumeQuoted_empty hq hc'
  · rw [consumeQuoted_plain hp, ← ha] at h
    have hx : x ≠ [] := by
      rintro rfl
      obtain ⟨c, r, rfl⟩ := List.exists_cons_of_ne_nil hr
      exact munch_cons_ne_nil _ c r (congrArg Prod.fst h)
    rw [consumeQuoted_plain, munch_swap h hr]
    obtain ⟨c, x, rfl⟩ := List.exists_cons_of_ne_nil hx
    rw [← ha] at hp
    exact hp

theorem consumeQuoted_shorten {x u : List Char} (h : consumeQuoted quote (x ++ u) = (x ++ u, [])) :
    consumeQuoted quote x = (x, []) := by
  rcases consumeQuoted_cases quote (x ++ u) with ⟨hq, rest, e⟩ | ⟨hq, rest, e, hc⟩ | hp
  · rw [e, consumeQuoted_triple hq] at h
    rcases x with _ | ⟨c, _ | ⟨c', x⟩⟩
    · simp [consumeQuoted, quotedBody]
    · obtain ⟨rfl, _⟩ := List.cons.inj e
      exact consumeQuoted_empty hq (by simp)
    · simp only [List.cons_append, List.cons.injEq] at e
      obtain ⟨rfl, rfl, rfl⟩ := e
      simp only [push, Prod.mk.injEq, List.cons_append, List.nil_append, List.cons.injEq,
        true_and] at h
      rw [consumeQuoted_triple hq, munch_shorten (Prod.ext h.1 h.2)]
      rfl
  · rw [e, consumeQuoted_empty hq hc] at h
    obtain ⟨h1, rfl⟩ := Prod.mk.inj h
    rcases x with _ | ⟨c, x⟩
    · simp [consumeQuoted, quotedBody]
    · simp only [List.cons_append, List.cons.injEq, List.append_eq_nil_iff] at e
      obtain ⟨rfl, rfl, _⟩ := e
      exact consumeQuoted_empty hq (by simp)
  · rw [consumeQuoted_plain hp] at h
    rw [consumeQuoted_plain, munch_shorten h]
    rcases x with _ | ⟨c, x⟩
    · simp
    · exact hp

/-! ## One lexeme -/

/-- The ways a lexeme is cut off the front of the input, one for each arm of `Lexer::next`. -/
inductive Cut : List Char → Lexeme → List Char → Prop where
  | quoted {q : Char} {chars s r : List Char} : isQuote q = true → consumeQuoted q chars = (s, r) →
      Cut (q :: chars) (.quoted (q :: s)) r
  | dash {chars s r : List Char} : lineComment ('-' :: chars) = (s, r) →
      Cut ('-' :: '-' :: chars) (.comment ('-' :: s)) r
  | hash {chars s r : List Char} : lineComment chars = (s, r) →
      Cut ('#' :: chars) (.comment ('#' :: s)) r
  | block {chars s r : List Char} : blockComment '\x00' chars = (s, r) →
      Cut ('/' :: '*' :: chars) (.comment ('/' :: '*' :: s)) r
  | word {c : Char} {chars : List Char} : isIdentChar c = true →
      Cut (c :: chars) (.word (c :: chars.takeWhile isIdentChar)) (chars.dropWhile isIdentChar)
  | other {c : Char} {chars : List Char} : isQuote c = false → ¬ (c = '-' ∧ chars.head? = some '-') →
      c ≠ '#' → ¬ (c = '/' ∧ chars.head? = some '*') → isIdentChar c = false →
      Cut (c :: chars) (.other c) chars

theorem cut_of_next {chars rest : List Char} {l : Lexeme} (h : next chars = some (l, rest)) :
    Cut chars l rest := by
  cases chars with
  | nil => simp [next] at h
  | cons c chars =>
    simp only [next] at h
    split at h
    · rename_i hq; cases h; exact .quoted hq rfl
    · rename_i hq
      split at h
      · rename_i hd
        obtain ⟨rfl, hd⟩ := hd
        cases h
        have e := eq_cons_of_head? hd
        generalize chars.tail = chars' at e
        subst e
        exact .dash rfl
      · rename_i hd
        split at h
        · rename_i hh; subst hh; cases h; exact .hash rfl
        · rename_i hh
          split at h
          · rename_i hb
            obtain ⟨rfl, hb⟩ := hb
            cases h
            have e := eq_cons_of_head? hb
            generalize chars.tail = chars' at e
            subst e
            exact .block rfl
          · rename_i hb
            split at h
            · rename_i hw; cases h; exact .word hw
            · rename_i hw; cases h; exact .other (by simpa using hq) hd hh hb (by simpa using hw)

theorem next_of_cut {chars rest : List Char} {l : Lexeme} (h : Cut chars l rest) :
    next chars = some (l, rest) := by
  cases h with
  | quoted hq h => rw [next, if_pos hq, h]
  | dash h => simp [next, isQuote, h]
  | hash h => simp [next, isQuote, h]
  | block h => simp [next, isQuote, h]
  | @word c chars hw =>
    have h1 : ¬ isQuote c = true := by
      rw [isQuote_iff]; rintro (rfl | rfl | rfl) <;> revert hw <;> decide
    have h2 : c ≠ '-' := by rintro rfl; revert hw; decide
    have h3 : c ≠ '#' := by rintro rfl; revert hw; decide
    have h4 : c ≠ '/' := by rintro rfl; revert hw; decide
    simp only [next, if_neg h1, h2, h3, h4, false_and, if_false, hw, if_true]
  | other h1 h2 h3 h4 h5 =>
    simp only [next]
    rw [if_neg (by simp [h1]), if_neg h2, if_neg h3, if_neg h4, if_neg (by simp [h5])]

theorem lineComment_append (chars : List Char) :
    (lineComment chars).1 ++ (lineComment chars).2 = chars := by
  rw [lineComment_eq_munch, munch_append]

theorem blockComment_append (prev : Char) (chars : List Char) :
    (blockComment prev chars).1 ++ (blockComment prev chars).2 = chars := by
  rw [blockComment_eq_munch, munch_append]

theorem Cut.text_append {chars rest : List Char} {l : Lexeme} (h : Cut chars l rest) :
    chars = l.text ++ rest := by
  cases h with
  | @quoted q chars s r _ h => have := consumeQuoted_append q chars; rw [h] at this; simp [Lexeme.text, this]
  | @dash chars s r h => have := lineComment_append ('-' :: chars); rw [h] at this; simp [Lexeme.text, this]
  | @hash chars s r h => have := lineComment_append chars; rw [h] at this; simp [Lexeme.text, this]
  | @block chars s r h => have := blockComment_append '\x00' chars; rw [h] at this; simp [Lexeme.text, this]
  | @word c chars _ => simp [Lexeme.text, List.takeWhile_append_dropWhile]
  | other => rfl

theorem Cut.text_ne_nil {chars rest : List Char} {l : Lexeme} (h : Cut chars l rest) :
    l.text ≠ [] := by
  cases h <;> simp [Lexeme.text]

/-- The lexer as a scanner: `Lexer::next` partitions its input. -/
def lexer : Scanner Char Lexeme where
  next := next
  text := Lexeme.text
  next_nil := rfl
  next_cons := by
    intro c chars
    simp only [next]
    repeat' split
    all_goals exact ⟨_, _, rfl⟩
  next_text := fun h => (cut_of_next h).text_append
  text_ne_nil := fun h => (cut_of_next h).text_ne_nil

/-- `lex`: all lexemes of the input. -/
def lex (sql : List Char) : List Lexeme := lexer.tokens sql

/-- The text that may stand behind a lexeme in place of `r` without changing the lexeme. -/
def Follows (r r' : List Char) : Prop :=
  r'.head? = r.head? ∨ r' = [] ∨ r'.head? = some '\n' ∨ r'.head? = some ';'

theorem Follows.head_ne {c : Char} {r : List Char} (h : Follows r r') (hr : r.head? ≠ some c)
    (h1 : c ≠ '\n') (h2 : c ≠ ';') : r'.head? ≠ some c := by
  rcases h with h | h | h | h
  · rw [h]; exact hr
  · simp [h]
  · simpa [h] using h1.symm
  · simpa [h] using h2.symm

theorem Cut.swap {chars r : List Char} {l : Lexeme} (h : Cut chars l r) (hr : r ≠ [])
    (hf : Follows r r') : Cut (l.text ++ r') l r' := by
  cases h with
  | @quoted q chars s r hq h =>
    refine .quoted hq (consumeQuoted_swap h hr ?_)
    by_cases he : r.head? = some q
    · rcases hf with hf | hf | hf | hf
      · exact .inl hf
      · exact .inr (by simp [hf])
      · exact .inr (by rw [hf]; rcases isQuote_iff.mp hq with rfl | rfl | rfl <;> decide)
      · exact .inr (by rw [hf]; rcases isQuote_iff.mp hq with rfl | rfl | rfl <;> decide)
    · refine .inr (hf.head_ne he ?_ ?_) <;> rcases isQuote_iff.mp hq with rfl | rfl | rfl <;> decide
  | @dash chars s r h =>
    have ha := lineComment_append ('-' :: chars)
    rw [h] at ha
    rw [lineComment_eq_munch] at h
    cases s with
    | nil => exact absurd (congrArg Prod.fst h) (munch_cons_ne_nil _ _ _)
    | cons c s =>
      obtain ⟨rfl, _⟩ := List.cons.inj ha
      refine .dash ?_
      rw [← ha] at h
      rw [lineComment_eq_munch]
      exact munch_swap h hr
  | @hash chars s r h =>
    have ha := lineComment_append chars
    rw [h] at ha
    rw [lineComment_eq_munch, ← ha] at h
    exact .hash (by rw [lineComment_eq_munch]; exact munch_swap h hr)
  | @block chars s r h =>
    have ha := blockComment_append '\x00' chars
    rw [h] at ha
    rw [blockComment_eq_munch, ← ha] at h
    exact .block (by rw [blockComment_eq_munch]; exact munch_swap h hr)
  | @word c chars hw =>
    have hall : ∀ a ∈ chars.takeWhile isIdentChar, isIdentChar a = true :=
      fun a ha => List.mem_takeWhile_imp ha
    have hhead : r'.takeWhile isIdentChar = [] ∧ r'.dropWhile isIdentChar = r' := by
      cases r' with
      | nil => exact ⟨rfl, rfl⟩
      | cons a r' =>
        have ha : isIdentChar a = false := by
          rcases hf with hf | hf | hf | hf
          · obtain ⟨b, bs, hb⟩ := List.exists_cons_of_ne_nil hr
            rw [hb] at hf
            have := List.head?_dropWhile_not isIdentChar chars
            rw [hb] at this
            simp only [List.head?_cons, Option.some.injEq] at hf
            subst hf
            simpa using this
          · simp at hf
          · simp only [List.head?_cons, Option.some.injEq] at hf; subst hf; decide
          · simp only [List.head?_cons, Option.some.injEq] at hf; subst hf; decide
        simp [ha]
    have hcut := @Cut.word c (chars.takeWhile isIdentChar ++ r') hw
    rw [List.takeWhile_append_of_pos hall, List.dropWhile_append_of_pos hall, hhead.1, hhead.2,
      List.append_nil] at hcut
    exact hcut
  | @other c chars h1 h2 h3 h4 h5 =>
    refine .other h1 ?_ h3 ?_ h5
    · rintro ⟨rfl, h⟩
      exact hf.head_ne (c := '-') (fun h' => h2 ⟨rfl, h'⟩) (by decide) (by decide) h
    · rintro ⟨rfl, h⟩
      exact hf.head_ne (c := '*') (fun h' => h4 ⟨rfl, h'⟩) (by decide) (by decide) h

/-! ## Blanks, shapes and cutting at the end -/

/-- A lexeme that is one whitespace character. -/
def Lexeme.isBlank : Lexeme → Bool
  | .other c => isWhitespace c
  | _ => false

/-- What a lexeme is, apart from the text of a literal or comment. -/
def Lexeme.shape : Lexeme → Lexeme
  | .quoted _ => .quoted []
  | .comment _ => .comment []
  | l => l

theorem isIdentChar_iff (c : Char) : isIdentChar c = true ↔
    c.toNat = 0x5f ∨ (0x41 ≤ c.toNat ∧ c.toNat ≤ 0x5a) ∨ (0x61 ≤ c.toNat ∧ c.toNat ≤ 0x7a) ∨
      (0x30 ≤ c.toNat ∧ c.toNat ≤ 0x39) := by
  have hu : c = '_' ↔ c.toNat = 0x5f := by rw [← Char.toNat_inj]; rfl
  have hranges : isIdentChar c = (c == '_' || (decide (c.val ≥ 0x41 ∧ c.val ≤ 0x5a) ||
      (decide (c.val ≥ 0x61) && decide (c.val ≤ 0x7a)) ||
        (decide (c.val ≥ 0x30) && decide (c.val ≤ 0x39)))) := rfl
  simp only [hranges, Bool.or_eq_true, Bool.and_eq_true, beq_iff_eq, decide_eq_true_eq, ge_iff_le,
    UInt32.le_iff_toNat_le, hu, or_assoc]
  rfl

theorem isIdentChar_of_isWhitespace {c : Char} (h : isWhitespace c = true) :
    isIdentChar c = false := by
  rw [← Bool.not_eq_true, isIdentChar_iff]
  simp only [isWhitespace, Bool.or_eq_true, Bool.and_eq_true, beq_iff_eq, decide_eq_true_eq] at h
  omega

theorem ne_of_isWhitespace {c d : Char} (hc : isWhitespace c = true) (hd : isWhitespace d = false) :
    c ≠ d := by
  rintro rfl
  rw [hc] at hd
  cases hd

/-- No whitespace character can begin a lexeme other than itself. -/
theorem cut_blank {c : Char} (h : isWhitespace c = true) (chars : List Char) :
    Cut (c :: chars) (.other c) chars := by
  refine .other ?_ (fun hc => ne_of_isWhitespace h (by decide) hc.1)
    (ne_of_isWhitespace h (by decide)) (fun hc => ne_of_isWhitespace h (by decide) hc.1)
    (isIdentChar_of_isWhitespace h)
  rw [← Bool.not_eq_true, isQuote_iff]
  rintro (rfl | rfl | rfl) <;> revert h <;> decide

theorem not_isWhitespace_of_mem_word {c d : Char} {chars : List Char} (hc : isIdentChar c = true)
    (hd : d ∈ c :: chars.takeWhile isIdentChar) : ¬ isWhitespace d = true := by
  intro hw
  have hident : isIdentChar d = true := by
    rcases List.mem_cons.mp hd with rfl | hd
    · exact hc
    · exact List.mem_takeWhile_imp hd
  rw [isIdentChar_of_isWhitespace hw] at hident
  cases hident

/-- A character that is not whitespace stays when whitespace is cut off the end. -/
theorem cons_of_append_blank {t u w : List Char} {c : Char} (hu : ∀ c ∈ u, isWhitespace c = true)
    (hc : isWhitespace c = false) (e : t ++ u = c :: w) : ∃ t', t = c :: t' ∧ w = t' ++ u := by
  cases t with
  | nil =>
    have hblank := hu c (by rw [← List.nil_append u, e]; exact List.mem_cons_self)
    rw [hc] at hblank
    cases hblank
  | cons d t =>
    obtain ⟨rfl, rfl⟩ := List.cons.inj e
    exact ⟨t, rfl, rfl⟩

/-- Whitespace cut off the end of a lexeme that reaches the end of the input leaves a lexeme of
the same shape: a word or operator has none, and a literal or comment is only cut short. -/
theorem Cut.trim_end {t u : List Char} {l : Lexeme} (h : Cut (t ++ u) l [])
    (hu : ∀ c ∈ u, isWhitespace c = true) (hl : l.isBlank = false) :
    ∃ l', Cut t l' [] ∧ l'.shape = l.shape := by
  have htext := h.text_append
  rw [List.append_nil] at htext
  generalize hcs : t ++ u = cs at h htext
  generalize hend : ([] : List Char) = rest at h
  cases h with
  | @quoted q chars s r hq h =>
    have hc : isWhitespace q = false := by rcases isQuote_iff.mp hq with rfl | rfl | rfl <;> decide
    obtain ⟨t', rfl, rfl⟩ := cons_of_append_blank hu hc hcs
    obtain rfl : t' ++ u = s := by simpa [Lexeme.text] using htext
    subst hend
    exact ⟨_, .quoted hq (consumeQuoted_shorten h), rfl⟩
  | @dash chars s r h =>
    obtain ⟨t', rfl, e⟩ := cons_of_append_blank hu (by decide) hcs
    obtain ⟨t'', rfl, rfl⟩ := cons_of_append_blank hu (by decide) e.symm
    obtain rfl : '-' :: (t'' ++ u) = s := by simpa [Lexeme.text] using htext
    subst hend
    rw [lineComment_eq_munch] at h
    refine ⟨_, .dash (s := '-' :: t'') ?_, rfl⟩
    rw [lineComment_eq_munch]
    exact munch_shorten (x := '-' :: t'') h
  | @hash chars s r h =>
    obtain ⟨t', rfl, rfl⟩ := cons_of_append_blank hu (by decide) hcs
    obtain rfl : t' ++ u = s := by simpa [Lexeme.text] using htext
    subst hend
    rw [lineComment_eq_munch] at h
    exact ⟨_, .hash (s := t') (by rw [lineComment_eq_munch]; exact munch_shorten h), rfl⟩
  | @block chars s r h =>
    obtain ⟨t', rfl, e⟩ := cons_of_append_blank hu (by decide) hcs
    obtain ⟨t'', rfl, rfl⟩ := cons_of_append_blank hu (by decide) e.symm
    obtain rfl : t'' ++ u = s := by simpa [Lexeme.text] using htext
    subst hend
    rw [blockComment_eq_munch] at h
    exact ⟨_, .block (s := t'') (by rw [blockComment_eq_munch]; exact munch_shorten h), rfl⟩
  | @word c chars hw =>
    have : u = [] := by
      refine List.eq_nil_iff_forall_not_mem.mpr fun d hd => ?_
      refine @not_isWhitespace_of_mem_word c d chars hw ?_ (hu d hd)
      rw [show c :: chars.takeWhile isIdentChar = c :: chars from htext.symm, ← hcs]
      exact List.mem_append_right _ hd
    subst this
    rw [List.append_nil] at hcs
    subst hcs
    exact ⟨_, .word hw, rfl⟩
  | @other c chars h1 h2 h3 h4 h5 =>
    subst hend
    obtain ⟨t', rfl, e⟩ := cons_of_append_blank hu hl hcs
    obtain ⟨rfl, -⟩ := List.append_eq_nil_iff.mp e.symm
    exact ⟨_, .other h1 h2 h3 h4 h5, rfl⟩

end Sql
end SpannerAdbc
