import SpannerAdbc.Sql.Lexer

/-!
# SpannerAdbc.Sql.Relex

Lexing a part of a text on its own. `split_statements` lexes the whole input, cuts it at the
top-level semicolons, trims the pieces and hands them on; `push_statement`, `first_keyword` and a
second split then lex the trimmed piece again. Here is why they see the same lexemes:

* `scans_swap`: a run of lexemes is scanned in the same way when the text behind it changes.
* `lex_trim`: trimming a text removes blank lexemes at both ends and changes no other lexeme,
  except that a literal or comment at the very end may lose whitespace from its own text.
* `scans_newline`: a trimmed piece that was followed by a semicolon can be followed by a
  newline and a semicolon: a line comment that lost its newline gets it back.
-/

namespace SpannerAdbc
namespace Sql

open Lib Scanner

/-- `str::trim_start`, `str::trim_end` and `str::trim`. -/
def trimStart (s : List Char) : List Char := s.dropWhile isWhitespace
def trimEnd (s : List Char) : List Char := s.rdropWhile isWhitespace
def trim (s : List Char) : List Char := trimEnd (trimStart s)

/-! ## Trimming -/

/-- A text is its trimmed form with whitespace on both sides. -/
theorem trim_parts (s : List Char) : ∃ w u : List Char, (∀ c ∈ w, isWhitespace c = true) ∧
    (∀ c ∈ u, isWhitespace c = true) ∧ s = w ++ (trim s ++ u) := by
  refine ⟨s.takeWhile isWhitespace, (trimStart s).rtakeWhile isWhitespace,
    fun c hc => List.mem_takeWhile_imp hc, fun c hc => List.mem_rtakeWhile_imp hc, ?_⟩
  rw [trim, trimEnd, List.rdropWhile_append_rtakeWhile, trimStart, List.takeWhile_append_dropWhile]

variable {chars rest c r t u w x : List Char} {l : Lexeme} {ls : List Lexeme}

theorem trimEnd_append (hu : ∀ c ∈ u, isWhitespace c = true) (s : List Char) :
    trimEnd (s ++ u) = trimEnd s := by
  simp only [trimEnd, List.rdropWhile, List.reverse_append]
  rw [List.dropWhile_append_of_pos (by simpa using hu)]

theorem trim_blanks_append (hw : ∀ c ∈ w, isWhitespace c = true) (s : List Char) :
    trim (w ++ s) = trim s := by
  rw [trim, trimStart, List.dropWhile_append_of_pos hw]; rfl

/-- Whitespace around a trimmed text is exactly what trimming removes. -/
theorem trim_append {s : List Char} (hs : trim s = s) (hu : ∀ c ∈ u, isWhitespace c = true) :
    trim (s ++ u) = s := by
  cases s with
  | nil =>
    have := trim_blanks_append hu []
    simpa [trim, trimStart, trimEnd] using this
  | cons c s =>
    have hc : isWhitespace c = false := by
      by_contra hc
      have hlen := congrArg List.length hs
      rw [show c :: s = [c] ++ s from rfl, trim_blanks_append (w := [c]) (by simpa using hc)] at hlen
      have h1 : (trim s).length ≤ (trimStart s).length := ( List.rdropWhile_prefix _ _).length_le
      have h2 : (trimStart s).length ≤ s.length := (List.dropWhile_suffix _).length_le
      simp only [List.singleton_append, List.length_cons] at hlen
      omega
    have hstart : ∀ x, trimStart (c :: x) = c :: x := fun x => by simp [trimStart, hc]
    rw [trim, List.cons_append, hstart, ← List.cons_append, trimEnd_append hu]
    rw [trim, hstart] at hs
    exact hs

theorem trim_trim (s : List Char) : trim (trim s) = trim s := by
  have hend : trimEnd (trim s) = trim s := List.rdropWhile_idempotent _ _
  have hstart : trimStart (trim s) = trim s := by
    obtain ⟨v, hv⟩ : trim s <+: trimStart s := List.rdropWhile_prefix _ _
    cases ht : trim s with
    | nil => rfl
    | cons c t =>
      have hc := List.head?_dropWhile_not isWhitespace s
      rw [← trimStart, ← hv, ht] at hc
      simp only [List.cons_append, List.head?_cons] at hc
      simp [trimStart, hc]
  rw [trim, hstart, hend]

theorem mem_of_mem_trim {c : Char} {s : List Char} (h : c ∈ trim s) : c ∈ s :=
  (List.dropWhile_suffix _).mem (( List.rdropWhile_prefix _ _).mem h)

theorem trim_append_blanks (hu : ∀ c ∈ u, isWhitespace c = true) (s : List Char) :
    trim (s ++ u) = trim s := by
  obtain ⟨w, v, hw, hv, hs⟩ := trim_parts s
  have hblank : ∀ c ∈ v ++ u, isWhitespace c = true := List.forall_mem_append.mpr ⟨hv, hu⟩
  rw [hs, List.append_assoc, List.append_assoc, trim_blanks_append hw, trim_append (trim_trim s) hblank,
    ← hs]

/-- A character that is no whitespace stops the trimming on both sides. -/
theorem trim_around {c : Char} (hc : isWhitespace c = false) (s t : List Char) :
    trim (s ++ c :: t) = trimStart s ++ c :: trimEnd t := by
  have hstart : trimStart (s ++ c :: t) = trimStart s ++ c :: t := by
    rw [trimStart, List.dropWhile_append]
    split
    · rename_i h
      rw [List.isEmpty_iff] at h
      simp [trimStart, h, hc]
    · rfl
  have hend (x : List Char) : trimEnd (x ++ c :: t) = x ++ c :: trimEnd t := by
    rw [trimEnd, List.rdropWhile, List.reverse_append, List.reverse_cons, List.append_assoc,
      List.singleton_append, List.dropWhile_append]
    split
    · rename_i h
      rw [List.isEmpty_iff] at h
      simp [trimEnd, List.rdropWhile, h, hc]
    · simp [trimEnd, List.rdropWhile]
  rw [trim, hstart, hend]

theorem trim_trimStart (s : List Char) : trim (trimStart s) = trim s := by
  have hstart : trimStart (trimStart s) = trimStart s := List.dropWhile_idempotent _ _
  rw [trim, hstart, trim]

theorem trim_trimEnd (s : List Char) : trim (trimEnd s) = trim s := by
  have hblank : ∀ c ∈ s.rtakeWhile isWhitespace, isWhitespace c = true := fun c hc =>
    List.mem_rtakeWhile_imp hc
  have htrim := trim_append_blanks hblank (trimEnd s)
  rw [trimEnd, List.rdropWhile_append_rtakeWhile] at htrim
  exact htrim.symm

/-! ## Scanning in front of another text -/

theorem scans_cons_cut {rest' : List Char} (h : Cut chars l rest')
    (hs : Scans lexer rest' ls rest) : Scans lexer chars (l :: ls) rest :=
  .cons (next_of_cut h) hs

theorem lex_of_cut (h : Cut chars l rest) :
    lex chars = l :: lex rest := tokens_of_next (S := lexer) (next_of_cut h)

/-- Every nonempty text has a first lexeme. -/
theorem exists_cut (h : chars ≠ []) : ∃ l rest, Cut chars l rest := by
  obtain ⟨c, chars, rfl⟩ := List.exists_cons_of_ne_nil h
  obtain ⟨l, rest, hn⟩ := lexer.next_cons c chars
  exact ⟨l, rest, cut_of_next hn⟩

/-- A lexeme can be cut off its own text. -/
theorem Cut.alone (h : Cut chars l rest) :
    Cut l.text l [] := by
  by_cases hr : rest = []
  · subst hr
    rw [← List.append_nil l.text, ← h.text_append]
    exact h
  · have hswap : Cut (l.text ++ []) l [] := h.swap hr (.inr (.inl rfl))
    rwa [List.append_nil] at hswap

/-- The text behind a lexeme may be cut off at its end. -/
theorem Cut.front (h : Cut chars l (t ++ u)) :
    Cut (l.text ++ t) l t := by
  cases t with
  | nil => simpa using h.alone
  | cons c t => exact h.swap (by simp) (.inl rfl)

/-- Where the end of a lexeme lies in a text of two parts. -/
theorem append_cases {y : List Char} (h : t ++ u = x ++ y) :
    (∃ t', t = x ++ t' ∧ y = t' ++ u) ∨ ∃ c, c ≠ [] ∧ x = t ++ c ∧ u = c ++ y := by
  rcases List.append_eq_append_iff.mp h with ⟨c, rfl, rfl⟩ | ⟨t', rfl, rfl⟩
  · cases c with
    | nil => exact .inl ⟨[], by simp, rfl⟩
    | cons a c => exact .inr ⟨a :: c, by simp, rfl, rfl⟩
  · exact .inl ⟨t', rfl, rfl⟩

theorem follows_append {r' : List Char} (h : Follows r r') : Follows (x ++ r) (x ++ r') := by
  cases x with
  | nil => exact h
  | cons c x => exact .inl rfl

/-- A run of lexemes that stops before `r` is scanned in the same way in front of `r'`. -/
theorem scans_swap {r' : List Char} (h : Scans lexer chars ls r) (hr : r ≠ []) (hf : Follows r r') :
    Scans lexer (lexer.flat ls ++ r') ls r' := by
  induction h with
  | nil => exact .nil
  | @cons chars rest' r l ls hn hs ih =>
    rw [flat_cons, List.append_assoc]
    have he := hs.flat_eq
    refine scans_cons_cut (Cut.swap (cut_of_next hn) ?_ ?_) (ih hr hf)
    · rw [he]; simp [hr]
    · rw [he]; exact follows_append hf

theorem scans_blanks (hw : ∀ c ∈ w, isWhitespace c = true) (rest : List Char) :
    Scans lexer (w ++ rest) (w.map .other) rest := by
  induction w with
  | nil => exact .nil
  | cons c w ih =>
    exact scans_cons_cut (cut_blank (hw c List.mem_cons_self) _)
      (ih fun d hd => hw d (List.mem_cons_of_mem _ hd))

theorem isBlank_of_mem_map (hw : ∀ c ∈ w, isWhitespace c = true) (hl : l ∈ w.map Lexeme.other) :
    l.isBlank = true := by
  obtain ⟨c, hc, rfl⟩ := List.mem_map.mp hl
  exact hw c hc

theorem lex_blanks (hw : ∀ c ∈ w, isWhitespace c = true) (rest : List Char) :
    lex (w ++ rest) = w.map .other ++ lex rest := (scans_blanks hw rest).tokens_eq

theorem map_shape_other (w : List Char) : (w.map Lexeme.other).map Lexeme.shape = w.map .other := by
  simp [Lexeme.shape]

/-- A lexeme of two characters or more is no blank. -/
theorem isBlank_eq_false (h : l.text = t ++ c) (ht : t ≠ []) (hc : c ≠ []) : l.isBlank = false := by
  cases l with
  | other d =>
    obtain ⟨a, t, rfl⟩ := List.exists_cons_of_ne_nil ht
    obtain ⟨b, c, rfl⟩ := List.exists_cons_of_ne_nil hc
    simp [Lexeme.text] at h
  | word | quoted | comment => rfl

theorem lex_blanks_alone (hw : ∀ c ∈ w, isWhitespace c = true) :
    lex w = w.map .other := by
  simpa [lex] using lex_blanks hw []

/-- Whitespace cut off the end of a text takes blank lexemes with it, and no others. -/
theorem lex_append_blanks (t u : List Char) (hu : ∀ c ∈ u, isWhitespace c = true) :
    ∃ v : List Char, (∀ c ∈ v, isWhitespace c = true) ∧
      (lex (t ++ u)).map Lexeme.shape = (lex t).map Lexeme.shape ++ v.map .other := by
  induction hn : t.length using Nat.strongRecOn generalizing t with
  | ind n ih =>
    by_cases ht : t = []
    · subst ht
      exact ⟨u, hu, by rw [List.nil_append, lex_blanks_alone hu, map_shape_other]; rfl⟩
    have hne : t ++ u ≠ [] := by simp [ht]
    obtain ⟨l, rest, hcut⟩ := exists_cut hne
    rw [lex_of_cut hcut]
    rcases append_cases hcut.text_append with ⟨t', rfl, rfl⟩ | ⟨c, hc, hl, rfl⟩
    · have hlen := List.length_pos_of_ne_nil hcut.text_ne_nil
      obtain ⟨v, hv, e⟩ := ih t'.length (by rw [← hn, List.length_append]; omega) t' rfl
      refine ⟨v, hv, ?_⟩
      rw [lex_of_cut hcut.front, List.map_cons, List.map_cons, e]
      rfl
    · -- the lexeme reaches into the whitespace: it is cut short, and only blanks are left
      have hrest : ∀ d ∈ rest, isWhitespace d = true := fun d hd => hu d (List.mem_append_right _ hd)
      have halone := hcut.alone
      rw [hl] at halone
      obtain ⟨l', hcut', hshape⟩ := halone.trim_end (fun d hd => hu d (List.mem_append_left _ hd))
        (isBlank_eq_false hl ht hc)
      refine ⟨rest, hrest, ?_⟩
      rw [lex_blanks_alone hrest, lex_of_cut hcut', List.map_cons, List.map_cons, map_shape_other,
        hshape]
      rfl

/-- Trimming removes blank lexemes at both ends and changes the shape of no other lexeme. -/
theorem lex_trim (text : List Char) : ∃ w v : List Char, (∀ c ∈ w, isWhitespace c = true) ∧
    (∀ c ∈ v, isWhitespace c = true) ∧ (lex text).map Lexeme.shape =
      w.map .other ++ ((lex (trim text)).map Lexeme.shape ++ v.map .other) := by
  obtain ⟨w, u, hw, hu, e⟩ := trim_parts text
  obtain ⟨v, hv, ev⟩ := lex_append_blanks (trim text) u hu
  refine ⟨w, v, hw, hv, ?_⟩
  rw [← ev, ← map_shape_other, ← List.map_append, ← lex_blanks hw, ← e]

/-! ## A newline and a semicolon behind a trimmed text -/

/-- A literal that does not reach the end of the input ends in its quote. -/
theorem consumeQuoted_closes {quote : Char} (h : consumeQuoted quote chars = (x, r)) (hr : r ≠ []) :
    ∃ y, x = y ++ [quote] := by
  rcases consumeQuoted_cases quote chars with ⟨hq, rest, rfl⟩ | ⟨hq, rest, rfl, hc⟩ | hp
  · rw [consumeQuoted_triple hq] at h
    obtain ⟨rfl, h2⟩ := Prod.mk.inj h
    obtain ⟨y, a, st, hy, ha⟩ := munch_closes rfl (show (munch _ _ rest).2 ≠ [] from h2 ▸ hr)
    rw [(quotedStep_eq_none ha).2.1] at hy
    exact ⟨[quote, quote] ++ y, by rw [hy, List.append_assoc]⟩
  · rw [consumeQuoted_empty hq hc] at h
    obtain ⟨rfl, _⟩ := Prod.mk.inj h
    exact ⟨[], rfl⟩
  · rw [consumeQuoted_plain hp] at h
    obtain ⟨y, a, st, hy, ha⟩ := munch_closes h hr
    rw [(quotedStep_eq_none ha).2.1] at hy
    exact ⟨y, hy⟩

/-- A line comment passes the text before its last characters, so a newline there ends it. -/
theorem lineComment_newline (h : lineComment (t ++ (c ++ rest)) = (t ++ c, rest)) (hc : c ≠ [])
    (x : List Char) :
    lineComment (t ++ '\n' :: x) = (t ++ ['\n'], x) := by
  rw [lineComment_eq_munch] at h
  obtain ⟨_, hm⟩ := munch_through h hc
  rw [lineComment_eq_munch, hm]
  simp [munch, lineStep]

/-- Of the lexemes that do not reach the end of the input only a line comment can end in
whitespace. A newline in place of that whitespace ends it as well. -/
theorem Cut.newline (h : Cut (t ++ (c ++ rest)) l rest) (hl : l.text = t ++ c) (ht : t ≠ [])
    (hc : c ≠ []) (hws : ∀ d ∈ c, isWhitespace d = true) (hr : rest ≠ []) (x : List Char) :
    ∃ l', Cut (t ++ '\n' :: x) l' x ∧ l'.shape = l.shape := by
  -- the last character of the lexeme is whitespace
  have hlast : ∀ {y : List Char} {d : Char}, l.text = y ++ [d] → isWhitespace d = true := by
    intro y d hy
    have e : (t ++ c).getLast? = some d := by rw [← hl, hy]; simp
    rw [List.getLast?_append_of_ne_nil _ hc] at e
    exact hws d (List.mem_of_getLast? e)
  have hcons : ∀ {d : Char} {w : List Char}, t ++ (c ++ rest) = d :: w →
      ∃ t', t = d :: t' ∧ w = t' ++ (c ++ rest) := by
    intro d w e
    obtain ⟨a, t, rfl⟩ := List.exists_cons_of_ne_nil ht
    obtain ⟨rfl, rfl⟩ := List.cons.inj e
    exact ⟨t, rfl, rfl⟩
  generalize hcs : t ++ (c ++ rest) = cs at h
  cases h with
  | @quoted q chars s r hq h =>
    obtain ⟨y, rfl⟩ := consumeQuoted_closes h hr
    have hw := hlast (y := q :: y) (d := q) rfl
    rcases isQuote_iff.mp hq with rfl | rfl | rfl <;> exact absurd hw (by decide)
  | @dash chars s r h =>
    obtain ⟨t', rfl, e⟩ := hcons hcs
    obtain rfl : s = t' ++ c := by simpa [Lexeme.text] using hl
    rw [e] at h
    have h' := lineComment_newline h hc x
    have hne : t' ≠ [] := by
      rintro rfl
      obtain ⟨d, c, rfl⟩ := List.exists_cons_of_ne_nil hc
      obtain ⟨rfl, -⟩ := List.cons.inj e
      exact absurd (hws '-' List.mem_cons_self) (by decide)
    obtain ⟨d, t', rfl⟩ := List.exists_cons_of_ne_nil hne
    obtain ⟨rfl, -⟩ := List.cons.inj e
    exact ⟨_, .dash h', rfl⟩
  | @hash chars s r h =>
    obtain ⟨t', rfl, rfl⟩ := hcons hcs
    obtain rfl : s = t' ++ c := by simpa [Lexeme.text] using hl
    exact ⟨_, .hash (lineComment_newline h hc x), rfl⟩
  | @block chars s r h =>
    rw [blockComment_eq_munch] at h
    obtain ⟨y, a, prev, rfl, ha⟩ := munch_closes h hr
    have ha' : a = '/' := by
      simp only [blockStep, ite_eq_left_iff, reduceCtorEq, imp_false, Classical.not_not] at ha
      exact ha.2
    have hw := hlast (y := '/' :: '*' :: y) (d := a) rfl
    exact absurd (ha' ▸ hw) (by decide)
  | @word d chars hw =>
    obtain ⟨e, c, rfl⟩ := List.exists_cons_of_ne_nil hc
    have he : e ∈ d :: chars.takeWhile isIdentChar := by
      rw [show d :: chars.takeWhile isIdentChar = t ++ e :: c from hl]; simp
    exact absurd (hws e List.mem_cons_self) (not_isWhitespace_of_mem_word hw he)
  | @other d chars h1 h2 h3 h4 h5 =>
    obtain ⟨a, t, rfl⟩ := List.exists_cons_of_ne_nil ht
    obtain ⟨b, c, rfl⟩ := List.exists_cons_of_ne_nil hc
    simp [Lexeme.text] at hl

/-- A trimmed text that was followed by another lexeme can be followed by a newline instead: the
lexemes keep their shapes, up to blanks. -/
theorem scans_newline (h : Scans lexer (t ++ (u ++ r)) ls r) (hu : ∀ c ∈ u, isWhitespace c = true)
    (hr : r ≠ []) (x : List Char) : ∃ ls', Scans lexer (t ++ '\n' :: x) ls' x ∧
      ∀ l' ∈ ls', l'.isBlank = true ∨ ∃ l ∈ ls, l'.shape = l.shape := by
  induction hn : t.length using Nat.strongRecOn generalizing t ls with
  | ind n ih =>
    by_cases ht : t = []
    · subst ht
      refine ⟨[.other '\n'], scans_cons_cut (cut_blank (by decide) x) .nil, fun l' hl' => .inl ?_⟩
      rw [List.mem_singleton.mp hl']
      decide
    generalize hcs : t ++ (u ++ r) = cs at h
    cases h with
    | nil =>
      have := congrArg List.length hcs
      have := List.length_pos_of_ne_nil ht
      simp at *
      omega
    | @cons _ rest _ l ls hnext hs =>
      have hcut := cut_of_next hnext
      rw [← hcs] at hcut
      rcases append_cases hcut.text_append with ⟨t', rfl, rfl⟩ | ⟨c, hc, hl, e⟩
      · have hlen := List.length_pos_of_ne_nil hcut.text_ne_nil
        obtain ⟨ls', hs', hshape⟩ := ih t'.length (by rw [← hn, List.length_append]; omega) hs rfl
        refine ⟨l :: ls', ?_, ?_⟩
        · rw [List.append_assoc]
          refine scans_cons_cut (hcut.swap (by simp [hr]) ?_) hs'
          cases t' with
          | nil => exact .inr (.inr (.inl rfl))
          | cons => exact .inl rfl
        · intro l' hl'
          rcases List.mem_cons.mp hl' with rfl | hl'
          · exact .inr ⟨l', List.mem_cons_self, rfl⟩
          · rcases hshape l' hl' with hb | ⟨l'', hl'', he⟩
            · exact .inl hb
            · exact .inr ⟨l'', List.mem_cons_of_mem _ hl'', he⟩
      · have hflat := hs.flat_eq
        have hu' : u = c ++ lexer.flat ls := by
          rw [hflat, ← List.append_assoc] at e
          exact List.append_cancel_right e
        rw [e] at hcut
        obtain ⟨l', hcut', hshape⟩ := hcut.newline hl ht hc
          (fun d hd => hu d (by rw [hu']; exact List.mem_append_left _ hd)) (by rw [hflat]; simp [hr]) x
        refine ⟨[l'], scans_cons_cut hcut' .nil, fun l'' hl'' => .inr ⟨l, List.mem_cons_self, ?_⟩⟩
        rw [List.mem_singleton.mp hl'', hshape]

end Sql
end SpannerAdbc
