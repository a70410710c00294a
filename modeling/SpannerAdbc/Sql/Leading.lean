import SpannerAdbc.Sql.Closing
import SpannerAdbc.Sql.Keyword

/-!
# SpannerAdbc.Sql.Leading

What may stand in front of a statement: whitespace and closed comments (`Separator`), and statement
hints. They are described by their texts, without the lexer; `Separator.cut` and `scans_hintBody` say
that the lexer reads them as they are meant in front of any text, and `separators_of_scans` and
`hintBody_of_scans` the converse.

`firstKeyword_leading`: the keyword scan steps over such texts. `starts_of_firstKeyword`: what it steps
over is such a text.
-/

namespace SpannerAdbc
namespace Sql

open Lib Scanner

/-! ## The texts -/

/-- A whitespace character or a closed comment. -/
inductive Separator : List Char → Prop where
  | blank {c : Char} : isWhitespace c = true → Separator [c]
  | dash {body : List Char} : '\n' ∉ body → Separator (['-', '-'] ++ body ++ ['\n'])
  | hash {body : List Char} : '\n' ∉ body → Separator (['#'] ++ body ++ ['\n'])
  | block {body : List Char} : ¬ ['*', '/'] <:+: body ++ ['*'] →
      Separator (['/', '*'] ++ body ++ ['*', '/'])

inductive Separators : List Char → Prop where
  | nil : Separators []
  | cons {s rest : List Char} : Separator s → Separators rest → Separators (s ++ rest)

/-- The rest of a hint, behind the opening brace and through the closing one: a brace inside of a
literal or comment does not close it. -/
inductive HintBody : List Char → Prop where
  | close : HintBody ['}']
  | enclosed {form : Form} {s rest : List Char} : Form.opening (s ++ rest) = some form →
      form.Closed s → (∀ p, p <+: s → form.Closed p → p = s) → HintBody rest → HintBody (s ++ rest)
  | char {c : Char} {rest : List Char} : c ≠ '}' → Form.opening (c :: rest) = none →
      HintBody rest → HintBody (c :: rest)

/-- What may precede the first keyword. -/
inductive Leading : List Char → Prop where
  | nil : Leading []
  | separator {s rest : List Char} : Separator s → Leading rest → Leading (s ++ rest)
  | hint {between body rest : List Char} : Separators between → HintBody body → Leading rest →
      Leading ('@' :: (between ++ '{' :: (body ++ rest)))

/-! ## Closed texts and the lexer -/

theorem opening_of_isIdentChar {c : Char} (hc : isIdentChar c = true) (rest : List Char) :
    Form.opening (c :: rest) = none := by
  have hquote : isQuote c = false := by
    rw [← Bool.not_eq_true, isQuote_iff]
    rintro (rfl | rfl | rfl) <;> revert hc <;> decide
  have hdash : c ≠ '-' := by rintro rfl; revert hc; decide
  have hhash : c ≠ '#' := by rintro rfl; revert hc; decide
  have hslash : c ≠ '/' := by rintro rfl; revert hc; decide
  simp [Form.opening, hquote, hdash, hhash, hslash]

variable {chars rest body pre kw r : List Char} {ls : List Lexeme}

theorem opening_line {lead : List Char} (h : Form.opening chars = some (.line lead)) :
    lead = ['-', '-'] ∨ lead = ['#'] := by
  cases chars with
  | nil => cases h
  | cons c rest =>
    rw [Form.opening] at h
    grind

/-- A text that is closed and not before its end is cut off as one lexeme. -/
theorem cut_enclosed (form : Form) {s : List Char} (hopen : Form.opening (s ++ rest) = some form)
    (hclosed : form.Closed s) (hleast : ∀ p, p <+: s → form.Closed p → p = s) :
    Cut (s ++ rest) (form.lexeme s) rest := by
  have hne : s ++ rest ≠ [] := by
    intro h
    rw [h] at hopen
    cases hopen
  obtain ⟨l, r, hcut⟩ := exists_cut hne
  rcases hcut.cases_closed with ⟨w, rfl, hw, hident, -⟩ | ⟨form', hl, hopen', hfirst⟩ | ⟨c, -, -, hnone⟩
  · obtain ⟨c, w, rfl⟩ := List.exists_cons_of_ne_nil hw
    have hnone := opening_of_isIdentChar (hident c List.mem_cons_self) (w ++ r)
    rw [hcut.text_append] at hopen
    exact absurd (hopen.symm.trans hnone) (by simp)
  · rw [hopen] at hopen'
    cases hopen'
    have hprefix := hfirst.least s (List.prefix_append s rest) hclosed
    have htext : l.text = s := by
      rcases hfirst.ends with hends | hends
      · exact hleast _ hprefix hends
      · refine hprefix.eq_of_length_le ?_
        rw [hends, List.length_append]
        omega
    have hrest := hcut.text_append
    rw [htext] at hl hrest
    obtain rfl : rest = r := List.append_cancel_left hrest
    rw [← hl]
    exact hcut
  · rw [hopen] at hnone
    cases hnone

theorem Separator.cut {s : List Char} (h : Separator s) (rest : List Char) :
    ∃ l, Cut (s ++ rest) l rest ∧ l.isSignificant = false := by
  have hline : ∀ {lead body p : List Char}, '\n' ∉ body → p <+: lead ++ body ++ ['\n'] →
      (Form.line lead).Closed p → p = lead ++ body ++ ['\n'] := by
    rintro lead body p hbody hp ⟨body', rfl⟩
    rw [List.append_assoc, List.append_assoc, List.prefix_append_right_inj] at hp
    rw [List.append_assoc, List.append_assoc]
    rcases List.prefix_concat_iff.mp hp with h | h
    · rw [h]
    · exact absurd (h.subset (List.mem_append_right _ List.mem_cons_self)) hbody
  cases h with
  | @blank c hc => exact ⟨.other c, cut_blank hc rest, by simp [Lexeme.isSignificant, hc]⟩
  | @dash body hbody =>
    refine ⟨_, cut_enclosed (.line ['-', '-']) ?_ ⟨body, rfl⟩ fun p => hline hbody, rfl⟩
    simp [Form.opening, isQuote]
  | @hash body hbody =>
    refine ⟨_, cut_enclosed (.line ['#']) ?_ ⟨body, rfl⟩ fun p => hline hbody, rfl⟩
    simp [Form.opening, isQuote]
  | @block body hbody =>
    refine ⟨_, cut_enclosed .block ?_ ⟨body, rfl⟩ ?_, rfl⟩
    · simp [Form.opening, isQuote]
    · rintro p hp ⟨body', rfl⟩
      have hp' : body' ++ ['*', '/'] <+: (body ++ ['*']) ++ ['/'] := by simpa using hp
      rcases List.prefix_concat_iff.mp hp' with h | h
      · simpa using h
      · exact absurd ((List.suffix_append body' ['*', '/']).isInfix.trans h.isInfix) hbody

/-- The converse: a comment that does not reach the end of the input is closed. -/
theorem Cut.separator {l : Lexeme} (h : Cut chars l r) (hr : r ≠ [])
    (hl : l.isSignificant = false) : Separator l.text := by
  have hall := h.text_append
  rcases h.cases_closed with ⟨w, rfl, -, -, -⟩ | ⟨form, hlexeme, hopen, hfirst⟩ | ⟨c, rfl, -, -⟩
  · cases hl
  · have hclosed : form.Closed l.text := by
      refine hfirst.ends.resolve_right fun htext => hr ?_
      rw [htext] at hall
      exact List.self_eq_append_right.mp hall
    cases form with
    | literal | triple =>
      rw [hlexeme] at hl
      cases hl
    | line lead =>
      obtain ⟨body, htext⟩ := hclosed
      have hbody : '\n' ∉ body := by
        intro hmem
        obtain ⟨b, b', rfl⟩ := List.append_of_mem hmem
        have := hfirst.eq_of_closed (s := lead ++ b ++ ['\n']) ⟨b' ++ ['\n'], by simp [htext]⟩
          ⟨b, rfl⟩
        have hlen := congrArg List.length (this.trans htext)
        simp at hlen
      rcases opening_line hopen with rfl | rfl
      · rw [htext]
        exact .dash hbody
      · rw [htext]
        exact .hash hbody
    | block =>
      obtain ⟨body, htext⟩ := hclosed
      rw [htext]
      refine .block ?_
      rintro ⟨b, b', e⟩
      have hprefix : ['/', '*'] ++ b ++ ['*', '/'] <+: l.text := by
        refine ⟨b' ++ ['/'], ?_⟩
        have := congrArg (fun x => ['/', '*'] ++ x ++ ['/']) e
        simpa [htext] using this
      have hlen := congrArg List.length ((hfirst.eq_of_closed hprefix ⟨b, rfl⟩).trans htext)
      have hlen' := congrArg List.length e
      simp at hlen hlen'
      omega
  · refine .blank ?_
    simpa [Lexeme.isSignificant] using hl

theorem scans_separators {between : List Char} (h : Separators between) (rest : List Char) :
    ∃ ls, Scans lexer (between ++ rest) ls rest ∧ ∀ l ∈ ls, l.isSignificant = false := by
  induction h with
  | nil => exact ⟨[], .nil, by simp⟩
  | @cons s between hs _ ih =>
    obtain ⟨ls, hscans, hls⟩ := ih
    obtain ⟨l, hcut, hl⟩ := hs.cut (between ++ rest)
    rw [List.append_assoc]
    exact ⟨l :: ls, scans_cons_cut hcut hscans, List.forall_mem_cons.mpr ⟨hl, hls⟩⟩

theorem separators_of_scans (h : Scans lexer chars ls r)
    (hr : r ≠ []) (hls : ∀ l ∈ ls, l.isSignificant = false) : Separators (lexer.flat ls) := by
  induction h with
  | nil => exact .nil
  | @cons chars rest' r l ls hn hs ih =>
    obtain ⟨hl, hls⟩ := List.forall_mem_cons.mp hls
    refine .cons ((cut_of_next hn).separator ?_ hl) (ih hr hls)
    rw [hs.flat_eq]
    simp [hr]

/-! ## Hints -/

/-- The closing brace settles what opens in front of it. -/
theorem opening_append_brace (x y : List Char) :
    Form.opening (x ++ '}' :: y) = Form.opening (x ++ ['}']) := by
  rcases x with _ | ⟨a, _ | ⟨b, _ | ⟨c, x⟩⟩⟩
  · rfl
  · have hne : isQuote a = true → '}' ≠ a := by
      rintro h rfl
      cases h
    by_cases ha : isQuote a = true
    · simp [Form.opening, ha, hne ha]
    · simp [Form.opening, ha]
  · rfl
  · rfl

theorem HintBody.ends (h : HintBody body) : ∃ x, body = x ++ ['}'] := by
  induction h with
  | close => exact ⟨[], rfl⟩
  | @enclosed form s rest _ _ _ _ ih =>
    obtain ⟨x, rfl⟩ := ih
    exact ⟨s ++ x, by simp⟩
  | @char c rest _ _ _ ih =>
    obtain ⟨x, rfl⟩ := ih
    exact ⟨c :: x, rfl⟩

/-- What follows the hint does not matter. -/
theorem HintBody.opening_append (h : HintBody rest) (s sql : List Char) :
    Form.opening (s ++ (rest ++ sql)) = Form.opening (s ++ rest) := by
  obtain ⟨x, rfl⟩ := h.ends
  have := opening_append_brace (s ++ x) sql
  simpa using this

theorem HintBody.dropWhile (h : HintBody body) :
    HintBody (body.dropWhile isIdentChar) := by
  induction h with
  | close => exact .close
  | @enclosed form s rest hopen hclosed hleast h _ =>
    have hhead : (s ++ rest).dropWhile isIdentChar = s ++ rest := by
      cases hs : s ++ rest with
      | nil => rfl
      | cons c rest' =>
        rw [List.dropWhile_cons, if_neg]
        intro hc
        rw [hs, opening_of_isIdentChar hc] at hopen
        cases hopen
    rw [hhead]
    exact .enclosed hopen hclosed hleast h
  | @char c rest hc hopen h ih =>
    rw [List.dropWhile_cons]
    split
    · exact ih
    · exact .char hc hopen h

theorem cut_other {c : Char} (hc : isIdentChar c = false)
    (hopen : Form.opening (c :: rest) = none) : Cut (c :: rest) (.other c) rest := by
  obtain ⟨l, r, hcut⟩ := exists_cut (List.cons_ne_nil c rest)
  have hall := hcut.text_append
  rcases hcut.cases_closed with ⟨w, rfl, hw, hident, -⟩ | ⟨form, -, hopen', -⟩ | ⟨d, rfl, -, -⟩
  · obtain ⟨d, w, rfl⟩ := List.exists_cons_of_ne_nil hw
    obtain ⟨rfl, -⟩ := List.cons.inj hall
    rw [hident c List.mem_cons_self] at hc
    cases hc
  · rw [hopen] at hopen'
    cases hopen'
  · obtain ⟨rfl, rfl⟩ := List.cons.inj hall
    exact hcut

theorem text_lexeme (form : Form) (s : List Char) : (form.lexeme s).text = s := by
  cases form <;> rfl

theorem lexeme_ne_other (form : Form) (s : List Char) (c : Char) : form.lexeme s ≠ .other c := by
  cases form <;> exact Lexeme.noConfusion

/-- A hint is read through its closing brace, whatever follows. -/
theorem scans_hintBody (h : HintBody body) (sql : List Char) :
    ∃ ls, Scans lexer (body ++ sql) (ls ++ [.other '}']) sql ∧ Lexeme.other '}' ∉ ls := by
  induction hn : body.length using Nat.strongRecOn generalizing body with
  | ind n ih =>
    cases h with
    | close =>
      refine ⟨[], scans_cons_cut ?_ .nil, by simp⟩
      exact .other (by decide) (by simp) (by decide) (by simp) (by decide)
    | @enclosed form s rest hopen hclosed hleast h =>
      have hcut := cut_enclosed form ((h.opening_append s sql).trans hopen) hclosed hleast
      have hne := hcut.text_ne_nil
      rw [text_lexeme] at hne
      have hlt : rest.length < n := by
        have := List.length_pos_of_ne_nil hne
        rw [List.length_append] at hn
        omega
      obtain ⟨ls, hscans, hls⟩ := ih rest.length hlt h rfl
      rw [List.append_assoc]
      refine ⟨form.lexeme s :: ls, scans_cons_cut hcut hscans, ?_⟩
      rw [List.mem_cons, not_or]
      exact ⟨(lexeme_ne_other form s '}').symm, hls⟩
    | @char c rest hc hopen h =>
      rw [List.length_cons] at hn
      by_cases hident : isIdentChar c = true
      · -- The word runs on to the first character that does not belong to a name.
        have hbody := h.dropWhile
        have hlen := (List.dropWhile_sublist (l := rest) isIdentChar).length_le
        obtain ⟨ls, hscans, hls⟩ := ih _ (by omega) hbody rfl
        have hcut : Cut (c :: (rest ++ sql)) _ _ := .word hident
        have hdrop : (rest ++ sql).dropWhile isIdentChar = rest.dropWhile isIdentChar ++ sql := by
          obtain ⟨x, hx⟩ := hbody.ends
          rw [List.dropWhile_append, if_neg (by simp [hx])]
        rw [hdrop] at hcut
        refine ⟨_ :: ls, scans_cons_cut hcut hscans, ?_⟩
        simpa using hls
      · have hcut := cut_other (Bool.eq_false_iff.mpr hident)
          ((h.opening_append [c] sql).trans hopen)
        obtain ⟨ls, hscans, hls⟩ := ih rest.length (by omega) h rfl
        refine ⟨.other c :: ls, scans_cons_cut hcut hscans, ?_⟩
        rw [List.mem_cons, not_or]
        exact ⟨fun e => hc (Lexeme.other.inj e).symm, hls⟩

theorem HintBody.word {w : List Char} (hw : ∀ c ∈ w, isIdentChar c = true) (h : HintBody rest) :
    HintBody (w ++ rest) := by
  induction w with
  | nil => exact h
  | cons c w ih =>
    obtain ⟨hc, hw⟩ := List.forall_mem_cons.mp hw
    refine .char ?_ (opening_of_isIdentChar hc _) (ih hw)
    rintro rfl
    revert hc
    decide

/-- The converse: lexemes up to a closing brace are the rest of a hint. -/
theorem hintBody_of_scans
    (h : Scans lexer chars ls ('}' :: r)) (hls : Lexeme.other '}' ∉ ls) :
    HintBody (lexer.flat ls ++ ['}']) := by
  generalize hend : '}' :: r = rest at h
  induction h with
  | nil => exact .close
  | @cons chars rest' rest l ls hn hs ih =>
    subst hend
    rw [List.mem_cons, not_or] at hls
    have hbody := ih hls.2 rfl
    have hcut := cut_of_next hn
    have hall := hcut.text_append
    have hrest := hs.flat_eq
    rw [flat_cons, List.append_assoc]
    have hopen : Form.opening (l.text ++ (lexer.flat ls ++ ['}'])) = Form.opening chars := by
      rw [hall, hrest, ← List.append_assoc, ← List.append_assoc]
      exact (opening_append_brace _ r).symm
    change HintBody (l.text ++ (lexer.flat ls ++ ['}']))
    rcases hcut.cases_closed with ⟨w, rfl, -, hident, -⟩ | ⟨form, hl, hform, hfirst⟩ | ⟨c, rfl, hc, hnone⟩
    · exact hbody.word hident
    · refine .enclosed (hopen.trans hform) (hfirst.ends.resolve_right fun htext => ?_)
        (fun p hp hc => hfirst.eq_of_closed hp hc) hbody
      rw [htext] at hall
      rw [List.self_eq_append_right.mp hall] at hrest
      simp at hrest
    · exact .char (fun e => hls.1 (by rw [e])) (hopen.trans hnone) hbody

/-! ## The keyword scan -/

theorem significantLexemes_of_scans
    (h : Scans lexer chars ls r) :
    significantLexemes chars = ls.filter Lexeme.isSignificant ++ significantLexemes r := by
  rw [significantLexemes, lex, h.tokens_eq, List.filter_append]
  rfl

theorem firstKeywordLoop_closes (h : Lexeme.other '}' ∉ ls) (rest : List Lexeme) :
    firstKeywordLoop true (ls ++ .other '}' :: rest) = firstKeywordLoop false rest := by
  induction ls with
  | nil => rfl
  | cons l ls ih =>
    rw [List.mem_cons, not_or] at h
    rw [List.cons_append, firstKeywordLoop, bne_iff_ne.mpr (Ne.symm h.1), ih h.2]

theorem cut_brace (rest : List Char) : Cut ('{' :: rest) (.other '{') rest :=
  cut_other (by decide) rfl

theorem cut_at (rest : List Char) : Cut ('@' :: rest) (.other '@') rest :=
  cut_other (by decide) rfl

theorem scans_leading (h : Leading pre) (sql : List Char) :
    ∃ ls, Scans lexer (pre ++ sql) ls sql ∧ ∀ rest,
      firstKeywordLoop false (ls.filter Lexeme.isSignificant ++ rest) = firstKeywordLoop false rest := by
  induction h with
  | nil => exact ⟨[], .nil, fun _ => rfl⟩
  | @separator s pre hs _ ih =>
    obtain ⟨ls, hscans, hloop⟩ := ih
    obtain ⟨l, hcut, hl⟩ := hs.cut (pre ++ sql)
    rw [List.append_assoc]
    refine ⟨l :: ls, scans_cons_cut hcut hscans, fun rest => ?_⟩
    rw [List.filter_cons, hl]
    exact hloop rest
  | @hint between body pre hbetween hbody _ ih =>
    obtain ⟨ls, hscans, hloop⟩ := ih
    obtain ⟨hint, hhint, hclose⟩ := scans_hintBody hbody (pre ++ sql)
    obtain ⟨seps, hseps, hblank⟩ := scans_separators hbetween ('{' :: (body ++ (pre ++ sql)))
    have hall := scans_cons_cut (cut_at _)
      (hseps.trans (scans_cons_cut (cut_brace _) (hhint.trans hscans)))
    refine ⟨.other '@' :: (seps ++ .other '{' :: (hint ++ .other '}' :: ls)), by simpa using hall,
      fun rest => ?_⟩
    have hnone : seps.filter Lexeme.isSignificant = [] :=
      List.filter_eq_nil_iff.mpr fun l hl => by simp [hblank l hl]
    have hbrace : Lexeme.other '}' ∉ hint.filter Lexeme.isSignificant := fun h =>
      hclose (List.mem_filter.mp h).1
    calc firstKeywordLoop false ((Lexeme.other '@' :: (seps ++ .other '{' :: (hint ++
          .other '}' :: ls))).filter Lexeme.isSignificant ++ rest)
      _ = firstKeywordLoop false (.other '@' :: .other '{' :: (hint.filter Lexeme.isSignificant ++
          .other '}' :: (ls.filter Lexeme.isSignificant ++ rest))) := by
        simp [hnone, Lexeme.isSignificant, isWhitespace]
      _ = firstKeywordLoop true (hint.filter Lexeme.isSignificant ++
          .other '}' :: (ls.filter Lexeme.isSignificant ++ rest)) := rfl
      _ = firstKeywordLoop false (ls.filter Lexeme.isSignificant ++ rest) :=
        firstKeywordLoop_closes hbrace _
      _ = firstKeywordLoop false rest := hloop rest

theorem firstKeyword_leading (h : Leading pre) (sql : List Char) :
    firstKeyword (pre ++ sql) = firstKeyword sql := by
  obtain ⟨ls, hscans, hloop⟩ := scans_leading h sql
  rw [firstKeyword, significantLexemes_of_scans hscans, hloop]
  rfl

/-! ## What the scan steps over -/

theorem cut_of_tokens {l : Lexeme}
    (h : lexer.tokens chars = l :: ls) : ∃ r, Cut chars l r ∧ lexer.tokens r = ls := by
  obtain ⟨r, hscans, hrest⟩ := scans_of_tokens (show lexer.tokens chars = [l] ++ ls from h)
  cases hscans with
  | cons hn hs =>
    cases hs
    exact ⟨r, cut_of_next hn, hrest⟩

/-- A hint that is skipped has a closing brace. -/
theorem closes_of_firstKeywordLoop
    (h : firstKeywordLoop true (ls.filter Lexeme.isSignificant) = some kw) :
    ∃ body rest, ls = body ++ .other '}' :: rest ∧ Lexeme.other '}' ∉ body ∧
      firstKeywordLoop false (rest.filter Lexeme.isSignificant) = some kw := by
  by_cases hmem : Lexeme.other '}' ∈ ls
  · obtain ⟨body, rest, rfl, hbody⟩ := List.eq_append_cons_of_mem hmem
    refine ⟨body, rest, rfl, hbody, ?_⟩
    rw [List.filter_append, List.filter_cons_of_pos rfl,
      firstKeywordLoop_closes fun h => hbody (List.mem_filter.mp h).1] at h
    exact h
  · have hnone : ∀ {ls : List Lexeme}, Lexeme.other '}' ∉ ls → firstKeywordLoop true ls = none := by
      intro ls hls
      induction ls with
      | nil => rfl
      | cons l ls ih =>
        rw [List.mem_cons, not_or] at hls
        rw [firstKeywordLoop, bne_iff_ne.mpr (Ne.symm hls.1), ih hls.2]
    rw [hnone fun h => hmem (List.mem_filter.mp h).1] at h
    cases h

/-- What is skipped behind an at-sign is the rest of a hint. -/
theorem hint_of_firstKeywordLoop
    (hhead : (significantLexemes chars).head? = some (.other '{'))
    (h : firstKeywordLoop true (significantLexemes chars) = some kw) :
    ∃ between body rest, chars = between ++ '{' :: (body ++ rest) ∧ Separators between ∧
      HintBody body ∧ firstKeyword rest = some kw := by
  rw [significantLexemes, List.head?_filter, List.find?_eq_some_iff_append] at hhead
  obtain ⟨-, seps, tail, hlex, hseps⟩ := hhead
  have hblank : ∀ l ∈ seps, l.isSignificant = false := fun l hl => by simpa using hseps l hl
  rw [significantLexemes, hlex, List.filter_append, List.filter_eq_nil_iff.mpr (by simpa using hblank),
    List.nil_append, List.filter_cons_of_pos rfl] at h
  obtain ⟨body, rest, rfl, hbody, hkw⟩ := closes_of_firstKeywordLoop h
  -- The lexemes are the separators, the opening brace, the body, the closing brace and the rest.
  obtain ⟨r₁, hscans₁, htokens₁⟩ := scans_of_tokens hlex
  obtain ⟨r₂, hcut₂, htokens₂⟩ := cut_of_tokens htokens₁
  obtain ⟨r₃, hscans₃, htokens₃⟩ := scans_of_tokens htokens₂
  obtain ⟨r₄, hcut₄, rfl⟩ := cut_of_tokens htokens₃
  obtain rfl : r₁ = '{' :: r₂ := hcut₂.text_append
  obtain rfl : r₃ = '}' :: r₄ := hcut₄.text_append
  refine ⟨lexer.flat seps, lexer.flat body ++ ['}'], r₄, ?_,
    separators_of_scans hscans₁ (List.cons_ne_nil _ _) hblank, hintBody_of_scans hscans₃ hbody, hkw⟩
  rw [hscans₁.flat_eq, hscans₃.flat_eq, List.append_assoc]
  rfl

/-- The text begins with material that is stepped over and then a word. -/
structure Starts (sql pre word rest : List Char) : Prop where
  text : sql = pre ++ (word ++ rest)
  leading : Leading pre
  ne_nil : word ≠ []
  ident : ∀ c ∈ word, isIdentChar c = true
  right : ∀ c, rest.head? = some c → isIdentChar c = false

theorem Starts.maximal {sql word : List Char} (h : Starts sql pre word rest) :
    MaximalWord pre word rest where
  ne_nil := h.ne_nil
  ident := h.ident
  left c hc := by
    obtain ⟨ls, hscans, -⟩ := scans_leading h.leading (word ++ rest)
    have hflat : pre = lexer.flat ls := List.append_cancel_right hscans.flat_eq
    obtain ⟨d, word, rfl⟩ := List.exists_cons_of_ne_nil h.ne_nil
    rw [hflat] at hc
    exact scans_getLast_not_ident hscans hc rfl (h.ident d List.mem_cons_self)
  right := h.right

/-- A keyword that is found stands behind material that is stepped over. The induction is on the length
of the text; a lexeme at its front is a separator, the word, or the at-sign of a hint. -/
theorem starts_of_firstKeyword (sql : List Char) :
    firstKeyword sql = some kw → ∃ pre word rest, Starts sql pre word rest ∧ kw ≠ [] ∧
      kw = word.takeWhile Char.isAlpha := by
  induction hn : sql.length using Nat.strongRecOn generalizing sql with
  | ind n ih =>
    intro h
    have hne : sql ≠ [] := by
      rintro rfl
      cases h
    obtain ⟨l, r, hcut⟩ := exists_cut hne
    have hall := hcut.text_append
    have hlt : r.length < n := by
      have := List.length_pos_of_ne_nil hcut.text_ne_nil
      rw [hall, List.length_append] at hn
      omega
    rw [firstKeyword, significantLexemes, lex_of_cut hcut] at h
    by_cases hl : l.isSignificant = true
    · rw [List.filter_cons_of_pos hl] at h
      cases l with
      | comment => cases hl
      | quoted => cases h
      | word w =>
        simp only [firstKeywordLoop] at h
        split at h
        · rename_i hpos
          cases h
          have hword : w ≠ [] ∧ (∀ c ∈ w, isIdentChar c = true) ∧
              ∀ c, r.head? = some c → isIdentChar c = false := by
            rcases hcut.cases_closed with ⟨s, e, hs⟩ | ⟨form, e, -⟩ | ⟨c, e, -⟩
            · cases e
              exact hs
            · cases form <;> cases e
            · cases e
          exact ⟨[], w, r, ⟨hall, .nil, hword.1, hword.2.1, hword.2.2⟩,
            List.ne_nil_of_length_pos hpos, rfl⟩
        · cases h
      | other c =>
        simp only [firstKeywordLoop] at h
        split at h
        · rename_i hhint
          obtain ⟨between, body, tail, rfl, hbetween, hbody, hkw⟩ :=
            hint_of_firstKeywordLoop hhint.2 h
          have hlt' : tail.length < n := by
            simp only [List.length_append, List.length_cons] at hlt
            omega
          obtain ⟨pre, word, rest, hstarts, hkw⟩ := ih tail.length hlt' tail rfl hkw
          refine ⟨'@' :: (between ++ '{' :: (body ++ pre)), word, rest,
            ⟨?_, .hint hbetween hbody hstarts.leading, hstarts.ne_nil, hstarts.ident,
              hstarts.right⟩, hkw⟩
          rw [hall, hhint.1, hstarts.text]
          simp [Lexeme.text]
        · cases h
    · rw [List.filter_cons_of_neg hl] at h
      have hr : r ≠ [] := by
        rintro rfl
        cases h
      obtain ⟨pre, word, rest, hstarts, hkw⟩ := ih r.length hlt r rfl h
      refine ⟨l.text ++ pre, word, rest, ⟨?_, ?_, hstarts.ne_nil, hstarts.ident, hstarts.right⟩, hkw⟩
      · rw [hall, hstarts.text, List.append_assoc]
      · exact .separator (hcut.separator hr (Bool.eq_false_iff.mpr hl)) hstarts.leading

/-- The first keyword is found behind whitespace, comments and hints, and behind nothing else. -/
theorem first_keyword_skips_leading :
    (∀ pre sql : List Char, Leading pre → firstKeyword (pre ++ sql) = firstKeyword sql) ∧
    ∀ sql kw : List Char, firstKeyword sql = some kw →
      ∃ pre word rest, sql = pre ++ (word ++ rest) ∧ Leading pre ∧ MaximalWord pre word rest ∧
        kw ≠ [] ∧ (∀ c ∈ kw, c.isAlpha = true) ∧ kw <+: word := by
  refine ⟨fun pre sql h => firstKeyword_leading h sql, fun sql kw h => ?_⟩
  obtain ⟨pre, word, rest, hstarts, hne, rfl⟩ := starts_of_firstKeyword sql h
  exact ⟨pre, word, rest, hstarts.text, hstarts.leading, hstarts.maximal, hne,
    fun c hc => List.mem_takeWhile_imp hc, List.takeWhile_prefix _⟩

def hintedText : List Char := "/* \x7d */@ -- c\n\x7ba='\x7d'\x7d# x\n".toList

theorem leading_hintedText : Leading hintedText := by
  have hscans : Scans lexer "a='\x7d'\x7d".toList
      [.word ['a'], .other '=', .quoted ['\'', '}', '\'']] ['}'] :=
    .cons rfl (.cons rfl (.cons rfl .nil))
  exact .separator (@Separator.block " \x7d ".toList (by decide))
    (.hint (.cons (@Separator.blank ' ' (by decide))
        (.cons (@Separator.dash " c".toList (by decide)) .nil))
      (hintBody_of_scans hscans (by decide))
      (.separator (@Separator.hash " x".toList (by decide)) .nil))

theorem first_keyword_skips_leading_hinted :
    firstKeyword (hintedText ++ "UPDATE2 t".toList) = firstKeyword "UPDATE2 t".toList ∧
    ∃ pre word rest, "UPDATE2 t".toList = pre ++ (word ++ rest) ∧ Leading pre ∧
      MaximalWord pre word rest ∧ "UPDATE".toList ≠ [] ∧
      (∀ c ∈ "UPDATE".toList, c.isAlpha = true) ∧ "UPDATE".toList <+: word :=
  ⟨first_keyword_skips_leading.1 _ _ leading_hintedText,
    first_keyword_skips_leading.2 _ _ (by decide)⟩

end Sql
end SpannerAdbc
