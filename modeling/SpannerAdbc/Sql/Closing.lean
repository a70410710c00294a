import SpannerAdbc.Sql.Lexer

/-!
# SpannerAdbc.Sql.Closing

Where literals and comments end. `Form` says what opens at the front of a text and `Form.Closed` which
texts are closed under the GoogleSQL rules: the body of a literal is a sequence of units, a backslash
together with the character it binds or any other character, and a triple-quoted literal takes three
quotes to close. A quoted lexeme or comment is the shortest closed text at its place, and all the
rest of the input where there is none (`Cut.cases_closed`).
-/

namespace SpannerAdbc
namespace Sql

open Lib Scanner

/-! ## Closed texts -/

/-- The bodies of literals. -/
inductive Units : List Char → Prop where
  | nil : Units []
  | escape {s : List Char} (c : Char) : Units s → Units ('\\' :: c :: s)
  | plain {s : List Char} {c : Char} : c ≠ '\\' → Units s → Units (c :: s)

/-- What opens. -/
inductive Form where
  | literal (quote : Char)
  | triple (quote : Char)
  | line (lead : List Char)
  | block
  deriving DecidableEq, Repr

/-- The form of the literal or comment at the front of the input. Backticks are never tripled. -/
def Form.opening : List Char → Option Form
  | [] => none
  | c :: rest =>
    if isQuote c then
      if c ≠ '`' ∧ rest.head? = some c ∧ rest.tail.head? = some c then some (.triple c)
      else some (.literal c)
    else if c = '-' ∧ rest.head? = some '-' then some (.line ['-', '-'])
    else if c = '#' then some (.line ['#'])
    else if c = '/' ∧ rest.head? = some '*' then some .block
    else none

def Form.Closed : Form → List Char → Prop
  | .literal q, s => ∃ body, Units body ∧ s = [q] ++ body ++ [q]
  | .triple q, s => ∃ body, Units body ∧ s = [q, q, q] ++ body ++ [q, q, q]
  | .line lead, s => ∃ body, s = lead ++ body ++ ['\n']
  | .block, s => ∃ body, s = ['/', '*'] ++ body ++ ['*', '/']

/-- `text` is the shortest closed text at the front of the input, or all of the input. -/
structure FirstClosed (form : Form) (input text : List Char) : Prop where
  front : text <+: input
  least : ∀ s, s <+: input → form.Closed s → text <+: s
  ends : form.Closed text ∨ text = input

variable {chars body r s x y : List Char} {quote c : Char} {state : Nat × Bool} {form : Form}

/-- No shorter part of it is closed. -/
theorem FirstClosed.eq_of_closed {input text : List Char} (h : FirstClosed form input text)
    (hs : s <+: text) (hc : form.Closed s) : s = text :=
  hs.eq_of_length_le (h.least s (hs.trans h.front) hc).length_le

/-- A munch behind the lead is the first closed text, if the automaton closes exactly on closed
texts. -/
theorem firstClosed_of_munch {σ : Type} {step : σ → Char → Option σ} {start : σ}
    (lead : List Char) {as : List Char} (hm : munch step start as = (x, r))
    (hsound : ∀ y a s, y.foldlM step start = some s → step s a = none →
      form.Closed (lead ++ (y ++ [a])))
    (hcomplete : ∀ s, form.Closed s → ∃ p, s = lead ++ p ∧ p.foldlM step start = none) :
    FirstClosed form (lead ++ as) (lead ++ x) where
  front := by
    have h : x ++ r = as := by rw [← munch_append start as, hm]
    exact ⟨r, by rw [← h, List.append_assoc]⟩
  least := by
    intro s hs hc
    obtain ⟨p, rfl, hp⟩ := hcomplete s hc
    have h := munch_least ((List.prefix_append_right_inj lead).mp hs) hp
    rw [hm] at h
    exact (List.prefix_append_right_inj lead).mpr h
  ends := by
    rcases munch_stops hm with ⟨y, a, s, rfl, hy, ha⟩ | rfl
    · exact .inl (hsound y a s hy ha)
    · have h : x ++ [] = as := by rw [← munch_append start as, hm]
      exact .inr (by rw [← h, List.append_nil])

/-! ## Literals -/

theorem Units.append {t : List Char} (hs : Units s) (ht : Units t) : Units (s ++ t) := by
  induction hs with
  | nil => exact ht
  | escape c _ ih => exact .escape c ih
  | plain hc _ ih => exact .plain hc ih

theorem Units.replicate {q : Char} (hq : q ≠ '\\') (n : Nat) : Units (List.replicate n q) := by
  induction n with
  | zero => exact .nil
  | succ n ih => exact .plain hq ih

/-- What has been read: units, the closing run and a backslash that has nothing to bind yet. -/
structure Reading (quote : Char) (triple : Bool) (y : List Char) (state : Nat × Bool) : Prop where
  units : ∃ body, Units body ∧
    y = body ++ List.replicate state.1 quote ++ if state.2 then ['\\'] else []
  escape : state.2 = true → state.1 = 0
  single : triple = false → state.1 = 0

theorem Reading.step {triple : Bool} {state' : Nat × Bool} {ch : Char} (hq : quote ≠ '\\')
    (h : Reading quote triple y state) (hs : quotedStep quote triple state ch = some state') :
    Reading quote triple (y ++ [ch]) state' := by
  obtain ⟨run, esc⟩ := state
  obtain ⟨⟨body, hbody, rfl⟩, hescape, hsingle⟩ := h
  cases esc with
  | true =>
    cases hs
    obtain rfl : run = 0 := hescape rfl
    exact ⟨⟨body ++ ['\\', ch], hbody.append (.escape ch .nil), by simp⟩, by simp, fun _ => rfl⟩
  | false =>
    simp only [quotedStep] at hs
    split at hs
    · rename_i hch
      cases hs
      subst hch
      exact ⟨⟨body ++ List.replicate run quote, hbody.append (.replicate hq run), by simp⟩,
        fun _ => rfl, fun _ => rfl⟩
    · rename_i hch
      split at hs
      · rename_i hquote
        subst hquote
        split at hs
        · cases hs
        · rename_i htriple
          split at hs
          · cases hs
          · cases hs
            refine ⟨⟨body, hbody, by simp [List.replicate_succ']⟩, by simp, fun hfalse => ?_⟩
            rw [hfalse] at htriple
            exact absurd rfl htriple
      · cases hs
        exact ⟨⟨body ++ List.replicate run quote ++ [ch],
          (hbody.append (.replicate hq run)).append (.plain hch .nil), by simp⟩, by simp, fun _ => rfl⟩

theorem reading_of_foldlM {triple : Bool} (hq : quote ≠ '\\')
    (h : y.foldlM (quotedStep quote triple) (0, false) = some state) :
    Reading quote triple y state := by
  induction y using List.reverseRecOn generalizing state with
  | nil =>
    cases h
    exact ⟨⟨[], .nil, rfl⟩, fun _ => rfl, fun _ => rfl⟩
  | append_singleton y ch ih =>
    rw [List.foldlM_append] at h
    obtain ⟨state₁, h₁, h₂⟩ := Option.bind_eq_some_iff.mp h
    simp only [List.foldlM_cons, List.foldlM_nil, bind_pure] at h₂
    exact (ih h₁).step hq h₂

/-- After units the automaton has closed, or no backslash is left over. -/
theorem foldlM_units (quote : Char) (triple : Bool) (hb : Units body) {run : Nat} (hrun : run ≤ 2) :
    body.foldlM (quotedStep quote triple) (run, false) = none ∨
      ∃ run' ≤ 2, body.foldlM (quotedStep quote triple) (run, false) = some (run', false) := by
  induction hb generalizing run with
  | nil => exact .inr ⟨run, hrun, rfl⟩
  | escape c _ ih =>
    have h := ih (Nat.zero_le 2)
    simpa [List.foldlM_cons, quotedStep] using h
  | @plain s c hc _ ih =>
    rw [List.foldlM_cons, quotedStep, if_neg hc]
    split
    · split
      · exact .inl rfl
      · split
        · exact .inl rfl
        · exact ih (by omega)
    · exact ih (Nat.zero_le 2)

theorem foldlM_literal (hq : quote ≠ '\\') (hb : Units body) :
    (body ++ [quote]).foldlM (quotedStep quote false) (0, false) = none := by
  rw [List.foldlM_append]
  rcases foldlM_units quote false hb (Nat.zero_le 2) with h | ⟨run, -, h⟩
  · rw [h]
    rfl
  · simp [h, quotedStep, hq]

theorem foldlM_triple (hq : quote ≠ '\\') (hb : Units body) :
    (body ++ [quote, quote, quote]).foldlM (quotedStep quote true) (0, false) = none := by
  rw [List.foldlM_append]
  rcases foldlM_units quote true hb (Nat.zero_le 2) with h | ⟨run, hle, h⟩
  · rw [h]
    rfl
  · rw [h]
    obtain rfl | rfl | rfl : run = 0 ∨ run = 1 ∨ run = 2 := by omega
    all_goals simp [quotedStep, hq]

theorem firstClosed_literal (hq : quote ≠ '\\')
    (h : munch (quotedStep quote false) (0, false) chars = (x, r)) :
    FirstClosed (.literal quote) (quote :: chars) (quote :: x) := by
  refine firstClosed_of_munch [quote] h ?_ ?_
  · intro y a state hy ha
    obtain ⟨⟨body, hbody, rfl⟩, -, hsingle⟩ := reading_of_foldlM hq hy
    obtain ⟨hesc, rfl, -⟩ := quotedStep_eq_none ha
    rw [hsingle rfl, hesc]
    exact ⟨body, hbody, by simp⟩
  · rintro s ⟨body, hbody, rfl⟩
    exact ⟨body ++ [quote], by simp, foldlM_literal hq hbody⟩

theorem firstClosed_triple (hq : quote ≠ '\\')
    (h : munch (quotedStep quote true) (0, false) chars = (x, r)) :
    FirstClosed (.triple quote) (quote :: quote :: quote :: chars) (quote :: quote :: quote :: x) := by
  refine firstClosed_of_munch [quote, quote, quote] h ?_ ?_
  · intro y a state hy ha
    obtain ⟨⟨body, hbody, rfl⟩, -, -⟩ := reading_of_foldlM hq hy
    obtain ⟨hesc, rfl, hrun⟩ := quotedStep_eq_none ha
    rw [hrun rfl, hesc]
    exact ⟨body, hbody, by simp [List.replicate]⟩
  · rintro s ⟨body, hbody, rfl⟩
    exact ⟨body ++ [quote, quote, quote], by simp, foldlM_triple hq hbody⟩

/-! ## Comments -/

theorem firstClosed_line (lead : List Char) (h : munch lineStep () chars = (x, r)) :
    FirstClosed (.line lead) (lead ++ chars) (lead ++ x) := by
  refine firstClosed_of_munch lead h ?_ ?_
  · intro y a _ _ ha
    have hnewline : a = '\n' := by
      by_contra hne
      rw [lineStep, if_neg hne] at ha
      cases ha
    exact ⟨y, by rw [hnewline, List.append_assoc]⟩
  · rintro s ⟨body, rfl⟩
    refine ⟨body ++ ['\n'], List.append_assoc .., ?_⟩
    rw [List.foldlM_append]
    cases body.foldlM lineStep () <;> rfl

/-- The automaton of a block comment remembers the character before. -/
theorem foldlM_blockStep {start prev : Char} (h : y.foldlM blockStep start = some prev) :
    (start :: y).getLast? = some prev := by
  induction y generalizing start with
  | nil => simpa using h
  | cons ch y ih =>
    rw [List.foldlM_cons, blockStep] at h
    split at h
    · cases h
    · exact ih h

theorem firstClosed_block (h : munch blockStep '\x00' chars = (x, r)) :
    FirstClosed .block ('/' :: '*' :: chars) ('/' :: '*' :: x) := by
  refine firstClosed_of_munch ['/', '*'] h ?_ ?_
  · intro y a prev hy ha
    have hlast := foldlM_blockStep hy
    rw [blockStep] at ha
    split at ha
    · rename_i hclose
      obtain ⟨rfl, rfl⟩ := hclose
      -- The NUL the loop starts with is no star, so the star was read.
      rcases y.eq_nil_or_concat with rfl | ⟨body, c, rfl⟩
      · cases hlast
      · obtain rfl : c = '*' := by simpa [List.getLast?_cons] using hlast
        exact ⟨body, by simp⟩
    · cases ha
  · rintro s ⟨body, rfl⟩
    refine ⟨body ++ ['*', '/'], by simp, ?_⟩
    rw [List.foldlM_append]
    cases body.foldlM blockStep '\x00' with
    | none => rfl
    | some prev => simp [blockStep]

/-! ## Lexemes -/

/-- The lexeme a literal or comment becomes. -/
def Form.lexeme : Form → List Char → Lexeme
  | .literal _, s | .triple _, s => .quoted s
  | .line _, s | .block, s => .comment s

/-- `s` is a run of identifier characters that neither `before` nor `after` can extend. -/
structure MaximalWord (before s after : List Char) : Prop where
  ne_nil : s ≠ []
  ident : ∀ c ∈ s, isIdentChar c = true
  left : ∀ c, before.getLast? = some c → isIdentChar c = false
  right : ∀ c, after.head? = some c → isIdentChar c = false

/-- What a lexeme is, by the text around it. -/
inductive Placed (before : List Char) : Lexeme → List Char → Prop where
  | word {s after : List Char} : MaximalWord before s after → Placed before (.word s) after
  | enclosed {form : Form} {s after : List Char} : Form.opening (s ++ after) = some form →
      FirstClosed form (s ++ after) s → (∀ p, p <+: s → form.Closed p → p = s) →
      Placed before (form.lexeme s) after
  | other {c : Char} {after : List Char} : isIdentChar c = false →
      Form.opening (c :: after) = none → Placed before (.other c) after

theorem firstClosed_quoted (hq : isQuote quote = true) (h : consumeQuoted quote chars = (x, r)) :
    ∃ form : Form, form.lexeme = .quoted ∧
      Form.opening (quote :: chars) = some form ∧
      FirstClosed form (quote :: chars) (quote :: x) := by
  have hne : quote ≠ '\\' := by
    rintro rfl
    exact absurd hq (by decide)
  rcases consumeQuoted_cases quote chars with ⟨htick, rest, rfl⟩ | ⟨htick, rest, rfl, hhead⟩ | hplain
  · rw [consumeQuoted_triple htick] at h
    cases h
    exact ⟨.triple quote, rfl, by simp [Form.opening, hq, htick], firstClosed_triple hne rfl⟩
  · refine ⟨.literal quote, rfl, by simp [Form.opening, hq, hhead],
      firstClosed_literal (r := rest) hne ?_⟩
    rw [consumeQuoted_empty htick hhead] at h
    cases h
    simp [munch, quotedStep, hne]
  · refine ⟨.literal quote, rfl, ?_,
      firstClosed_literal (r := r) hne (consumeQuoted_plain hplain ▸ h)⟩
    rw [Form.opening, if_pos hq, if_neg fun hc => hplain ⟨hc.1, hc.2.1⟩]

/-- What is cut off is a run of identifier characters, a literal or comment up to where it is first
closed, or a single character. -/
theorem Cut.cases_closed {l : Lexeme} (h : Cut chars l r) :
    (∃ s, l = .word s ∧ s ≠ [] ∧ (∀ c ∈ s, isIdentChar c = true) ∧
      ∀ c, r.head? = some c → isIdentChar c = false) ∨
    (∃ form, l = Form.lexeme form l.text ∧ Form.opening chars = some form ∧
      FirstClosed form chars l.text) ∨
    ∃ c, l = .other c ∧ isIdentChar c = false ∧ Form.opening chars = none := by
  cases h with
  | quoted hq h =>
    obtain ⟨form, hform, hopen, hclosed⟩ := firstClosed_quoted hq h
    exact .inr (.inl ⟨form, by rw [hform]; rfl, hopen, hclosed⟩)
  | @dash chars s r h =>
    rw [lineComment_eq_munch] at h
    cases h
    exact .inr (.inl ⟨.line ['-', '-'], rfl, by simp [Form.opening, isQuote],
      firstClosed_line ['-', '-'] rfl⟩)
  | hash h =>
    rw [lineComment_eq_munch] at h
    exact .inr (.inl ⟨.line ['#'], rfl, by simp [Form.opening, isQuote], firstClosed_line ['#'] h⟩)
  | block h =>
    rw [blockComment_eq_munch] at h
    exact .inr (.inl ⟨.block, rfl, by simp [Form.opening, isQuote], firstClosed_block h⟩)
  | @word c chars hc =>
    refine .inl ⟨_, rfl, List.cons_ne_nil _ _, ?_, fun d hd => ?_⟩
    · intro d hd
      rcases List.mem_cons.mp hd with rfl | hd
      · exact hc
      · exact List.mem_takeWhile_imp hd
    · have h := List.head?_dropWhile_not isIdentChar chars
      rw [hd] at h
      simpa using h
  | @other c chars hquote hdash hhash hblock hident =>
    refine .inr (.inr ⟨c, rfl, hident, ?_⟩)
    rw [Form.opening, if_neg (by simp [hquote]), if_neg hdash, if_neg hhash, if_neg hblock]

theorem Form.Closed.getLast_not_ident (h : form.Closed s) (ho : Form.opening chars = some form)
    (hc : s.getLast? = some c) :
    isIdentChar c = false := by
  have hquote : ∀ {q}, form = .literal q ∨ form = .triple q → isQuote q = true := by
    intro q hq
    cases chars with
    | nil => cases ho
    | cons d chars =>
      rw [Form.opening] at ho
      grind
  cases form with
  | literal q =>
    obtain ⟨body, -, rfl⟩ := h
    rw [List.getLast?_append] at hc
    obtain rfl : q = c := Option.some.inj hc
    rcases isQuote_iff.mp (hquote (.inl rfl)) with rfl | rfl | rfl <;> decide
  | triple q =>
    obtain ⟨body, -, rfl⟩ := h
    rw [List.getLast?_append] at hc
    obtain rfl : q = c := Option.some.inj hc
    rcases isQuote_iff.mp (hquote (.inr rfl)) with rfl | rfl | rfl <;> decide
  | line lead =>
    obtain ⟨body, rfl⟩ := h
    rw [List.getLast?_append] at hc
    cases hc
    decide
  | block =>
    obtain ⟨body, rfl⟩ := h
    rw [List.getLast?_append] at hc
    cases hc
    decide

/-- Where a lexeme meets an identifier character it does not end in one. -/
theorem Cut.getLast_not_ident {l : Lexeme} (h : Cut chars l r) {d : Char}
    (hc : l.text.getLast? = some c) (hd : r.head? = some d) (hident : isIdentChar d = true) :
    isIdentChar c = false := by
  have happend := h.text_append
  rcases h.cases_closed with ⟨s, rfl, -, -, hright⟩ | ⟨form, hl, hopen, hclosed⟩ | ⟨e, rfl, he, -⟩
  · rw [hright d hd] at hident
    cases hident
  · rcases hclosed.ends with hclosed | hall
    · exact hclosed.getLast_not_ident hopen hc
    · rw [hall] at happend
      rw [List.self_eq_append_right.mp happend] at hd
      cases hd
  · cases hc
    exact he

theorem scans_getLast_not_ident {sql : List Char} {ls : List Lexeme} (h : Scans lexer sql ls r)
    {d : Char} (hc : (lexer.flat ls).getLast? = some c) (hd : r.head? = some d)
    (hident : isIdentChar d = true) : isIdentChar c = false := by
  rcases ls.eq_nil_or_concat with rfl | ⟨before, l, rfl⟩
  · cases hc
  · rw [List.concat_eq_append] at h hc
    obtain ⟨mid, -, h⟩ := h.split
    cases h with
    | cons hn h =>
      cases h
      have hcut := cut_of_next hn
      obtain ⟨t, e, htext⟩ : ∃ t e, l.text = t ++ [e] := by
        rcases l.text.eq_nil_or_concat with hnil | ⟨t, e, htext⟩
        · exact absurd hnil hcut.text_ne_nil
        · exact ⟨t, e, by rw [htext, List.concat_eq_append]⟩
      have hflat : lexer.flat (before ++ [l]) = (lexer.flat before ++ t) ++ [e] := by
        rw [flat_append, flat_cons, flat_nil, List.append_nil, List.append_assoc, ← htext]
        rfl
      rw [hflat, List.getLast?_concat] at hc
      cases hc
      exact hcut.getLast_not_ident (by rw [htext, List.getLast?_concat]) hd hident

/-- The lexemes are non-empty, give back the text and are each what stands at their place: a maximal
word, a literal or comment up to where it is first closed, or a single character. -/
theorem lex_partitions (sql : List Char) :
    Scans lexer sql (lex sql) [] ∧ (∀ l ∈ lex sql, l.text ≠ []) ∧
    (lex sql).flatMap Lexeme.text = sql ∧
    ∀ before l after, lex sql = before ++ l :: after →
      Placed (before.flatMap Lexeme.text) l (after.flatMap Lexeme.text) := by
  have hplace : ∀ before l after, lex sql = before ++ l :: after → ∃ rest,
      Scans lexer sql before (l.text ++ rest) ∧ Cut (l.text ++ rest) l rest ∧
      after.flatMap Lexeme.text = rest := by
    intro before l after h
    obtain ⟨mid, hbefore, hmid⟩ := scans_of_tokens h
    have hscan := scans_tokens (S := lexer) mid
    rw [hmid] at hscan
    cases hscan with
    | @cons _ rest _ _ _ hn hrest =>
      have hcut := cut_of_next hn
      have hflat : rest = lexer.flat after ++ [] := hrest.flat_eq
      rw [List.append_nil] at hflat
      exact ⟨rest, hcut.text_append ▸ hbefore, hcut.text_append ▸ hcut, hflat.symm⟩
  refine ⟨scans_tokens sql, ?_, flat_tokens (S := lexer) sql, ?_⟩
  · intro l hl
    obtain ⟨before, after, h⟩ := List.append_of_mem hl
    obtain ⟨rest, -, hcut, -⟩ := hplace before l after h
    exact hcut.text_ne_nil
  · intro before l after h
    obtain ⟨rest, hbefore, hcut, hafter⟩ := hplace before l after h
    rw [hafter]
    rcases hcut.cases_closed with ⟨s, rfl, hne, hall, hright⟩ | ⟨form, hl, hopen, hclosed⟩ |
      ⟨c, rfl, hc, hopen⟩
    · refine .word ⟨hne, hall, fun c hc => ?_, hright⟩
      obtain ⟨d, s, rfl⟩ := List.exists_cons_of_ne_nil hne
      exact scans_getLast_not_ident hbefore hc rfl (hall d List.mem_cons_self)
    · rw [hl]
      exact .enclosed hopen hclosed fun p hp => hclosed.eq_of_closed hp
    · exact .other hc hopen

end Sql
end SpannerAdbc
