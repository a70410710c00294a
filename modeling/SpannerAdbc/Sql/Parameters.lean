import SpannerAdbc.Lib.Lookup
import SpannerAdbc.Sql.Leading

/-!
# SpannerAdbc.Sql.Parameters

`named_parameters`: the `@name` parameters a query refers to. The loop looks one lexeme ahead and
consumes it or not, so whether an at-sign opens a reference depends on how the at-signs before it were
paired. `references` says the same without the loop, by the length of the run of at-signs in front of
a lexeme; `namedParameters_eq` is their agreement, and `namedParameters_insert` that blanks and
comments behind an at-sign do not matter.
-/

namespace SpannerAdbc
namespace Sql

open Lib Scanner

/-- `str::to_ascii_lowercase`. -/
def toAsciiLowercase (s : List Char) : List Char := s.map Char.toLower

theorem eqIgnoreAsciiCase_iff {a b : List Char} :
    eqIgnoreAsciiCase a b = true ↔ toAsciiLowercase a = toAsciiLowercase b := beq_iff_eq

/-- A word that is a name: a word may also begin with a digit. -/
def startsName (word : List Char) : Bool := word.head?.any fun ch => ch == '_' || ch.isAlpha

/-- The name between backticks. A literal that is not closed has no last delimiter to strip, and a name
with an escape is not guessed at. -/
def backtickName : List Char → Option (List Char)
  | '`' :: rest =>
    if rest.getLast? = some '`' then
      let inner := rest.dropLast
      if inner = [] ∨ '\\' ∈ inner then none else some inner
    else none
  | _ => none

/-- `if seen.insert(name.to_ascii_lowercase()) { params.push(name) }`. -/
def pushName (name : List Char) (found : List (List Char) × List (List Char)) :
    List (List Char) × List (List Char) :=
  if found.1.contains (toAsciiLowercase name) then found
  else (toAsciiLowercase name :: found.1, found.2 ++ [name])

/-- The loop of `named_parameters`, on the rest of the lexemes and with what is in `seen` and in
`params`. -/
def namedParametersLoop :
    List Lexeme → List (List Char) × List (List Char) → List (List Char)
  | [], found => found.2
  | [_], found => found.2
  | lexeme :: peeked :: lexemes, found =>
    if lexeme ≠ .other '@' then namedParametersLoop (peeked :: lexemes) found
    else
      match peeked with
      | .other ch =>
        if ch = '@' ∨ ch = '{' then namedParametersLoop lexemes found
        else namedParametersLoop (peeked :: lexemes) found
      | .word name =>
        if startsName name then namedParametersLoop lexemes (pushName name found)
        else namedParametersLoop (peeked :: lexemes) found
      | .quoted quoted =>
        match backtickName quoted with
        | none => namedParametersLoop lexemes found
        | some inner => namedParametersLoop lexemes (pushName inner found)
      | .comment _ => namedParametersLoop (peeked :: lexemes) found

def namedParameters (sql : List Char) : List (List Char) :=
  namedParametersLoop (significantLexemes sql) ([], [])

/-! ## References -/

/-- The lexeme is a name: a word that does not begin with a digit, or a name between backticks without
escapes. -/
inductive Names : Lexeme → List Char → Prop where
  | word {name : List Char} : startsName name = true → Names (.word name) name
  | backtick {name : List Char} : name ≠ [] → '\\' ∉ name →
      Names (.quoted ('`' :: name ++ ['`'])) name

def parameterName : Lexeme → Option (List Char)
  | .word name => if startsName name then some name else none
  | .quoted quoted => backtickName quoted
  | _ => none

variable {before ls : List Lexeme} {name : List Char} {l : Lexeme}

theorem backtickName_eq_some {quoted : List Char} : backtickName quoted = some name ↔
    quoted = '`' :: name ++ ['`'] ∧ name ≠ [] ∧ '\\' ∉ name := by
  constructor
  · intro h
    unfold backtickName at h
    split at h
    · rename_i rest
      split at h
      · rename_i hlast
        obtain ⟨hinner, hname⟩ := Option.ite_none_left_eq_some.mp h
        obtain rfl := Option.some.inj hname
        rw [not_or] at hinner
        rw [List.cons_append, List.dropLast_append_getLast? _ hlast]
        exact ⟨rfl, hinner⟩
      · cases h
    · cases h
  · rintro ⟨rfl, hne, hescape⟩
    simp [backtickName, hne, hescape]

theorem parameterName_eq_some :
    parameterName l = some name ↔ Names l name := by
  constructor
  · intro h
    cases l with
    | word w =>
      rw [parameterName] at h
      split at h
      · obtain rfl := Option.some.inj h
        exact .word ‹_›
      · cases h
    | quoted q =>
      obtain ⟨rfl, hne, hescape⟩ := backtickName_eq_some.mp h
      exact .backtick hne hescape
    | comment | other => cases h
  · intro h
    cases h with
    | word hname => exact if_pos hname
    | backtick hne hescape => exact backtickName_eq_some.mpr ⟨rfl, hne, hescape⟩

/-- The length of the run of at-signs that the lexemes, the last one first, begin with. -/
def atRun (before : List Lexeme) : Nat := (before.takeWhile (· == .other '@')).length

@[simp] theorem atRun_at (before : List Lexeme) : atRun (.other '@' :: before) = atRun before + 1 := by
  simp [atRun]

theorem atRun_of_ne (h : l ≠ .other '@') (before : List Lexeme) :
    atRun (l :: before) = 0 := by
  simp [atRun, h]

/-- The names that directly follow an odd run of at-signs, behind the lexemes `before`. -/
def references (before : List Lexeme) : List Lexeme → List (List Char)
  | [] => []
  | l :: ls =>
    (if atRun before % 2 = 1 then (parameterName l).toList else []) ++ references (l :: before) ls

theorem mem_references : name ∈ references before ls ↔
    ∃ front l back, ls = front ++ l :: back ∧ atRun (front.reverse ++ before) % 2 = 1 ∧
      Names l name := by
  induction ls generalizing before with
  | nil => simp [references]
  | cons l ls ih =>
    rw [references, List.mem_append, ih]
    constructor
    · rintro (h | ⟨front, l', back, rfl, hodd, hname⟩)
      · split at h
        · rename_i hodd
          exact ⟨[], l, ls, rfl, hodd, parameterName_eq_some.mp (Option.mem_toList.mp h)⟩
        · cases h
      · exact ⟨l :: front, l', back, rfl, by simpa using hodd, hname⟩
    · rintro ⟨front, l', back, e, hodd, hname⟩
      cases front with
      | nil =>
        obtain ⟨rfl, rfl⟩ := List.cons.inj e
        refine .inl ?_
        rw [if_pos (by simpa using hodd)]
        exact Option.mem_toList.mpr (parameterName_eq_some.mpr hname)
      | cons f front =>
        obtain ⟨rfl, rfl⟩ := List.cons.inj e
        exact .inr ⟨front, l', back, rfl, by simpa using hodd, hname⟩

/-! ## The loop -/

/-- Nothing is open: the at-signs before are paired, or what follows them is no name. -/
def Paired (before : List Lexeme) : List Lexeme → Prop
  | [] => True
  | l :: _ => atRun before % 2 = 0 ∨ l ≠ .other '@' ∧ parameterName l = none

theorem Paired.of_even (h : atRun before % 2 = 0) (ls : List Lexeme) :
    Paired before ls := by
  cases ls with
  | nil => trivial
  | cons l ls => exact .inl h

theorem references_cons_of_paired (h : Paired before (l :: ls)) :
    references before (l :: ls) = references (l :: before) ls := by
  rw [references]
  rcases h with h | ⟨-, h⟩
  · simp [h]
  · simp [h]

section At

variable {before ls : List Lexeme} {l : Lexeme}

theorem Paired.even (h : Paired before (.other '@' :: ls)) : atRun before % 2 = 0 :=
  h.resolve_right fun hne => hne.1 rfl

/-- The lexeme behind an at-sign that is paired with none before. -/
theorem references_at (h : Paired before (.other '@' :: l :: ls)) :
    references before (.other '@' :: l :: ls) =
      (parameterName l).toList ++ references (l :: .other '@' :: before) ls := by
  have hodd : atRun (.other '@' :: before) % 2 = 1 := by
    have heven := h.even
    rw [atRun_at]
    omega
  rw [references_cons_of_paired h, references, if_pos hodd]

/-- Once the lexeme behind such an at-sign is consumed, nothing is open. -/
theorem Paired.consumed (h : Paired before (.other '@' :: l :: ls)) :
    Paired (l :: .other '@' :: before) ls := by
  refine .of_even ?_ ls
  by_cases hl : l = .other '@'
  · have heven := h.even
    rw [hl, atRun_at, atRun_at]
    omega
  · rw [atRun_of_ne hl]

end At

theorem pushName_eq (name : List Char) (names : List (List Char))
    (found : List (List Char) × List (List Char)) :
    found.2 ++ keepFirst toAsciiLowercase found.1 (name :: names) =
      (pushName name found).2 ++ keepFirst toAsciiLowercase (pushName name found).1 names := by
  rw [keepFirst, pushName]
  by_cases hseen : toAsciiLowercase name ∈ found.1
  · rw [if_pos hseen, if_pos (List.contains_iff_mem.mpr hseen)]
  · rw [if_neg hseen, if_neg (mt List.contains_iff_mem.mp hseen)]
    simp

/-- The loop takes the at-signs two by two, and the parity of the run in front tells what it does with
the next lexeme. -/
theorem namedParametersLoop_eq (h : Paired before ls)
    (found : List (List Char) × List (List Char)) : namedParametersLoop ls found =
      found.2 ++ keepFirst toAsciiLowercase found.1 (references before ls) := by
  induction ls, found using namedParametersLoop.induct generalizing before with
  | case1 found => simp [namedParametersLoop, references, keepFirst]
  | case2 l found =>
    rw [references_cons_of_paired h]
    simp [namedParametersLoop, references, keepFirst]
  | case3 l peeked ls found hl ih =>
    have hloop : namedParametersLoop (l :: peeked :: ls) found =
        namedParametersLoop (peeked :: ls) found := by
      rw [namedParametersLoop.eq_def]
      exact if_pos hl
    rw [references_cons_of_paired h, hloop]
    exact ih (.of_even (by rw [atRun_of_ne hl]) _)
  | case4 l ls found hl ch hch ih =>
    obtain rfl := not_ne_iff.mp hl
    rw [references_at h, namedParametersLoop, if_neg hl]
    simp only [hch, if_true]
    exact ih h.consumed
  | case5 l ls found hl ch hch ih =>
    obtain rfl := not_ne_iff.mp hl
    have hne : Lexeme.other ch ≠ .other '@' := fun e => hch (.inl (Lexeme.other.inj e))
    rw [references_cons_of_paired h, namedParametersLoop, if_neg hl]
    simp only [hch, if_false]
    exact ih (.inr ⟨hne, rfl⟩)
  | case6 l ls found hl name hname ih =>
    obtain rfl := not_ne_iff.mp hl
    rw [references_at h, namedParametersLoop, if_neg hl]
    simp only [hname, if_true, parameterName, Option.toList_some, List.singleton_append]
    rw [pushName_eq]
    exact ih h.consumed
  | case7 l ls found hl name hname ih =>
    obtain rfl := not_ne_iff.mp hl
    rw [references_cons_of_paired h, namedParametersLoop, if_neg hl]
    simp only [hname]
    exact ih (.inr ⟨Lexeme.noConfusion, if_neg hname⟩)
  | case8 l ls found hl quoted hname ih =>
    obtain rfl := not_ne_iff.mp hl
    rw [references_at h, namedParametersLoop, if_neg hl]
    simp only [hname, parameterName]
    exact ih h.consumed
  | case9 l ls found hl quoted name hname ih =>
    obtain rfl := not_ne_iff.mp hl
    rw [references_at h, namedParametersLoop, if_neg hl]
    simp only [hname, parameterName, Option.toList_some, List.singleton_append]
    rw [pushName_eq]
    exact ih h.consumed
  | case10 l ls found hl text ih =>
    obtain rfl := not_ne_iff.mp hl
    rw [references_cons_of_paired h, namedParametersLoop, if_neg hl]
    exact ih (.inr ⟨Lexeme.noConfusion, rfl⟩)

theorem namedParameters_eq (sql : List Char) : namedParameters sql =
    keepFirst toAsciiLowercase [] (references [] (significantLexemes sql)) :=
  namedParametersLoop_eq (.of_even rfl _) ([], [])

theorem nodup_namedParameters (sql : List Char) :
    ((namedParameters sql).map toAsciiLowercase).Nodup := by
  rw [namedParameters_eq]
  exact nodup_keepFirst _ _ _

/-! ## Blanks and comments behind an at-sign -/

theorem namedParameters_insert {before after between : List Char}
    (h : Scans lexer (before ++ '@' :: after) ls ('@' :: after)) (hbetween : Separators between) :
    namedParameters (before ++ '@' :: (between ++ after)) =
      namedParameters (before ++ '@' :: after) := by
  obtain rfl : lexer.flat ls = before := (List.append_cancel_right h.flat_eq).symm
  obtain ⟨seps, hseps, hblank⟩ := scans_separators hbetween after
  have hnone : seps.filter Lexeme.isSignificant = [] :=
    List.filter_eq_nil_iff.mpr fun l hl => by simp [hblank l hl]
  -- Both texts are lexed alike up to the at-sign and from the end of what is inserted.
  have hplain := h.trans (scans_cons_cut (cut_at after) .nil)
  have hswap : Scans lexer (lexer.flat ls ++ '@' :: (between ++ after)) ls
      ('@' :: (between ++ after)) := scans_swap h (List.cons_ne_nil _ _) (.inl rfl)
  have hinserted := hswap.trans (scans_cons_cut (cut_at _) hseps)
  rw [namedParameters, namedParameters, significantLexemes_of_scans hplain,
    significantLexemes_of_scans hinserted, List.filter_append, List.filter_append,
    List.filter_cons_of_pos rfl, List.filter_cons_of_pos rfl, hnone]
  rfl

end Sql
end SpannerAdbc
