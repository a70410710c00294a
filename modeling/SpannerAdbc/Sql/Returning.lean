import SpannerAdbc.Sql.Keyword

/-!
# SpannerAdbc.Sql.Returning

`THEN RETURN` outside every `CASE … END`. `is_dml_returning` counts `CASE` and `END` by the word
alone, but a word behind `@` or behind the dot of a path is a name. `Returning counts` is the clause
with the words counted that `counts` selects: all of them for the code (`isDmlReturning_iff`), those
that are no names for GoogleSQL. A name can hide a clause or make one of a branch
(`case_names_miscounted`). A position is inside a `CASE` if some stretch of the text before it has
more `CASE`s than `END`s (`inside_iff`), so what the names add to each stretch says when the answer
is still right (`NamesHarmless`).

What stands before a lexeme is listed nearest first.
-/

namespace SpannerAdbc
namespace Sql

open Lib Scanner

/-! ## The clause -/

/-- A word behind these lexemes is the name of a parameter or a component of a path. Blanks and
comments may stand between. The dot of a number is none of a path. -/
def isName : List Lexeme → Bool
  | .comment _ :: before => isName before
  | .other c :: before =>
    if isWhitespace c then isName before
    else if c = '.' then
      match before with
      | .word w :: before => !w.all Char.isDigit || isName before
      | _ => true
    else c == '@'
  | _ => false

/-- How many `CASE`s are open behind these lexemes, by the words that `counts` selects. An `END`
without a `CASE` closes nothing. -/
def openCases (counts : List Lexeme → Bool) : List Lexeme → Nat
  | [] => 0
  | .word w :: before =>
    if counts before then
      if eqIgnoreAsciiCase w "CASE".toList then openCases counts before + 1
      else if eqIgnoreAsciiCase w "END".toList then openCases counts before - 1
      else openCases counts before
    else openCases counts before
  | _ :: before => openCases counts before

/-- Comments and punctuation. -/
def Lexeme.isGap : Lexeme → Bool
  | .comment _ | .other _ => true
  | .word _ | .quoted _ => false

/-- `THEN`, a gap and `RETURN` stand behind these lexemes. -/
def ClauseAt (sql : List Char) (before : List Lexeme) : Prop :=
  ∃ w gap w' after, lex sql = before.reverse ++ .word w :: (gap ++ .word w' :: after) ∧
    eqIgnoreAsciiCase w "THEN".toList = true ∧ (∀ l ∈ gap, l.isGap = true) ∧
    eqIgnoreAsciiCase w' "RETURN".toList = true

/-- A clause with no `CASE` open. -/
def Returning (counts : List Lexeme → Bool) (sql : List Char) : Prop :=
  ∃ before, ClauseAt sql before ∧ openCases counts before = 0

/-- The `CASE`s and `END`s that are keywords. -/
def isKeyword (before : List Lexeme) : Bool := !isName before

def anyWord (_ : List Lexeme) : Bool := true

/-! ## The scan for it -/

/-- The nearest word is a `THEN`, with a gap behind it. -/
def pendingThen : List Lexeme → Bool
  | [] => false
  | .word w :: _ => eqIgnoreAsciiCase w "THEN".toList
  | .quoted _ :: _ => false
  | .comment _ :: before | .other _ :: before => pendingThen before

def isClause (counts : List Lexeme → Bool) (before : List Lexeme) : Lexeme → Bool
  | .word w =>
    pendingThen before && (openCases counts before == 0) && eqIgnoreAsciiCase w "RETURN".toList
  | _ => false

def anyClause (counts : List Lexeme → Bool) : List Lexeme → List Lexeme → Bool
  | _, [] => false
  | before, l :: ls => isClause counts before l || anyClause counts (l :: before) ls

variable {counts : List Lexeme → Bool} {before : List Lexeme} {sql : List Char}

theorem openCases_gap {gap : List Lexeme} (h : ∀ l ∈ gap, l.isGap = true) :
    openCases counts (gap ++ before) = openCases counts before := by
  induction gap with
  | nil => rfl
  | cons l gap ih =>
    obtain ⟨hl, hgap⟩ := List.forall_mem_cons.mp h
    cases l with
    | word | quoted => cases hl
    | comment | other => exact ih hgap

theorem openCases_then {w : List Char} (h : eqIgnoreAsciiCase w "THEN".toList = true) :
    openCases counts (.word w :: before) = openCases counts before := by
  have hne : ∀ {s : List Char}, s.map Char.toLower ≠ ['t', 'h', 'e', 'n'] →
      eqIgnoreAsciiCase w s = false := by
    intro s hs
    have hw : w.map Char.toLower = ['t', 'h', 'e', 'n'] := beq_iff_eq.mp h
    rw [eqIgnoreAsciiCase, hw]
    exact beq_eq_false_iff_ne.mpr hs.symm
  have hcase := hne (s := "CASE".toList) (by decide)
  have hend := hne (s := "END".toList) (by decide)
  rw [openCases, hcase, hend]
  exact ite_self _

theorem pendingThen_iff : pendingThen before = true ↔ ∃ gap w past,
    before = gap ++ .word w :: past ∧ (∀ l ∈ gap, l.isGap = true) ∧
      eqIgnoreAsciiCase w "THEN".toList = true := by
  induction before with
  | nil => simp [pendingThen]
  | cons l before ih =>
    constructor
    · intro h
      cases l with
      | word w => exact ⟨[], w, before, rfl, by simp, h⟩
      | quoted s => cases h
      | comment s =>
        obtain ⟨gap, w, past, rfl, hgap, hw⟩ := ih.mp h
        exact ⟨.comment s :: gap, w, past, rfl, List.forall_mem_cons.mpr ⟨rfl, hgap⟩, hw⟩
      | other c =>
        obtain ⟨gap, w, past, rfl, hgap, hw⟩ := ih.mp h
        exact ⟨.other c :: gap, w, past, rfl, List.forall_mem_cons.mpr ⟨rfl, hgap⟩, hw⟩
    · rintro ⟨gap, w, past, h, hgap, hw⟩
      cases gap with
      | nil =>
        cases h
        exact hw
      | cons g gap =>
        obtain ⟨rfl, rfl⟩ := List.cons.inj h
        obtain ⟨hl, hgap⟩ := List.forall_mem_cons.mp hgap
        have hpending := ih.mpr ⟨gap, w, past, rfl, hgap, hw⟩
        cases l with
        | word | quoted => cases hl
        | comment | other => exact hpending

theorem anyClause_iff {ls : List Lexeme} : anyClause counts before ls = true ↔
    ∃ mid l after, ls = mid ++ l :: after ∧ isClause counts (mid.reverse ++ before) l = true := by
  induction ls generalizing before with
  | nil => simp [anyClause]
  | cons l ls ih =>
    rw [anyClause, Bool.or_eq_true, ih]
    constructor
    · rintro (h | ⟨mid, l', after, rfl, h⟩)
      · exact ⟨[], l, ls, rfl, h⟩
      · exact ⟨l :: mid, l', after, rfl, by simpa using h⟩
    · rintro ⟨mid, l', after, h, hc⟩
      cases mid with
      | nil =>
        cases h
        exact .inl hc
      | cons m mid =>
        obtain ⟨rfl, rfl⟩ := List.cons.inj h
        exact .inr ⟨mid, l', after, rfl, by simpa using hc⟩

theorem returning_iff_anyClause :
    Returning counts sql ↔ anyClause counts [] (lex sql) = true := by
  rw [anyClause_iff]
  constructor
  · rintro ⟨before, ⟨w, gap, w', after, hlex, hw, hgap, hw'⟩, hopen⟩
    refine ⟨before.reverse ++ .word w :: gap, .word w', after, by simp [hlex], ?_⟩
    have hgap' : ∀ l ∈ gap.reverse, l.isGap = true := fun l hl => hgap l (List.mem_reverse.mp hl)
    have hpast : (before.reverse ++ Lexeme.word w :: gap).reverse ++ [] =
        gap.reverse ++ .word w :: before := by simp
    have hpending : pendingThen (gap.reverse ++ .word w :: before) = true :=
      pendingThen_iff.mpr ⟨_, _, _, rfl, hgap', hw⟩
    rw [hpast, isClause, hpending, openCases_gap hgap', openCases_then hw, hopen, hw']
    rfl
  · rintro ⟨mid, l, after, hlex, h⟩
    rw [List.append_nil] at h
    cases l with
    | quoted | comment | other => cases h
    | word w' =>
      simp only [isClause, Bool.and_eq_true, beq_iff_eq] at h
      obtain ⟨⟨hpending, hopen⟩, hw'⟩ := h
      obtain ⟨gap, w, past, hmid, hgap, hw⟩ := pendingThen_iff.mp hpending
      rw [hmid, openCases_gap hgap, openCases_then hw] at hopen
      refine ⟨past, ⟨w, gap.reverse, w', after, ?_, hw, ?_, hw'⟩, hopen⟩
      · rw [hlex, ← List.reverse_reverse mid, hmid]
        simp
      · exact fun l hl => hgap l (List.mem_reverse.mp hl)

instance {sql : List Char} : Decidable (Returning counts sql) :=
  decidable_of_iff _ returning_iff_anyClause.symm

/-! ## The code -/

/-- The flag and the depth of the loop say what it has passed. -/
theorem dmlReturningLoop_eq (ls before : List Lexeme) :
    dmlReturningLoop ls (pendingThen before) (openCases anyWord before) =
      anyClause anyWord before ls := by
  induction ls generalizing before with
  | nil => rfl
  | cons l ls ih =>
    have hstep := ih (l :: before)
    cases l with
    | word w =>
      rw [dmlReturningLoop, anyClause, isClause]
      split
      · rename_i h
        obtain ⟨hpending, hopen, hw⟩ := h
        rw [hpending, hopen, hw]
        rfl
      · rename_i h
        have hno : (pendingThen before && (openCases anyWord before == 0) &&
            eqIgnoreAsciiCase w "RETURN".toList) = false := by
          rw [Bool.eq_false_iff]
          intro hyes
          simp only [Bool.and_eq_true, beq_iff_eq] at hyes
          exact h ⟨hyes.1.1, hyes.1.2, hyes.2⟩
        rw [hno, Bool.false_or]
        exact hstep
    | quoted | comment | other => exact hstep

theorem isDmlReturning_iff :
    isDmlReturning sql = true ↔ Returning anyWord sql := by
  rw [returning_iff_anyClause, isDmlReturning, ← dmlReturningLoop_eq]
  rfl

/-- `CASE` and `END` are no names in this text. -/
def CasesAreKeywords (sql : List Char) : Prop :=
  ∀ before w after, lex sql = before.reverse ++ .word w :: after → isName before = true →
    eqIgnoreAsciiCase w "CASE".toList = false ∧ eqIgnoreAsciiCase w "END".toList = false

theorem openCases_eq {before : List Lexeme} (h : ∀ later w past, before = later ++ .word w :: past →
    isName past = true →
      eqIgnoreAsciiCase w "CASE".toList = false ∧ eqIgnoreAsciiCase w "END".toList = false) :
    openCases anyWord before = openCases isKeyword before := by
  induction before with
  | nil => rfl
  | cons l before ih =>
    have hbefore := ih fun later w past e => h (l :: later) w past (by rw [e]; rfl)
    cases l with
    | quoted | comment | other => exact hbefore
    | word w =>
      cases hname : isName before with
      | false => simp [openCases, anyWord, isKeyword, hname, hbefore]
      | true =>
        obtain ⟨hcase, hend⟩ := h [] w before rfl hname
        rw [openCases, openCases, hcase, hend, hbefore]
        simp

/-! ## Stretches of text -/

/-- What a lexeme adds to the open `CASE`s. -/
def caseChange : Lexeme → Int
  | .word w =>
    if eqIgnoreAsciiCase w "CASE".toList then 1
    else if eqIgnoreAsciiCase w "END".toList then -1 else 0
  | _ => 0

/-- The `CASE`s of a stretch of text behind `past`, less its `END`s. -/
def surplus (counts : List Lexeme → Bool) : (stretch past : List Lexeme) → Int
  | [], _ => 0
  | l :: stretch, past =>
    (if counts (stretch ++ past) then caseChange l else 0) + surplus counts stretch past

/-- Some stretch of the text before has more `CASE`s than `END`s. -/
def Inside (counts : List Lexeme → Bool) (before : List Lexeme) : Prop :=
  ∃ stretch past, before = stretch ++ past ∧ 0 < surplus counts stretch past

theorem openCases_cons (l : Lexeme) (before : List Lexeme) : openCases counts (l :: before) =
    ((if counts before then caseChange l else 0) + openCases counts before).toNat := by
  cases l with
  | word w =>
    rw [openCases, caseChange]
    split <;> (try split) <;> (try split) <;> omega
  | quoted | comment | other => simp [openCases, caseChange]

/-- No stretch has a larger surplus than the number of open `CASE`s. -/
theorem surplus_le_openCases (stretch past : List Lexeme) :
    surplus counts stretch past ≤ openCases counts (stretch ++ past) := by
  induction stretch with
  | nil => exact Int.natCast_nonneg _
  | cons l stretch ih =>
    rw [List.cons_append, openCases_cons, surplus]
    omega

/-- One stretch has this surplus: that since the counter was last zero. -/
theorem exists_surplus_eq (before : List Lexeme) : ∃ stretch past, before = stretch ++ past ∧
    surplus counts stretch past = openCases counts before := by
  induction before with
  | nil => exact ⟨[], [], rfl, rfl⟩
  | cons l before ih =>
    obtain ⟨stretch, past, rfl, hsurplus⟩ := ih
    by_cases hpos : 0 ≤ (if counts (stretch ++ past) then caseChange l else 0) +
        (openCases counts (stretch ++ past) : Int)
    · refine ⟨l :: stretch, past, rfl, ?_⟩
      rw [openCases_cons, surplus, hsurplus]
      omega
    · refine ⟨[], l :: (stretch ++ past), rfl, ?_⟩
      rw [openCases_cons, surplus]
      omega

theorem inside_iff {before : List Lexeme} : Inside counts before ↔ openCases counts before ≠ 0 := by
  constructor
  · rintro ⟨stretch, past, rfl, hpos⟩
    have := @surplus_le_openCases counts stretch past
    omega
  · intro hopen
    obtain ⟨stretch, past, hbefore, hsurplus⟩ := @exists_surplus_eq counts before
    exact ⟨stretch, past, hbefore, by omega⟩

theorem surplus_anyWord (stretch past : List Lexeme) : surplus anyWord stretch past =
    surplus isKeyword stretch past + surplus isName stretch past := by
  induction stretch with
  | nil => rfl
  | cons l stretch ih =>
    rw [surplus, surplus, surplus, ih]
    cases hname : isName (stretch ++ past) <;> simp [anyWord, isKeyword, hname] <;> omega

/-- Some stretch of the text before has more `CASE`s than `END`s when the names are added to the
keywords. -/
def Covered (before : List Lexeme) : Prop :=
  ∃ stretch past, before = stretch ++ past ∧
    0 < surplus isKeyword stretch past + surplus isName stretch past

/-- The names `CASE` and `END` make no difference to the answer: they cover not every `THEN … RETURN`
if one of them is outside every `CASE`, and uncover none if all are inside. -/
structure NamesHarmless (sql : List Char) : Prop where
  found : ∀ before, ClauseAt sql before → ¬ Inside isKeyword before →
    ∃ other, ClauseAt sql other ∧ ¬ Covered other
  not_found : (∀ before, ClauseAt sql before → Inside isKeyword before) →
    ∀ before, ClauseAt sql before → Covered before

theorem covered_iff {before : List Lexeme} : Covered before ↔ openCases anyWord before ≠ 0 := by
  rw [← inside_iff, Inside]
  simp only [surplus_anyWord, Covered]

theorem namesHarmless_of_keywords (h : CasesAreKeywords sql) :
    NamesHarmless sql := by
  have hcovered : ∀ before, ClauseAt sql before → (Covered before ↔ Inside isKeyword before) := by
    rintro before ⟨w₀, gap, w', after, hlex, _⟩
    rw [covered_iff, inside_iff, openCases_eq fun later w past e hname => ?_]
    exact h past w (later.reverse ++ .word w₀ :: (gap ++ .word w' :: after))
      (by rw [hlex, e]; simp) hname
  constructor
  · intro before hclause hout
    exact ⟨before, hclause, fun hc => hout ((hcovered before hclause).mp hc)⟩
  · intro hall before hclause
    exact (hcovered before hclause).mpr (hall before hclause)

end Sql
end SpannerAdbc
