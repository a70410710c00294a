import SpannerAdbc.Lib.Wildcard

/-!
# SpannerAdbc.Metadata.Like

`LikeMatcher`, the ADBC pattern matcher: `%` stands for any run of characters, `_` for one character,
and everything else, a backslash too, for itself.

The matcher walks pattern and value once and remembers one place to go back to, the last `%`. A
position in the pattern or in the value is what is left of it from there: `value[vi..]` is a list of
characters, and `vi < value.len()` says that it is not empty.
-/

namespace SpannerAdbc
namespace Metadata

open Lib

/-- The pattern and the value from `pi` and `vi` on. `star` holds the pattern behind the last `%` and
the value from where the run of that `%` ends so far. -/
structure Scan where
  p : List Char
  v : List Char
  star : Option (List Char × List Char)

/-- The body of the first loop; `none` is the `return false`. -/
def Scan.body (s : Scan) (ch : Char) (rest : List Char) : Option Scan :=
  match s.p, s.star with
  | '%' :: p, _ => some ⟨p, s.v, some (p, s.v)⟩
  | c :: p, star =>
    if c = '_' ∨ c = ch then some ⟨p, rest, star⟩
    else star.map fun (sp, sv) => ⟨sp, sv.tail, some (sp, sv.tail)⟩
  | [], star => star.map fun (sp, sv) => ⟨sp, sv.tail, some (sp, sv.tail)⟩

/-- Both loops of `matches`, for at most so many passes through their bodies. -/
def Scan.run : Nat → Scan → Option Bool
  | steps, ⟨p, ch :: rest, star⟩ =>
    match steps with
    | 0 => none
    | steps + 1 =>
      match Scan.body ⟨p, ch :: rest, star⟩ ch rest with
      | none => some false
      | some s => run steps s
  | steps, ⟨'%' :: p, [], star⟩ =>
    match steps with
    | 0 => none
    | steps + 1 => run steps ⟨p, [], star⟩
  | _, ⟨p, [], _⟩ => some p.isEmpty

/-- The passes that are always enough (`run_of_tracks`). -/
def stepBound (pattern value : List Char) : Nat := (pattern.length + 1) * (value.length + 1)

/-- `LikeMatcher::matches`. -/
def likeMatch (pattern value : List Char) : Bool :=
  ((Scan.mk pattern value none).run (stepBound pattern value)).getD false

/-! ## What a pattern means -/

def glyph (c : Char) : Glyph Char :=
  if c = '%' then .any else if c = '_' then .one else .lit c

def Like (pattern value : List Char) : Prop := Matches (pattern.map glyph) value

variable {p v : List Char} {c : Char}

theorem glyph_eq_any : glyph c = .any ↔ c = '%' := by
  unfold glyph
  split
  · simp [*]
  · split <;> simp [*]

theorem like_percent : Like ('%' :: p) v ↔ ∃ k, Like p (v.drop k) := matches_any

theorem like_nil : Like [] v ↔ v = [] := matches_nil

/-- A character of the pattern other than `%` against a character of the value. -/
theorem like_cons {ch : Char} (hc : c ≠ '%') :
    Like (c :: p) (ch :: v) ↔ (c = '_' ∨ c = ch) ∧ Like p v := by
  by_cases hone : c = '_'
  · subst hone
    have hglyph : glyph '_' = .one := rfl
    rw [Like, List.map_cons, hglyph, matches_one]
    simp [Like]
  · have hlit : glyph c = .lit c := by rw [glyph, if_neg hc, if_neg hone]
    rw [Like, List.map_cons, hlit, matches_lit]
    constructor
    · rintro ⟨rest, hv, h⟩
      obtain ⟨rfl, rfl⟩ := List.cons.inj hv
      exact ⟨.inr rfl, h⟩
    · rintro ⟨hor, h⟩
      obtain rfl := hor.resolve_left hone
      exact ⟨v, rfl, h⟩

theorem like_end : Like p [] ↔ ∀ c ∈ p, c = '%' := by
  rw [Like, matches_end, List.forall_mem_map]
  simp only [glyph_eq_any]

/-! ## One pass -/

/-- A pass through the body of the first loop. -/
inductive Scan.Step : Scan → Option Scan → Prop where
  | percent {p v : List Char} {star : Option (List Char × List Char)} :
      Step ⟨'%' :: p, v, star⟩ (some ⟨p, v, some (p, v)⟩)
  | take {c ch : Char} {p v : List Char} {star : Option (List Char × List Char)} : c ≠ '%' →
      (c = '_' ∨ c = ch) → Step ⟨c :: p, ch :: v, star⟩ (some ⟨p, v, star⟩)
  | back {p v sp sv : List Char} : ¬ Like p v →
      Step ⟨p, v, some (sp, sv)⟩ (some ⟨sp, sv.tail, some (sp, sv.tail)⟩)
  | fail {p v : List Char} : ¬ Like p v → Step ⟨p, v, none⟩ none

theorem Scan.step_mismatch (h : ¬ Like p v) (star : Option (List Char × List Char)) :
    Step ⟨p, v, star⟩ (star.map fun (sp, sv) => ⟨sp, sv.tail, some (sp, sv.tail)⟩) := by
  cases star with
  | none => exact .fail h
  | some last => exact .back h

theorem Scan.step_body (p : List Char) (ch : Char) (rest : List Char)
    (star : Option (List Char × List Char)) :
    Step ⟨p, ch :: rest, star⟩ (body ⟨p, ch :: rest, star⟩ ch rest) := by
  cases p with
  | nil => exact step_mismatch (by simp [like_nil]) star
  | cons c p =>
    by_cases hc : c = '%'
    · subst hc
      exact .percent
    · have hbody : body ⟨c :: p, ch :: rest, star⟩ ch rest =
          if c = '_' ∨ c = ch then some ⟨p, rest, star⟩
          else star.map fun (sp, sv) => ⟨sp, sv.tail, some (sp, sv.tail)⟩ := by
        simp only [body]
      rw [hbody]
      split
      · exact .take hc ‹_›
      · rename_i hne
        exact step_mismatch (fun h => hne ((like_cons hc).mp h).1) star

/-! ## The whole walk -/

section Walk

variable {pattern value : List Char} {s s' : Scan} {star : Option (List Char × List Char)}
  {p v : List Char}

/-- A match that lets the run of the last `%` go on. -/
def Scan.Later (s : Scan) : Prop :=
  ∃ sp sv k, s.star = some (sp, sv) ∧ 0 < k ∧ k ≤ sv.length ∧ Like sp (sv.drop k)

/-- The matcher is on its way: the answer is the same as from here or from a later end of the last
run, and since the last `%` pattern and value have been taken in step. -/
structure Tracks (pattern value : List Char) (s : Scan) : Prop where
  answer : Like pattern value ↔ Like s.p s.v ∨ s.Later
  length_le : s.p.length ≤ pattern.length
  star : ∀ {sp sv}, s.star = some (sp, sv) → sp.length ≤ pattern.length ∧
    ∃ q m, sp = q ++ s.p ∧ sv = m ++ s.v ∧ q.length = m.length ∧ '%' ∉ q

theorem Tracks.start (pattern value : List Char) : Tracks pattern value ⟨pattern, value, none⟩ where
  answer := by simp [Scan.Later]
  length_le := Nat.le_refl _
  star := by simp

theorem glyphs_fixed {q : List Char} (h : '%' ∉ q) : ∀ g ∈ q.map glyph, g ≠ .any := by
  rw [List.forall_mem_map]
  intro c hc hany
  rw [glyph_eq_any] at hany
  exact h (hany ▸ hc)

/-- At a new `%` the earlier one can be forgotten. -/
theorem Tracks.percent (h : Tracks pattern value ⟨'%' :: p, v, star⟩) :
    Tracks pattern value ⟨p, v, some (p, v)⟩ where
  answer := by
    have hforget : Scan.Later ⟨'%' :: p, v, star⟩ → Like ('%' :: p) v := by
      rintro ⟨sp, sv, k, hstar, -, -, hk⟩
      obtain ⟨-, q, m, rfl, rfl, hlen, hq⟩ := h.star hstar
      rw [Like, List.map_append] at hk
      exact hk.forget (glyphs_fixed hq) (by rw [List.length_map, hlen])
    have hlater : Like ('%' :: p) v ↔ Like p v ∨ Scan.Later ⟨p, v, some (p, v)⟩ := by
      rw [like_percent]
      constructor
      · rintro ⟨k, hk⟩
        rcases Nat.eq_zero_or_pos k with rfl | hpos
        · exact .inl hk
        · rcases Nat.le_total k v.length with hle | hle
          · exact .inr ⟨p, v, k, rfl, hpos, hle, hk⟩
          · rw [List.drop_of_length_le hle, ← List.drop_length (l := v)] at hk
            rcases Nat.eq_zero_or_pos v.length with hz | hvpos
            · exact .inl (by rwa [hz] at hk)
            · exact .inr ⟨p, v, v.length, rfl, hvpos, Nat.le_refl _, hk⟩
      · rintro (hp | ⟨sp, sv, k, hstar, -, -, hk⟩)
        · exact ⟨0, hp⟩
        · cases hstar
          exact ⟨k, hk⟩
    rw [h.answer, or_iff_left_of_imp hforget]
    exact hlater
  length_le := Nat.le_trans (Nat.le_succ _) h.length_le
  star := by
    rintro sp sv ⟨⟩
    exact ⟨Nat.le_trans (Nat.le_succ _) h.length_le, [], [], rfl, rfl, rfl, by simp⟩

theorem Tracks.take {c ch : Char} (h : Tracks pattern value ⟨c :: p, ch :: v, star⟩)
    (hc : c ≠ '%') (heq : c = '_' ∨ c = ch) :
    Tracks pattern value ⟨p, v, star⟩ where
  answer := by
    rw [h.answer]
    simp only [like_cons hc, heq, true_and]
    rfl
  length_le := Nat.le_trans (Nat.le_succ _) h.length_le
  star := by
    intro sp sv hstar
    obtain ⟨hle, q, m, rfl, rfl, hlen, hq⟩ := h.star hstar
    refine ⟨hle, q ++ [c], m ++ [ch], by simp, by simp, by simp [hlen], ?_⟩
    simp only [List.mem_append, List.mem_singleton, not_or]
    exact ⟨hq, fun he => hc he.symm⟩

theorem Tracks.back {sp sv : List Char} (h : Tracks pattern value ⟨p, v, some (sp, sv)⟩)
    (hsv : sv ≠ []) (hmis : ¬ Like p v) :
    Tracks pattern value ⟨sp, sv.tail, some (sp, sv.tail)⟩ where
  answer := by
    have hlater : Scan.Later ⟨p, v, some (sp, sv)⟩ ↔
        Like sp sv.tail ∨ Scan.Later ⟨sp, sv.tail, some (sp, sv.tail)⟩ := by
      obtain ⟨c, sv, rfl⟩ := List.exists_cons_of_ne_nil hsv
      constructor
      · rintro ⟨_, _, k, hstar, hpos, hle, hk⟩
        cases hstar
        obtain ⟨k, rfl⟩ := Nat.exists_eq_succ_of_ne_zero (Nat.pos_iff_ne_zero.mp hpos)
        rcases Nat.eq_zero_or_pos k with rfl | hkpos
        · exact .inl hk
        · exact .inr ⟨sp, sv, k, rfl, hkpos, Nat.le_of_succ_le_succ hle, hk⟩
      · rintro (hk | ⟨_, _, k, hstar, -, hle, hk⟩)
        · exact ⟨sp, c :: sv, 1, rfl, Nat.one_pos, by simp, hk⟩
        · cases hstar
          exact ⟨sp, c :: sv, k + 1, rfl, Nat.succ_pos k, Nat.succ_le_succ hle, hk⟩
    rw [h.answer, or_iff_right hmis, hlater]
  length_le := (h.star rfl).1
  star := by
    rintro sp' sv' ⟨⟩
    exact ⟨(h.star rfl).1, [], [], rfl, rfl, rfl, by simp⟩

/-- Where the value ends, a later end of the last run leaves too few characters. -/
theorem Tracks.ends (h : Tracks pattern value ⟨p, [], star⟩) : Like pattern value ↔ Like p [] := by
  rw [h.answer, or_iff_left]
  rintro ⟨sp, sv, k, hstar, hpos, hle, hk⟩
  obtain ⟨-, q, m, rfl, rfl, hlen, hq⟩ := h.star hstar
  rw [List.append_nil] at hle hk
  rw [Like, List.map_append] at hk
  exact not_matches_later (glyphs_fixed hq) (by rw [List.length_map, hlen]) hpos hle hk

/-- How often the matcher can still go back. -/
def Scan.left (s : Scan) : Nat :=
  match s.star with
  | some (_, sv) => sv.length
  | none => s.v.length

/-- An upper bound of the passes that are left. -/
def Scan.cost (pattern : List Char) (s : Scan) : Nat :=
  s.left * (pattern.length + 1) + s.p.length + 1

theorem Tracks.length_le_left (h : Tracks pattern value s) : s.v.length ≤ s.left := by
  unfold Scan.left
  split
  · rename_i hstar
    obtain ⟨-, q, m, -, rfl, -, -⟩ := h.star hstar
    simp
  · exact Nat.le_refl _

/-- A pass keeps the matcher on its way and costs one. -/
theorem Tracks.step (h : Tracks pattern value s) (hv : s.v ≠ []) (hs : s.Step (some s')) :
    Tracks pattern value s' ∧ s'.cost pattern < s.cost pattern := by
  have hleft := h.length_le_left
  cases hs with
  | percent =>
    refine ⟨h.percent, ?_⟩
    have hmul := Nat.mul_le_mul_right (pattern.length + 1) hleft
    simp only [Scan.cost, Scan.left, List.length_cons] at hmul ⊢
    omega
  | @take c ch p v star hc heq =>
    refine ⟨h.take hc heq, ?_⟩
    have hle : (Scan.mk p v star).left ≤ (Scan.mk (c :: p) (ch :: v) star).left := by
      unfold Scan.left
      cases star <;> simp
    have hmul := Nat.mul_le_mul_right (pattern.length + 1) hle
    simp only [Scan.cost, List.length_cons]
    omega
  | @back p v sp sv hmis =>
    obtain ⟨hsp, q, m, -, hsv, -, -⟩ := h.star rfl
    have hne : sv ≠ [] := by
      rintro rfl
      exact hv (List.append_eq_nil_iff.mp hsv.symm).2
    refine ⟨h.back hne hmis, ?_⟩
    obtain ⟨c, sv, rfl⟩ := List.exists_cons_of_ne_nil hne
    simp only [Scan.cost, Scan.left, List.tail_cons, List.length_cons, Nat.succ_mul]
    omega

theorem Scan.run_end {n : Nat} (hn : p.length ≤ n) (star : Option (List Char × List Char)) :
    ∃ b, run n ⟨p, [], star⟩ = some b ∧ (b = true ↔ Like p []) := by
  rw [like_end]
  induction p generalizing n with
  | nil => exact ⟨true, by simp [run], by simp⟩
  | cons c p ih =>
    by_cases hc : c = '%'
    · subst hc
      cases n with
      | zero => cases hn
      | succ n =>
        obtain ⟨b, hb, hiff⟩ := ih (Nat.le_of_succ_le_succ hn)
        exact ⟨b, by rw [run]; exact hb, by rw [hiff, List.forall_mem_cons]; simp⟩
    · refine ⟨false, ?_, by simp [hc]⟩
      rw [run]
      · rfl
      · intro p' heq
        exact hc (List.cons.inj heq).1

/-- The loops end within the bound, with the right answer. -/
theorem Scan.run_of_tracks {n : Nat} (h : Tracks pattern value s) (hn : s.cost pattern ≤ n) :
    ∃ b, s.run n = some b ∧ (b = true ↔ Like pattern value) := by
  induction n generalizing s with
  | zero => cases hn
  | succ n ih =>
    obtain ⟨p, v, star⟩ := s
    cases v with
    | nil =>
      have hlen : p.length ≤ n + 1 := by
        unfold cost at hn
        dsimp only at hn
        omega
      obtain ⟨b, hb, hiff⟩ := run_end hlen star
      exact ⟨b, hb, by rw [hiff, h.ends]⟩
    | cons ch rest =>
      have hstep := step_body p ch rest star
      rw [run]
      cases hbody : body ⟨p, ch :: rest, star⟩ ch rest with
      | none =>
        rw [hbody] at hstep
        refine ⟨false, rfl, ?_⟩
        cases hstep with
        | fail hmis => simp [h.answer, hmis, Later]
      | some s' =>
        rw [hbody] at hstep
        obtain ⟨h', hlt⟩ := h.step (by simp) hstep
        exact ih h' (by omega)

end Walk

theorem cost_start (pattern value : List Char) :
    (Scan.mk pattern value none).cost pattern = stepBound pattern value := by
  simp only [Scan.cost, Scan.left, stepBound]
  rw [Nat.mul_comm (pattern.length + 1), Nat.succ_mul]
  rfl

theorem likeMatch_iff {pattern value : List Char} :
    likeMatch pattern value = true ↔ Like pattern value := by
  obtain ⟨b, hb, hiff⟩ := Scan.run_of_tracks (Tracks.start pattern value)
    (Nat.le_of_eq (cost_start pattern value))
  rw [likeMatch, hb, Option.getD_some]
  exact hiff

/-- The parts that a character of a pattern stands for. -/
def Part (c : Char) (part : List Char) : Prop :=
  if c = '%' then True else if c = '_' then part.length = 1 else part = [c]

theorem covers_glyph {part : List Char} : (glyph c).Covers part ↔ Part c part := by
  unfold glyph Part
  split
  · rfl
  · split <;> rfl

/-- The matcher answers within `2 * (p + 1) * (v + 1)` passes, and it finds a match exactly where the
value can be cut into one part for each character of the pattern. -/
theorem likeMatch_exact (pattern value : List Char) :
    (Scan.mk pattern value none).run (2 * (pattern.length + 1) * (value.length + 1)) =
      some (likeMatch pattern value) ∧
    (likeMatch pattern value = true ↔
      ∃ parts : List (List Char), value = parts.flatten ∧ List.Forall₂ Part pattern parts) := by
  constructor
  · have hcost : (Scan.mk pattern value none).cost pattern ≤
        2 * (pattern.length + 1) * (value.length + 1) := by
      rw [cost_start, stepBound, Nat.mul_assoc]
      omega
    obtain ⟨b, hb, hiff⟩ := Scan.run_of_tracks (Tracks.start pattern value) hcost
    rw [hb, Option.some.injEq, Bool.eq_iff_iff, hiff, likeMatch_iff]
  · rw [likeMatch_iff, Like, Matches]
    simp only [List.forall₂_map_left_iff, covers_glyph]

example : likeMatch "%a_%\\".toList "xaxabc\\".toList = true := by decide

end Metadata
end SpannerAdbc
