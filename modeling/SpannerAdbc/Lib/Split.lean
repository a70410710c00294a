import Mathlib.Data.List.Forall2

/-!
# SpannerAdbc.Lib.Split

Splitting at a separator, and joining again. `splitOn_eq_iff`: the parts of a list are the only ones
without the separator that join to it.
-/

namespace SpannerAdbc
namespace Lib

section Split

variable {α : Type} {c : α} {parts : List (List α)} {part s : List α}

theorem not_mem_of_mem_splitOn [DecidableEq α] (h : part ∈ s.splitOn c) :
    c ∉ part := by
  induction s generalizing part with
  | nil =>
    rw [List.splitOn_nil, List.mem_singleton] at h
    simp [h]
  | cons d s ih =>
    rw [List.splitOn_cons_eq_if_modifyHead] at h
    split at h
    · rcases List.mem_cons.mp h with rfl | h
      · simp
      · exact ih h
    · rename_i hd
      obtain ⟨first, rest, hsplit⟩ := List.exists_cons_of_ne_nil (List.splitOn_ne_nil c s)
      rw [hsplit] at h ih
      rcases List.mem_cons.mp h with rfl | h
      · have hne : c ≠ d := by
          rintro rfl
          simp at hd
        simp [hne, ih List.mem_cons_self]
      · exact ih (List.mem_cons_of_mem _ h)

theorem splitOn_eq_iff [DecidableEq α] : s.splitOn c = parts ↔
    s = [c].intercalate parts ∧ parts ≠ [] ∧ ∀ part ∈ parts, c ∉ part := by
  constructor
  · rintro rfl
    exact ⟨(List.intercalate_splitOn c).symm, List.splitOn_ne_nil c s, fun _ => not_mem_of_mem_splitOn⟩
  · rintro ⟨rfl, hne, hfree⟩
    exact List.splitOn_intercalate c hfree hne

theorem append_intercalate (w x : List α) (parts : List (List α)) :
    w ++ [c].intercalate (x :: parts) = [c].intercalate ((w ++ x) :: parts) := by
  cases parts with
  | nil => simp
  | cons y parts => simp [List.intercalate_cons_cons]

theorem intercalate_append (parts : List (List α)) (x u : List α) :
    [c].intercalate (parts ++ [x]) ++ u = [c].intercalate (parts ++ [x ++ u]) := by
  induction parts with
  | nil => simp
  | cons y parts ih =>
    obtain ⟨z, rest, hz⟩ := List.exists_cons_of_ne_nil (List.append_ne_nil_of_right_ne_nil parts
      (List.cons_ne_nil x []))
    obtain ⟨z', rest', hz'⟩ := List.exists_cons_of_ne_nil (List.append_ne_nil_of_right_ne_nil parts
      (List.cons_ne_nil (x ++ u) []))
    rw [hz, hz'] at ih
    rw [List.cons_append, List.cons_append, hz, hz', List.intercalate_cons_cons,
      List.intercalate_cons_cons, List.append_assoc, ih]

theorem mem_intercalate {d : α} (hd : d ≠ c) :
    d ∈ [c].intercalate parts ↔ ∃ part ∈ parts, d ∈ part := by
  induction parts with
  | nil => simp
  | cons x parts ih =>
    cases parts with
    | nil => simp
    | cons y parts =>
      rw [List.intercalate_cons_cons, List.mem_append, List.mem_append, ih]
      simp [hd]

theorem sublist_intercalate (h : part ∈ parts) :
    part.Sublist ([c].intercalate parts) := by
  induction parts with
  | nil => cases h
  | cons x parts ih =>
    cases parts with
    | nil =>
      obtain rfl := List.mem_singleton.mp h
      simp
    | cons y parts =>
      rw [List.intercalate_cons_cons]
      rcases List.mem_cons.mp h with rfl | h
      · rw [List.append_assoc]
        exact List.sublist_append_left _ _
      · exact (ih h).trans (List.sublist_append_right _ _)

theorem sublist_of_mem_splitOn [DecidableEq α] (h : part ∈ s.splitOn c) :
    part.Sublist s := by
  have hsub : part.Sublist ([c].intercalate (s.splitOn c)) := sublist_intercalate h
  rwa [List.intercalate_splitOn] at hsub

/-- A place in a joined text that is not a separator is in a part, and so is the text up to the next
separator. -/
theorem exists_part {d : α} (hd : d ≠ c) {a b : List α} (h : [c].intercalate parts = a ++ d :: b) :
    ∃ part ∈ parts, ∃ front back, part = front ++ d :: back ∧ back <+: b := by
  induction parts generalizing a with
  | nil => simp at h
  | cons x parts ih =>
    cases parts with
    | nil =>
      rw [List.intercalate_singleton] at h
      exact ⟨x, List.mem_cons_self, a, b, h, List.prefix_rfl⟩
    | cons y parts =>
      rw [List.intercalate_cons_cons, List.append_assoc] at h
      rcases List.append_eq_append_iff.mp h with ⟨a', rfl, e⟩ | ⟨x', rfl, e⟩
      · cases a' with
        | nil => exact absurd (List.cons.inj e).1.symm hd
        | cons _ a' =>
          obtain ⟨part, hpart, front, back, hplace⟩ := ih (List.cons.inj e).2
          exact ⟨part, List.mem_cons_of_mem _ hpart, front, back, hplace⟩
      · cases x' with
        | nil => exact absurd (List.cons.inj e).1 hd
        | cons _ x' =>
          obtain ⟨rfl, rfl⟩ := List.cons.inj e
          exact ⟨_, List.mem_cons_self, a, x', rfl, List.prefix_append _ _⟩

end Split

/-- Related lists agree on what holds of all elements. -/
theorem forall_mem_congr {α β : Type} {R : α → β → Prop} {p : α → Prop} {q : β → Prop} {as : List α}
    {bs : List β} (h : List.Forall₂ R as bs) (hR : ∀ a b, R a b → (p a ↔ q b)) :
    (∀ a ∈ as, p a) ↔ ∀ b ∈ bs, q b := by
  induction h with
  | nil => simp
  | cons hab _ ih => rw [List.forall_mem_cons, List.forall_mem_cons, hR _ _ hab, ih]

theorem forall_mem_left {α β : Type} {R : α → β → Prop} {p : α → Prop} {as : List α} {bs : List β}
    (h : List.Forall₂ R as bs) (hR : ∀ a b, R a b → p a) : ∀ a ∈ as, p a :=
  (forall_mem_congr h fun a b hab => iff_of_true (hR a b hab) trivial).mpr fun _ _ => trivial

theorem forall_mem_right {α β : Type} {R : α → β → Prop} {q : β → Prop} {as : List α} {bs : List β}
    (h : List.Forall₂ R as bs) (hR : ∀ a b, R a b → q b) : ∀ b ∈ bs, q b :=
  (forall_mem_congr h fun a b hab => iff_of_true trivial (hR a b hab)).mp fun _ _ => trivial

end Lib
end SpannerAdbc
