import Mathlib.Data.List.Induction
import Mathlib.Data.Option.Basic

/-!
# SpannerAdbc.Lib.Overwrite

Assignments in order, the last one wins.

* `written`: the value that a list of assignments leaves in a field.
* `collapse`: a buffer with one entry for each key, which a later assignment to the key overwrites
  where it stands. It keeps the last value of each key, but the order in which the keys were first
  assigned.
* `written_collapse`: what a buffer means when a key stands for a list of assignments and only two
  keys touch a field.
-/

namespace SpannerAdbc
namespace Lib

section Written

variable {F X : Type} [DecidableEq F] {as : List (F × X)} {f : F}

def written (as : List (F × X)) (f : F) : Option X :=
  match as with
  | [] => none
  | (g, x) :: as => (written as f).or (if g = f then some x else none)

@[simp] theorem written_nil (f : F) : written ([] : List (F × X)) f = none := rfl

theorem written_append (as bs : List (F × X)) (f : F) :
    written (as ++ bs) f = (written bs f).or (written as f) := by
  induction as with
  | nil => simp
  | cons a as ih => simp [written, ih, Option.or_assoc]

theorem written_singleton (g f : F) (x : X) :
    written [(g, x)] f = if g = f then some x else none := by
  simp [written]

theorem written_eq_none (h : ∀ a ∈ as, a.1 ≠ f) :
    written as f = none := by
  induction as with
  | nil => rfl
  | cons a as ih =>
    obtain ⟨g, x⟩ := a
    rw [written, ih fun b hb => h b (List.mem_cons_of_mem _ hb),
      if_neg (h (g, x) List.mem_cons_self), Option.or_none]

/-- Assignments to other fields do not matter. -/
theorem written_filter {p : F → Bool} (hf : p f = true) (as : List (F × X)) :
    written (as.filter fun a => p a.1) f = written as f := by
  induction as with
  | nil => rfl
  | cons a as ih =>
    obtain ⟨g, x⟩ := a
    rw [List.filter_cons]
    split
    · rw [written, written, ih]
    · rename_i hg
      have hne : g ≠ f := by
        rintro rfl
        exact hg hf
      rw [written, if_neg hne, Option.or_none, ih]

theorem mem_of_written {x : X} (h : written as f = some x) :
    (f, x) ∈ as := by
  induction as with
  | nil => cases h
  | cons a as ih =>
    obtain ⟨g, y⟩ := a
    rw [written, Option.or_eq_some_iff] at h
    rcases h with h | ⟨-, h⟩
    · exact List.mem_cons_of_mem _ (ih h)
    · split at h
      · rename_i hg
        cases h
        rw [hg]
        exact List.mem_cons_self
      · cases h

theorem ne_of_written_eq_none (h : written as f = none) :
    ∀ a ∈ as, a.1 ≠ f := by
  induction as with
  | nil => simp
  | cons a as ih =>
    obtain ⟨g, x⟩ := a
    rw [written, Option.or_eq_none_iff] at h
    refine List.forall_mem_cons.mpr ⟨?_, ih h.1⟩
    rintro rfl
    simp at h

/-- When all assignments to a field agree, their order does not matter. -/
theorem written_eq_some {x : X} (hmem : ∃ a ∈ as, a.1 = f) (hall : ∀ a ∈ as, a.1 = f → a.2 = x) :
    written as f = some x := by
  cases hw : written as f with
  | none =>
    obtain ⟨a, ha, hf⟩ := hmem
    exact absurd hf (ne_of_written_eq_none hw a ha)
  | some y => exact congrArg some (hall (f, y) (mem_of_written hw) rfl)

end Written

/-! ## Buffers -/

section Collapse

variable {K V : Type} [DecidableEq K] {sets entries : List (K × V)}

def upsert (k : K) (v : V) : List (K × V) → List (K × V)
  | [] => [(k, v)]
  | (k', v') :: entries => if k' = k then (k', v) :: entries else (k', v') :: upsert k v entries

def collapse (sets : List (K × V)) : List (K × V) :=
  sets.foldl (fun entries s => upsert s.1 s.2 entries) []

@[simp] theorem collapse_nil : collapse ([] : List (K × V)) = [] := rfl

theorem collapse_concat (sets : List (K × V)) (s : K × V) :
    collapse (sets ++ [s]) = upsert s.1 s.2 (collapse sets) := by
  simp [collapse]

theorem filter_upsert (p : K → Bool) (k : K) (v : V) (entries : List (K × V)) :
    (upsert k v entries).filter (fun s => p s.1) =
      if p k then upsert k v (entries.filter fun s => p s.1)
      else entries.filter fun s => p s.1 := by
  induction entries with
  | nil => cases hk : p k <;> simp [upsert, hk]
  | cons e entries ih =>
    obtain ⟨k', v'⟩ := e
    by_cases hkk : k' = k
    · subst hkk
      cases hk : p k' <;> simp [upsert, hk]
    · rw [upsert, if_neg hkk, List.filter_cons, List.filter_cons, ih]
      cases hk : p k <;> cases hk' : p k' <;> simp [upsert, hkk]

/-- The entries of some keys come from the assignments to these keys. -/
theorem filter_collapse (p : K → Bool) (sets : List (K × V)) :
    (collapse sets).filter (fun s => p s.1) = collapse (sets.filter fun s => p s.1) := by
  induction sets using List.reverseRecOn with
  | nil => rfl
  | append_singleton sets s ih =>
    rw [collapse_concat, filter_upsert, ih, List.filter_append]
    cases hp : p s.1 with
    | true => simp [hp, collapse_concat]
    | false => simp [hp]

theorem written_upsert (k : K) (v : V) (k' : K) (h : (entries.map Prod.fst).Nodup) :
    written (upsert k v entries) k' = if k = k' then some v else written entries k' := by
  induction entries with
  | nil => exact written_singleton k k' v
  | cons e entries ih =>
    obtain ⟨k₁, v₁⟩ := e
    rw [List.map_cons, List.nodup_cons] at h
    by_cases hk : k₁ = k
    · subst hk
      have hnone : written entries k₁ = none := by
        refine written_eq_none fun a ha e => h.1 ?_
        exact List.mem_map.mpr ⟨a, ha, e⟩
      rw [upsert, if_pos rfl, written, written]
      by_cases hk' : k₁ = k'
      · subst hk'
        simp [hnone]
      · simp [hk']
    · rw [upsert, if_neg hk, written, written, ih h.2]
      by_cases hk' : k = k'
      · subst hk'
        simp
      · simp [hk']

theorem keys_upsert (k : K) (v : V) (entries : List (K × V)) :
    (upsert k v entries).map Prod.fst =
      if k ∈ entries.map Prod.fst then entries.map Prod.fst else entries.map Prod.fst ++ [k] := by
  induction entries with
  | nil => rfl
  | cons e entries ih =>
    obtain ⟨k₁, v₁⟩ := e
    by_cases hk : k₁ = k
    · subst hk
      simp [upsert]
    · rw [upsert, if_neg hk, List.map_cons, ih, List.map_cons]
      by_cases hm : k ∈ entries.map Prod.fst
      · simp [hm]
      · simp [hm, Ne.symm hk]

theorem nodup_collapse (sets : List (K × V)) : ((collapse sets).map Prod.fst).Nodup := by
  induction sets using List.reverseRecOn with
  | nil => exact List.nodup_nil
  | append_singleton sets s ih =>
    rw [collapse_concat, keys_upsert]
    split
    · exact ih
    · rename_i hm
      rw [List.nodup_append]
      refine ⟨ih, by simp, ?_⟩
      rintro a ha b hb rfl
      exact hm (List.mem_singleton.mp hb ▸ ha)

/-- A buffer keeps the last value of every key. -/
theorem written_collapse_key (sets : List (K × V)) (k : K) :
    written (collapse sets) k = written sets k := by
  induction sets using List.reverseRecOn with
  | nil => rfl
  | append_singleton sets s ih =>
    rw [collapse_concat, written_upsert _ _ _ (nodup_collapse sets), ih, written_append,
      written_singleton]
    split <;> simp

theorem mem_of_mem_upsert {k : K} {v : V} {s : K × V} (h : s ∈ upsert k v entries) :
    s = (k, v) ∨ s ∈ entries := by
  induction entries with
  | nil => exact .inl (List.mem_singleton.mp h)
  | cons e entries ih =>
    obtain ⟨k', v'⟩ := e
    rw [upsert] at h
    split at h
    · rename_i hk
      rcases List.mem_cons.mp h with h | h
      · exact .inl (h.trans (by rw [hk]))
      · exact .inr (List.mem_cons_of_mem _ h)
    · rcases List.mem_cons.mp h with h | h
      · exact .inr (h ▸ List.mem_cons_self)
      · exact (ih h).imp_right (List.mem_cons_of_mem _)

theorem mem_of_mem_collapse {s : K × V} (h : s ∈ collapse sets) :
    s ∈ sets := by
  induction sets using List.reverseRecOn with
  | nil => exact h
  | append_singleton sets s' ih =>
    rw [collapse_concat] at h
    rcases mem_of_mem_upsert h with h | h
    · exact List.mem_append_right _ (List.mem_singleton.mpr h)
    · exact List.mem_append_left _ (ih h)

/-- The first entry is of the key that was assigned first. -/
theorem head?_collapse (sets : List (K × V)) :
    (collapse sets).head?.map Prod.fst = sets.head?.map Prod.fst := by
  have hhead : ∀ k v (entries : List (K × V)), (upsert k v entries).head?.map Prod.fst =
      (entries.head?.map Prod.fst).or (some k) := by
    intro k v entries
    cases entries with
    | nil => rfl
    | cons e entries =>
      obtain ⟨k', v'⟩ := e
      rw [upsert]
      split <;> rfl
  induction sets using List.reverseRecOn with
  | nil => rfl
  | append_singleton sets s ih =>
    rw [collapse_concat, hhead, ih, List.head?_append]
    cases sets.head? <;> rfl

/-! ## Keys that stand for assignments -/

variable {F X : Type} [DecidableEq F] (g : K × V → List (F × X)) (f : F)

/-- What the last value of a key leaves in a field. -/
def part (sets : List (K × V)) (k : K) : Option X :=
  (written sets k).bind fun v => written (g (k, v)) f

variable {g f}

omit [DecidableEq K] in
theorem written_flatMap_filter {p : K → Bool}
    (h : ∀ s ∈ sets, p s.1 = false → written (g s) f = none) :
    written ((sets.filter fun s => p s.1).flatMap g) f = written (sets.flatMap g) f := by
  induction sets with
  | nil => rfl
  | cons s sets ih =>
    have htail := ih fun s' hs' => h s' (List.mem_cons_of_mem _ hs')
    rw [List.filter_cons, List.flatMap_cons, written_append, ← htail]
    split
    · rw [List.flatMap_cons, written_append]
    · rename_i hp
      rw [h s List.mem_cons_self (by simpa using hp), Option.or_none]

/-- When only one key touches the field, and always does, its last value counts. -/
theorem written_flatMap_one {a : K} (hown : ∀ s ∈ sets, s.1 = a → (written (g s) f).isSome)
    (hother : ∀ s ∈ sets, s.1 ≠ a → written (g s) f = none) :
    written (sets.flatMap g) f = part g f sets a := by
  induction sets with
  | nil => rfl
  | cons s sets ih =>
    have htail := ih (fun s' hs' => hown s' (List.mem_cons_of_mem _ hs'))
      fun s' hs' => hother s' (List.mem_cons_of_mem _ hs')
    obtain ⟨k, v⟩ := s
    rw [List.flatMap_cons, written_append, htail, part, part, written]
    by_cases hk : k = a
    · subst hk
      rw [if_pos rfl]
      cases hw : written sets k with
      | none => simp
      | some v' =>
        have hsome := hown (k, v') (List.mem_cons_of_mem _ (mem_of_written hw)) rfl
        obtain ⟨x, hx⟩ := Option.isSome_iff_exists.mp hsome
        simp [hx]
    · rw [if_neg hk, hother (k, v) List.mem_cons_self hk, Option.or_none, Option.or_none]

/-- A buffer of two keys, in either order. -/
theorem written_pair {a b : K} (hab : a ≠ b) (hnd : (entries.map Prod.fst).Nodup)
    (hk : ∀ e ∈ entries, e.1 = a ∨ e.1 = b) :
    written (entries.flatMap g) f =
      if entries.head?.map Prod.fst = some b then
        (part g f entries a).or (part g f entries b)
      else (part g f entries b).or (part g f entries a) := by
  match entries with
  | [] => simp [part]
  | [(k, v)] =>
    rcases hk (k, v) List.mem_cons_self with rfl | rfl
    · simp [part, written, hab]
    · simp [part, written, Ne.symm hab]
  | [(k, v), (k', v')] =>
    have hne : k ≠ k' := by simpa using hnd
    rcases hk (k, v) (by simp) with rfl | rfl
    · rcases hk (k', v') (by simp) with rfl | rfl
      · exact absurd rfl hne
      · simp [part, written, written_append, hab, Ne.symm hab]
    · rcases hk (k', v') (by simp) with rfl | rfl
      · simp [part, written, written_append, hab, Ne.symm hab]
      · exact absurd rfl hne
  | (k, v) :: (k', v') :: (k'', v'') :: entries =>
    have h1 := hk (k, v) (by simp)
    have h2 := hk (k', v') (by simp)
    have h3 := hk (k'', v'') (by simp)
    simp only [List.map_cons, List.nodup_cons, List.mem_cons, not_or] at hnd
    obtain ⟨⟨h12, h13, -⟩, ⟨h23, -⟩, -⟩ := hnd
    dsimp only at h1 h2 h3
    rcases h1 with rfl | rfl <;> rcases h2 with rfl | rfl <;> rcases h3 with rfl | rfl <;>
      contradiction

/-- What a buffer leaves in a field that only two keys touch: of their last values, the one of the
key that was assigned first is applied first. -/
theorem written_collapse {a b : K} (hab : a ≠ b)
    (hnone : ∀ s ∈ sets, s.1 ≠ a → s.1 ≠ b → written (g s) f = none) :
    written ((collapse sets).flatMap g) f =
      if (sets.find? fun s => s.1 = a ∨ s.1 = b).map Prod.fst = some b then
        (part g f sets a).or (part g f sets b)
      else (part g f sets b).or (part g f sets a) := by
  let p : K → Bool := fun k => k = a ∨ k = b
  have hpart : ∀ k, p k = true → part g f (collapse (sets.filter fun s => p s.1)) k =
      part g f sets k := by
    intro k hk
    rw [part, written_collapse_key, written_filter hk, part]
  have hsub : ∀ s ∈ collapse (sets.filter fun s => p s.1), s.1 = a ∨ s.1 = b := by
    intro s hs
    simpa [p] using (List.mem_filter.mp (mem_of_mem_collapse hs)).2
  have hskip : ∀ s ∈ collapse sets, p s.1 = false → written (g s) f = none := by
    intro s hs hp
    simp only [p, decide_eq_false_iff_not, not_or] at hp
    exact hnone s (mem_of_mem_collapse hs) hp.1 hp.2
  rw [← written_flatMap_filter hskip, filter_collapse, written_pair hab (nodup_collapse _) hsub,
    head?_collapse, List.head?_filter, hpart a (by simp [p]), hpart b (by simp [p])]

end Collapse
end Lib
end SpannerAdbc
