import SpannerAdbc.Lib.Overwrite

/-!
# SpannerAdbc.Lib.Lookup

Hash maps that are filled in a loop and then only looked up. A map is the list of its entries, one
for each key; `upsert` inserts.

Looking up a map that was filled from rows is the same as a scan of the rows: all rows of the key
where the loop pushes (`lookup_groupBy`), the first one where it keeps what is there (`lookup_firstBy`), the
last one where it overwrites (`lookup_collapse`).
-/

namespace SpannerAdbc
namespace Lib

section Lookup

variable {K V A : Type} [DecidableEq K]

def lookup (k : K) : List (K × V) → Option V
  | [] => none
  | (k', v) :: m => if k' = k then some v else lookup k m

theorem lookup_upsert (k k' : K) (v : V) (m : List (K × V)) :
    lookup k (upsert k' v m) = if k' = k then some v else lookup k m := by
  induction m with
  | nil => rfl
  | cons e m ih =>
    obtain ⟨k₁, v₁⟩ := e
    rw [upsert]
    split
    · rename_i h
      subst h
      simp only [lookup]
      split <;> rfl
    · rename_i h
      simp only [lookup, ih]
      by_cases hk : k₁ = k
      · subst hk
        simp [Ne.symm h]
      · simp [hk]

/-- `entry(k).or_default().push(v)`. -/
def push (k : K) (v : V) (m : List (K × List V)) : List (K × List V) :=
  upsert k ((lookup k m).getD [] ++ [v]) m

/-- `entry(k).or_insert(v)`. -/
def orInsert (k : K) (v : V) (m : List (K × V)) : List (K × V) :=
  if (lookup k m).isSome then m else upsert k v m

def groupBy (key : A → K) (value : A → V) (rows : List A) : List (K × List V) :=
  rows.foldl (fun m a => push (key a) (value a) m) []

def firstBy (key : A → K) (value : A → V) (rows : List A) : List (K × V) :=
  rows.foldl (fun m a => orInsert (key a) (value a) m) []

variable (key : A → K) (value : A → V) (rows : List A) (k : K)

theorem lookup_groupBy : (lookup k (groupBy key value rows)).getD [] =
    (rows.filter fun a => key a = k).map value := by
  induction rows using List.reverseRecOn with
  | nil => rfl
  | append_singleton rows a ih =>
    rw [groupBy, List.foldl_append, List.foldl_cons, List.foldl_nil, ← groupBy, push, lookup_upsert,
      List.filter_append, List.map_append]
    split
    · rename_i h
      subst h
      simp [ih]
    · rename_i h
      simp [h, ih]

theorem lookup_firstBy : lookup k (firstBy key value rows) =
    (rows.find? fun a => key a = k).map value := by
  induction rows using List.reverseRecOn with
  | nil => rfl
  | append_singleton rows a ih =>
    rw [firstBy, List.foldl_append, List.foldl_cons, List.foldl_nil, ← firstBy, orInsert,
      List.find?_append]
    by_cases h : key a = k
    · subst h
      rw [ih]
      cases hf : rows.find? fun b => key b = key a with
      | some b => simp [ih, hf]
      | none => simp [lookup_upsert]
    · have hnone : [a].find? (fun b => key b = k) = none := by simp [h]
      rw [hnone, Option.or_none]
      split
      · exact ih
      · rw [lookup_upsert, if_neg h, ih]

theorem lookup_collapse (sets : List (K × V)) : lookup k (collapse sets) =
    (sets.reverse.find? fun s => s.1 = k).map Prod.snd := by
  induction sets using List.reverseRecOn with
  | nil => rfl
  | append_singleton sets s ih =>
    rw [collapse_concat, lookup_upsert, List.reverse_append, List.reverse_singleton,
      List.singleton_append, List.find?_cons]
    by_cases h : s.1 = k
    · simp [h]
    · simp [h, ih]

/-- `remove(k)`: what is left. -/
def remove (m : List (K × V)) : List (K × V) := m.filter fun e => e.1 ≠ k

theorem lookup_remove (k' : K) (m : List (K × V)) :
    lookup k' (remove k m) = if k' = k then none else lookup k' m := by
  induction m with
  | nil => simp [remove, lookup]
  | cons e m ih =>
    obtain ⟨k₁, v₁⟩ := e
    rw [remove, List.filter_cons, ← remove]
    by_cases hk : k₁ = k
    · subst hk
      simp only [ne_eq, not_true_eq_false, decide_false, Bool.false_eq_true, if_false, ih, lookup]
      by_cases hk' : k' = k₁
      · simp [hk']
      · simp [hk', Ne.symm hk']
    · simp only [ne_eq, hk, not_false_eq_true, decide_true, if_true, lookup, ih]
      by_cases hk' : k₁ = k'
      · subst hk'
        simp [hk]
      · simp [hk']

end Lookup

/-! ## Groups with an index

Groups in a list, in the order in which their keys were first seen, beside a map from the keys to
their places in it. -/

section Groups

variable {K V : Type} [DecidableEq K]

structure Groups (K V : Type) where
  entries : List (K × List V)
  index : List (K × Nat)

def Groups.empty : Groups K V := { entries := [], index := [] }

/-- Extends the group of the key where it stands, or begins a group at the end. -/
def Groups.extend (groups : Groups K V) (row : K × List V) : Groups K V :=
  match lookup row.1 groups.index with
  | some i =>
    { groups with entries := groups.entries.modify i fun e => (e.1, e.2 ++ row.2) }
  | none =>
    { entries := groups.entries ++ [row]
      index := upsert row.1 groups.entries.length groups.index }

/-- The keys in the order in which they are first seen. -/
def firstSeen (ks : List K) : List K := ks.eraseDups

/-- What the rows have for a key. -/
def gather (rows : List (K × List V)) (k : K) : List V :=
  (rows.filter fun row => row.1 = k).flatMap Prod.snd

theorem gather_concat (rows : List (K × List V)) (row : K × List V) (k : K) :
    gather (rows ++ [row]) k = gather rows k ++ if row.1 = k then row.2 else [] := by
  rw [gather, List.filter_append, List.flatMap_append, ← gather]
  by_cases h : row.1 = k <;> simp [h]

theorem gather_eq_nil {rows : List (K × List V)} {k : K} (h : k ∉ rows.map Prod.fst) :
    gather rows k = [] := by
  have hfilter : (rows.filter fun row => row.1 = k) = [] := by
    refine List.filter_eq_nil_iff.mpr fun row hrow hk => h ?_
    exact List.mem_map.mpr ⟨row, hrow, of_decide_eq_true hk⟩
  rw [gather, hfilter]
  rfl

/-- The groups hold these rows. -/
structure Groups.Holds (groups : Groups K V) (rows : List (K × List V)) : Prop where
  keys : groups.entries.map Prod.fst = firstSeen (rows.map Prod.fst)
  index : ∀ k i, lookup k groups.index = some i ↔ (groups.entries.map Prod.fst)[i]? = some k
  values : ∀ e ∈ groups.entries, e.2 = gather rows e.1

theorem mem_firstSeen {ks : List K} {k : K} : k ∈ firstSeen ks ↔ k ∈ ks := List.mem_eraseDups

theorem firstSeen_concat (ks : List K) (k : K) :
    firstSeen (ks ++ [k]) = if k ∈ ks then firstSeen ks else firstSeen ks ++ [k] := by
  rw [firstSeen, List.eraseDups_append, ← firstSeen]
  by_cases h : k ∈ ks <;> simp [h, List.removeAll, List.eraseDups_cons]

theorem getElem?_concat_eq_some {A : Type} {as : List A} {a b : A} {i : Nat} :
    (as ++ [a])[i]? = some b ↔ as[i]? = some b ∨ i = as.length ∧ a = b := by
  by_cases hi : i < as.length
  · rw [List.getElem?_append_left hi]
    exact ⟨.inl, fun h => h.resolve_right fun h => absurd h.1 (by omega)⟩
  · rw [List.getElem?_append_right (by omega), List.getElem?_eq_none (by omega : as.length ≤ i)]
    by_cases hlen : i = as.length
    · simp [hlen]
    · have hout : [a][i - as.length]? = none := List.getElem?_eq_none (by simp; omega)
      simp [hout, hlen]

section Extend

variable {groups : Groups K V} {rows : List (K × List V)}

theorem Groups.Holds.lookup_eq_none (h : groups.Holds rows) {k : K} :
    lookup k groups.index = none ↔ k ∉ rows.map Prod.fst := by
  rw [← mem_firstSeen, ← h.keys, List.mem_iff_getElem?, not_exists,
    Option.eq_none_iff_forall_ne_some]
  exact forall_congr' fun i => not_congr (h.index k i)

theorem Groups.Holds.extend_old (h : groups.Holds rows) {row : K × List V} {i : Nat}
    (hi : lookup row.1 groups.index = some i) : (groups.extend row).Holds (rows ++ [row]) := by
  have hseen : row.1 ∈ rows.map Prod.fst := by
    by_contra hnew
    rw [h.lookup_eq_none.mpr hnew] at hi
    cases hi
  have hextend : groups.extend row =
      { groups with entries := groups.entries.modify i fun e => (e.1, e.2 ++ row.2) } := by
    rw [Groups.extend, hi]
  have hkeys : (groups.entries.modify i fun e => (e.1, e.2 ++ row.2)).map Prod.fst =
      groups.entries.map Prod.fst := by
    refine List.ext_getElem? fun j => ?_
    rw [List.getElem?_map, List.getElem?_map, List.getElem?_modify]
    cases groups.entries[j]? with
    | none => rfl
    | some e => by_cases hj : i = j <;> simp [hj]
  rw [hextend]
  refine ⟨?_, ?_, ?_⟩
  · rw [hkeys, h.keys, List.map_append, List.map_singleton, firstSeen_concat, if_pos hseen]
  · intro k j
    rw [hkeys]
    exact h.index k j
  · intro e he
    obtain ⟨j, hj⟩ := List.mem_iff_getElem?.mp he
    rw [List.getElem?_modify] at hj
    obtain ⟨old, hold, rfl⟩ := Option.map_eq_some_iff.mp hj
    have hvalues := h.values old (List.mem_of_getElem? hold)
    have hplace : lookup old.1 groups.index = some j := by
      rw [h.index, List.getElem?_map, hold]
      rfl
    rw [gather_concat]
    by_cases hij : i = j
    · subst hij
      have hkey : (groups.entries.map Prod.fst)[i]? = some row.1 := (h.index _ _).mp hi
      rw [List.getElem?_map, hold] at hkey
      have hsame : old.1 = row.1 := Option.some.inj hkey
      simp [hsame ▸ hvalues, hsame]
    · have hother : row.1 ≠ old.1 := by
        intro hsame
        rw [hsame, hplace] at hi
        exact hij (Option.some.inj hi).symm
      simp [hij, hother, hvalues]

theorem Groups.Holds.extend_new (h : groups.Holds rows) {row : K × List V}
    (hnone : lookup row.1 groups.index = none) : (groups.extend row).Holds (rows ++ [row]) := by
  have hnew := h.lookup_eq_none.mp hnone
  have hextend : groups.extend row =
      { entries := groups.entries ++ [row]
        index := upsert row.1 groups.entries.length groups.index } := by
    rw [Groups.extend, hnone]
  have hkeys : row.1 ∉ groups.entries.map Prod.fst := by
    rw [h.keys, mem_firstSeen]
    exact hnew
  rw [hextend]
  refine ⟨?_, ?_, ?_⟩
  · rw [List.map_append, h.keys, List.map_append, List.map_singleton, firstSeen_concat, if_neg hnew]
  · intro k i
    rw [lookup_upsert, List.map_append, List.map_singleton, getElem?_concat_eq_some, List.length_map]
    by_cases hk : row.1 = k
    · subst hk
      have hout : (groups.entries.map Prod.fst)[i]? ≠ some row.1 := fun hi =>
        hkeys (List.mem_of_getElem? hi)
      simp only [if_true, Option.some.injEq, hout, false_or, and_true]
      exact eq_comm
    · simp only [hk, and_false, or_false]
      exact h.index k i
  · intro e he
    rw [gather_concat]
    rcases List.mem_append.mp he with he | he
    · have hother : row.1 ≠ e.1 := by
        intro hsame
        exact hkeys (List.mem_map.mpr ⟨e, he, hsame.symm⟩)
      rw [if_neg hother, List.append_nil]
      exact h.values e he
    · obtain rfl := List.mem_singleton.mp he
      rw [gather_eq_nil hnew, if_pos rfl, List.nil_append]

theorem Groups.Holds.extend (h : groups.Holds rows) (row : K × List V) :
    (groups.extend row).Holds (rows ++ [row]) := by
  cases hlookup : lookup row.1 groups.index with
  | none => exact h.extend_new hlookup
  | some i => exact h.extend_old hlookup

end Extend

/-- A loop that extends the groups with one row after the other. -/
theorem Groups.holds_foldl (rows : List (K × List V)) :
    (rows.foldl Groups.extend Groups.empty).Holds rows := by
  induction rows using List.reverseRecOn with
  | nil => exact ⟨rfl, by simp [Groups.empty, lookup], by simp [Groups.empty]⟩
  | append_singleton rows row ih =>
    rw [List.foldl_append]
    exact ih.extend row

/-- The groups come out in the order of their first rows, each with all that its rows have. -/
theorem Groups.entries_foldl (rows : List (K × List V)) :
    (rows.foldl Groups.extend Groups.empty).entries =
      (firstSeen (rows.map Prod.fst)).map fun k => (k, gather rows k) := by
  have h := Groups.holds_foldl rows
  rw [← h.keys, List.map_map]
  refine (List.map_id _).symm.trans (List.map_congr_left fun e he => ?_)
  exact Prod.ext rfl (h.values e he)

end Groups

variable {A B : Type} {rows : List A}

/-- A loop over the row numbers of a table whose body reads the row of that number. -/
theorem foldl_range {M : Type} {f : M → Nat → M} {g : M → A → M}
    (h : ∀ m r a, rows[r]? = some a → f m r = g m a) (m : M) :
    (List.range rows.length).foldl f m = rows.foldl g m := by
  induction rows using List.reverseRecOn generalizing m with
  | nil => rfl
  | append_singleton rows a ih =>
    have hrows : ∀ m r b, rows[r]? = some b → f m r = g m b := fun m r b hb =>
      h m r b (by rw [List.getElem?_append_left (List.getElem?_eq_some_iff.mp hb).1, hb])
    rw [List.length_append, List.length_singleton, List.range_succ, List.foldl_append,
      List.foldl_append, ih hrows, List.foldl_cons, List.foldl_cons, List.foldl_nil, List.foldl_nil]
    exact h _ _ a (by simp)

theorem filterMap_range {f : Nat → Option B} {g : A → Option B}
    (h : ∀ r a, rows[r]? = some a → f r = g a) :
    (List.range rows.length).filterMap f = rows.filterMap g := by
  induction rows using List.reverseRecOn with
  | nil => rfl
  | append_singleton rows a ih =>
    have hrows : ∀ r b, rows[r]? = some b → f r = g b := fun r b hb =>
      h r b (by rw [List.getElem?_append_left (List.getElem?_eq_some_iff.mp hb).1, hb])
    have hlast : [rows.length].filterMap f = [a].filterMap g := by
      rw [List.filterMap_cons, List.filterMap_cons, h _ a (by simp)]
      rfl
    rw [List.length_append, List.length_singleton, List.range_succ, List.filterMap_append,
      List.filterMap_append, ih hrows, hlast]

/-- The elements at these places, in the order of the places. -/
def reorder {A : Type} (order : List Nat) (as : List A) : List A := order.filterMap fun i => as[i]?

theorem map_reorder (f : A → B) (order : List Nat) (as : List A) :
    (reorder order as).map f = reorder order (as.map f) := by
  simp [reorder, List.map_filterMap]

theorem perm_reorder {order : List Nat} {as : List A} (h : order.Perm (List.range as.length)) :
    (reorder order as).Perm as := by
  have hall : (List.range as.length).filterMap (fun i => as[i]?) = as := by
    rw [filterMap_range (g := some) fun _ _ h => h, List.filterMap_some]
  have hperm := h.filterMap fun i => as[i]?
  rwa [hall] at hperm

/-- A loop that skips no row. -/
theorem forall₂_filterMap {R : A → B → Prop} {f : A → Option B}
    (h : ∀ a ∈ rows, ∃ b, f a = some b ∧ R a b) : List.Forall₂ R rows (rows.filterMap f) := by
  induction rows with
  | nil => exact .nil
  | cons a rows ih =>
    obtain ⟨b, hb, hr⟩ := h a List.mem_cons_self
    rw [List.filterMap_cons, hb]
    exact .cons hr (ih fun a' ha' => h a' (List.mem_cons_of_mem a ha'))

/-- A loop that skips some rows and pushes something for every other one. -/
theorem filterMap_skip (skip : A → Bool) (f : A → B) (rows : List A) :
    rows.filterMap (fun a => if skip a then none else some (f a)) =
      (rows.filter fun a => !skip a).map f := by
  induction rows with
  | nil => rfl
  | cons a rows ih =>
    rw [List.filterMap_cons, List.filter_cons]
    cases skip a <;> simp [ih]

/-! ## The first of each key -/

section Distinct

variable {K A : Type} [DecidableEq K] (key : A → K)

/-- A loop that skips what has a key it has seen. -/
def keepFirst : List K → List A → List A
  | _, [] => []
  | seen, a :: as =>
    if key a ∈ seen then keepFirst seen as else a :: keepFirst (key a :: seen) as

theorem mem_keys_keepFirst {k : K} {seen : List K} {as : List A} :
    k ∈ (keepFirst key seen as).map key ↔ k ∈ as.map key ∧ k ∉ seen := by
  induction as generalizing seen with
  | nil => simp [keepFirst]
  | cons a as ih =>
    rw [keepFirst]
    by_cases ha : key a ∈ seen
    · rw [if_pos ha, ih, List.map_cons, List.mem_cons, and_congr_left_iff]
      intro hk
      refine (or_iff_right ?_).symm
      rintro rfl
      exact hk ha
    · rw [if_neg ha, List.map_cons, List.map_cons, List.mem_cons, List.mem_cons, ih, List.mem_cons]
      by_cases hk : k = key a
      · simp [hk, ha]
      · simp [hk]

theorem nodup_keepFirst (seen : List K) (as : List A) : ((keepFirst key seen as).map key).Nodup := by
  induction as generalizing seen with
  | nil => exact List.nodup_nil
  | cons a as ih =>
    rw [keepFirst]
    split
    · exact ih seen
    · rw [List.map_cons, List.nodup_cons, mem_keys_keepFirst]
      exact ⟨fun h => h.2 List.mem_cons_self, ih _⟩

end Distinct

end Lib
end SpannerAdbc
