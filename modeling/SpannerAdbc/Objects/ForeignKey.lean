import SpannerAdbc.Objects.Listing

/-!
# SpannerAdbc.Objects.ForeignKey

The columns that a foreign key refers to. `foreign_key_usages` drops what it cannot resolve: an
ordinal or a position that is no number, a position that the referenced constraint does not have, a
key without a row in `REFERENTIAL_CONSTRAINTS`. In a catalog whose keys resolve (`WellKeyed`) nothing
is dropped and the pairs are the ones that the positions say.
-/

namespace SpannerAdbc
namespace Objects

open Arrow Lib Metadata
open SpannerAdbc.Convert (parseI64)

def KeyColumnUsageRow.ordinal (k : KeyColumnUsageRow) : Option Int := parseI64 k.ordinalPosition

def KeyColumnUsageRow.position (k : KeyColumnUsageRow) : Option Int :=
  k.positionInUniqueConstraint.bind parseI64

/-- The column as a foreign key reports it. -/
def KeyColumnUsageRow.usage (k : KeyColumnUsageRow) : Usage :=
  { dbSchema := k.tableSchema, table := k.tableName, column := k.columnName }

/-- Every ordinal is a number, and they ascend. -/
def Ascending (keys : List KeyColumnUsageRow) : Prop :=
  (∀ k ∈ keys, k.ordinal.isSome = true) ∧
    keys.Pairwise fun a b => ∀ x ∈ a.ordinal, ∀ y ∈ b.ordinal, x < y

namespace Catalog

variable (rows : Catalog)

/-- The constraint that a foreign key refers to. -/
def referencedBy (schema name : List Char) : Option Key :=
  (rows.referential.find? fun r => r.constraintSchema = schema ∧ r.constraintName = name).map
    fun r => (r.uniqueConstraintSchema, r.uniqueConstraintName)

/-- `k` stands for the column `target` of the referenced constraint. -/
structure Refers (unique : Key) (k target : KeyColumnUsageRow) : Prop where
  mem : target ∈ rows.keyColumnsOf unique.1 unique.2
  position : ∃ position, k.position = some position ∧ target.ordinal = some position

/-- The ordinals of every constraint ascend, and every column of a foreign key has a position in the
constraint it refers to. -/
structure WellKeyed : Prop where
  ascending : ∀ schema name, Ascending (rows.keyColumnsOf schema name)
  positions : ∀ c ∈ rows.constraints, c.constraintType = foreignKey →
    ∀ k ∈ rows.keyColumnsOf c.tableSchema c.constraintName,
      ∃ unique target, rows.referencedBy c.tableSchema c.constraintName = some unique ∧
        rows.Refers unique k target

/-- A reported constraint of that name: its key columns, and beside each one of a foreign key the
column it refers to. -/
structure Paired (schema name : List Char) (c : Constraint) : Prop where
  named : c.name = some name
  columns : c.columns = (rows.keyColumnsOf schema name).map KeyColumnUsageRow.columnName
  usages : c.constraintType = foreignKey →
    List.Forall₂ (fun k usage => ∃ unique target, rows.referencedBy schema name = some unique ∧
        rows.Refers unique k target ∧ (∀ other, rows.Refers unique k other → other = target) ∧
        usage = target.usage)
      (rows.keyColumnsOf schema name) c.usages
  others : c.constraintType ≠ foreignKey → c.usages = []

end Catalog

section Pairing

variable {rows : Catalog} {a b k : KeyColumnUsageRow} {keys : List KeyColumnUsageRow} {unique : Key}
  {schema : List Char}

theorem Ascending.eq_of_ordinal (h : Ascending keys) (ha : a ∈ keys) (hb : b ∈ keys)
    (heq : a.ordinal = b.ordinal) :
    a = b := by
  obtain ⟨x, hx⟩ := Option.isSome_iff_exists.mp (h.1 a ha)
  have hy : b.ordinal = some x := heq ▸ hx
  obtain ⟨hsome, hpairs⟩ := h
  clear hsome heq
  induction hpairs with
  | nil => cases ha
  | @cons head keys hlt _ ih =>
    -- Of two rows in different places one comes first, and its ordinal would be smaller than itself.
    rcases List.mem_cons.mp ha with rfl | hta
    · rcases List.mem_cons.mp hb with rfl | htb
      · rfl
      · exact absurd (hlt b htb x hx x hy) (lt_irrefl x)
    · rcases List.mem_cons.mp hb with rfl | htb
      · exact absurd (hlt a hta x hy x hx) (lt_irrefl x)
      · exact ih hta htb

theorem Catalog.WellKeyed.target_unique (h : rows.WellKeyed) (ha : rows.Refers unique k a)
    (hb : rows.Refers unique k b) :
    a = b := by
  obtain ⟨p, hp, hap⟩ := ha.position
  obtain ⟨q, hq, hbq⟩ := hb.position
  refine (h.ascending _ _).eq_of_ordinal ha.mem hb.mem ?_
  rw [hap, hbq, ← hp, ← hq]

/-- The ordinal and the position of a key column. -/
def KeyColumnUsageRow.own (k : KeyColumnUsageRow) : Option (Int × Int) := do
  return (← k.ordinal, ← k.position)

theorem own_eq_some {p : Int × Int} :
    k.own = some p ↔ k.ordinal = some p.1 ∧ k.position = some p.2 := by
  obtain ⟨x, y⟩ := p
  rw [KeyColumnUsageRow.own]
  cases k.ordinal <;> cases k.position <;> simp

/-- The own columns of a key are in order already: sorting them changes nothing. -/
theorem mergeSort_own (h : Ascending keys) :
    ((keys.filterMap KeyColumnUsageRow.own).mergeSort fun a b => a.1 ≤ b.1) =
      keys.filterMap KeyColumnUsageRow.own := by
  refine List.mergeSort_of_pairwise (List.pairwise_filterMap.mpr (h.2.imp fun {a b} hlt => ?_))
  intro x hx y hy
  have := hlt x.1 (own_eq_some.mp hx).1 y.1 (own_eq_some.mp hy).1
  exact decide_eq_true (by omega)

theorem usagesOf_eq {name : List Char} (href : rows.referencedBy schema name = some unique) :
    rows.usagesOf schema name =
      (((rows.keyColumnsOf schema name).filterMap KeyColumnUsageRow.own).mergeSort
        fun a b => a.1 ≤ b.1).filterMap fun column =>
          ((rows.keyColumnsOf unique.1 unique.2).reverse.find? fun k =>
            k.ordinal = some column.2).map KeyColumnUsageRow.usage := by
  obtain ⟨r, hr, rfl⟩ := Option.map_eq_some_iff.mp href
  have hown : (fun k : KeyColumnUsageRow => do
      return (← parseI64 k.ordinalPosition, ← parseI64 (← k.positionInUniqueConstraint))) =
      KeyColumnUsageRow.own := by
    funext k
    rw [KeyColumnUsageRow.own, KeyColumnUsageRow.ordinal, KeyColumnUsageRow.position]
    cases parseI64 k.ordinalPosition <;> cases k.positionInUniqueConstraint <;> rfl
  rw [Catalog.usagesOf, hr]
  simp only [hown]
  rfl

/-- The column that a key column stands for is found. -/
theorem find_target {target : KeyColumnUsageRow} (h : rows.WellKeyed)
    (href : rows.Refers unique k target) {position : Int} (hposition : k.position = some position) :
    (rows.keyColumnsOf unique.1 unique.2).reverse.find? (fun k => k.ordinal = some position) =
      some target := by
  obtain ⟨p, hp, htarget⟩ := href.position
  obtain rfl : p = position := Option.some.inj (hp.symm.trans hposition)
  cases hfound : (rows.keyColumnsOf unique.1 unique.2).reverse.find? fun k =>
      k.ordinal = some p with
  | none =>
    have := List.find?_eq_none.mp hfound target (List.mem_reverse.mpr href.mem)
    exact absurd (decide_eq_true htarget) this
  | some found =>
    have hordinal : found.ordinal = some p := by simpa using List.find?_some hfound
    have hmem : found ∈ rows.keyColumnsOf unique.1 unique.2 :=
      List.mem_reverse.mp (List.mem_of_find?_eq_some hfound)
    rw [h.target_unique ⟨hmem, p, hp, hordinal⟩ href]

/-- A foreign key of a well-keyed catalog: no column is dropped, and each comes out beside its own. -/
theorem forall₂_usagesOf (h : rows.WellKeyed) {c : ConstraintsRow} (hc : c ∈ rows.constraints)
    (hkind : c.constraintType = foreignKey) :
    List.Forall₂ (fun k usage => ∃ unique target,
        rows.referencedBy c.tableSchema c.constraintName = some unique ∧
        rows.Refers unique k target ∧ (∀ other, rows.Refers unique k other → other = target) ∧
        usage = target.usage)
      (rows.keyColumnsOf c.tableSchema c.constraintName)
      (rows.usagesOf c.tableSchema c.constraintName) := by
  have hpositions := h.positions c hc hkind
  cases href : rows.referencedBy c.tableSchema c.constraintName with
  | none =>
    -- Without a referenced constraint there is no key column whose position could name an ordinal.
    have hnil : rows.keyColumnsOf c.tableSchema c.constraintName = [] := by
      refine List.eq_nil_iff_forall_not_mem.mpr fun k hk => ?_
      obtain ⟨unique, target, hsome, -⟩ := hpositions k hk
      rw [href] at hsome
      cases hsome
    have husages : rows.usagesOf c.tableSchema c.constraintName = [] := by
      rw [Catalog.usagesOf, Option.map_eq_none_iff.mp href]
    rw [hnil, husages]
    exact .nil
  | some unique =>
    rw [usagesOf_eq href, mergeSort_own (h.ascending _ _), List.filterMap_filterMap]
    refine forall₂_filterMap fun k hk => ?_
    obtain ⟨unique', target, hsome, htarget⟩ := hpositions k hk
    obtain rfl : unique = unique' := Option.some.inj (href.symm.trans hsome)
    obtain ⟨position, hposition, -⟩ := htarget.position
    obtain ⟨ordinal, hordinal⟩ := Option.isSome_iff_exists.mp ((h.ascending _ _).1 k hk)
    have hown : k.own = some (ordinal, position) := own_eq_some.mpr ⟨hordinal, hposition⟩
    refine ⟨target.usage, ?_, unique, target, rfl, htarget,
      fun other hother => h.target_unique hother htarget, rfl⟩
    rw [hown, Option.bind_some, find_target h htarget hposition]
    rfl

theorem paired_listedConstraints (h : rows.WellKeyed) {table : List Char} {c : Constraint}
    (hc : c ∈ rows.listedConstraints schema table) : ∃ name, rows.Paired schema name c := by
  obtain ⟨row, hrow, rfl⟩ := List.mem_map.mp hc
  obtain ⟨hmem, hkey⟩ := List.mem_filter.mp hrow
  obtain ⟨rfl, rfl⟩ := of_decide_eq_true hkey
  refine ⟨row.constraintName, rfl, rfl, fun hkind => ?_, fun hkind => if_neg hkind⟩
  simp only at hkind
  rw [if_pos hkind]
  exact forall₂_usagesOf h hmem hkind

end Pairing

/-- For all filters, every constraint of a listed table is reported, with its key columns; a foreign
key has beside each one the column of the referenced constraint that its position names, and the
other constraints have none. -/
theorem foreign_keys_paired (filters : ObjectFilters) {rows : Catalog} {batches : ObjectBatches}
    (hbatches : batches.Hold rows) (hkeyed : rows.WellKeyed) :
    assembleObjects batches filters = .ok (rows.listing filters) ∧
      ∀ s ∈ rows.listing filters, ∀ t ∈ s.tables,
        t.constraints.map (fun c => (c.name, c.constraintType)) =
          (rows.constraints.filter fun c => c.tableSchema = s.name ∧ c.tableName = t.name).map
            (fun c => (some c.constraintName, c.constraintType)) ∧
        ∀ c ∈ t.constraints, ∃ name, rows.Paired s.name name c := by
  refine ⟨assembleObjects_eq hbatches, fun s hs t ht => ?_⟩
  obtain ⟨schema, -, rfl⟩ := List.mem_map.mp hs
  obtain ⟨row, -, rfl⟩ := List.mem_map.mp ht
  refine ⟨?_, fun c hc => paired_listedConstraints hkeyed hc⟩
  simp only [Catalog.listedConstraints, List.map_map]
  rfl

theorem ascending_keyColumnsOf {rows : Catalog}
    (hsome : ∀ k ∈ rows.keyColumns, k.ordinal.isSome = true)
    (hpairs : rows.keyColumns.Pairwise fun a b =>
      (a.constraintSchema, a.constraintName) = (b.constraintSchema, b.constraintName) →
        ∀ x ∈ a.ordinal, ∀ y ∈ b.ordinal, x < y) (schema name : List Char) :
    Ascending (rows.keyColumnsOf schema name) := by
  refine ⟨fun k hk => hsome k (List.mem_filter.mp hk).1, ?_⟩
  refine (hpairs.filter _).imp_of_mem fun {a b} ha hb hlt => hlt ?_
  obtain ⟨hschema, hname⟩ := of_decide_eq_true (List.mem_filter.mp ha).2
  obtain ⟨hschema', hname'⟩ := of_decide_eq_true (List.mem_filter.mp hb).2
  rw [hschema, hname, hschema', hname']

/-- Orders refer to items in another schema, with the columns of the key the other way round. -/
def orders : Catalog where
  schemata := ["".toList, "ref".toList]
  tables := [⟨"".toList, "orders".toList, "BASE TABLE".toList⟩,
    ⟨"ref".toList, "items".toList, "BASE TABLE".toList⟩]
  columns := []
  constraints := [⟨"".toList, "orders".toList, "fk".toList, foreignKey⟩,
    ⟨"ref".toList, "items".toList, "pk".toList, "PRIMARY KEY".toList⟩]
  keyColumns := [
    ⟨"".toList, "fk".toList, "".toList, "orders".toList, "a".toList, "1".toList, some "2".toList⟩,
    ⟨"".toList, "fk".toList, "".toList, "orders".toList, "b".toList, "2".toList, some "1".toList⟩,
    ⟨"ref".toList, "pk".toList, "ref".toList, "items".toList, "x".toList, "1".toList, none⟩,
    ⟨"ref".toList, "pk".toList, "ref".toList, "items".toList, "y".toList, "2".toList, none⟩]
  referential := [⟨"".toList, "fk".toList, "ref".toList, "pk".toList⟩]

def ordersBatches : ObjectBatches := orders.batches (by simp [orders])

theorem hold_ordersBatches : ordersBatches.Hold orders := hold_batches _ _

theorem wellKeyed_orders : orders.WellKeyed where
  ascending := ascending_keyColumnsOf (by decide) (by decide)
  positions c hc hkind k hk := by
    have hfk : c = ⟨"".toList, "orders".toList, "fk".toList, foreignKey⟩ := by
      rcases List.mem_cons.mp hc with rfl | hc
      · rfl
      · obtain rfl := List.mem_singleton.mp hc
        exact absurd hkind (by decide)
    subst hfk
    have hkeys : k ∈ orders.keyColumns.take 2 := hk
    have htargets : ∀ k ∈ orders.keyColumns.take 2, ∃ target ∈ orders.keyColumns.drop 2,
        ∃ position ∈ k.position, target.ordinal = some position := by decide
    obtain ⟨target, hmem, position, hposition, hordinal⟩ := htargets k hkeys
    exact ⟨("ref".toList, "pk".toList), target, rfl, hmem, position, hposition, hordinal⟩

/-- The referenced schema is filtered out, and the key still reports its columns. -/
theorem foreign_keys_paired_orders :
    let filters : ObjectFilters := ⟨some [], none, none, none⟩
    let fk : Constraint := ⟨some "fk".toList, foreignKey, ["a".toList, "b".toList],
      [⟨"ref".toList, "items".toList, "y".toList⟩, ⟨"ref".toList, "items".toList, "x".toList⟩]⟩
    orders.listing filters = [⟨[], [⟨"orders".toList, "BASE TABLE".toList, [], [fk]⟩]⟩] ∧
      assembleObjects ordersBatches filters = .ok (orders.listing filters) ∧
      ∃ name, orders.Paired [] name fk := by
  intro filters fk
  have husages : orders.usagesOf [] "fk".toList = fk.usages := by
    rw [usagesOf_eq rfl, mergeSort_own (wellKeyed_orders.ascending _ _)]
    decide
  have hlisting :
      orders.listing filters = [⟨[], [⟨"orders".toList, "BASE TABLE".toList, [], [fk]⟩]⟩] := by
    have hschemata : (orders.schemata.filter fun schema => Accepts filters.dbSchema schema) = [[]] :=
      by decide
    have hconstraints : orders.listedConstraints [] "orders".toList = [fk] := by
      change [Constraint.mk (some "fk".toList) foreignKey ["a".toList, "b".toList]
        (orders.usagesOf [] "fk".toList)] = [fk]
      rw [husages]
    rw [Catalog.listing, hschemata]
    change [DbSchema.mk [] [⟨"orders".toList, "BASE TABLE".toList, [],
      orders.listedConstraints [] "orders".toList⟩]] = _
    rw [hconstraints]
  obtain ⟨hassembled, hpaired⟩ := foreign_keys_paired filters hold_ordersBatches wellKeyed_orders
  refine ⟨hlisting, hassembled, ?_⟩
  rw [hlisting] at hpaired
  exact (hpaired _ List.mem_cons_self _ List.mem_cons_self).2 _ List.mem_cons_self

end Objects
end SpannerAdbc
