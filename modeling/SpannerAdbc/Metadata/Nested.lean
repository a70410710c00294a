import Mathlib.Data.List.Nodup
import Mathlib.Data.List.Pairwise
import SpannerAdbc.Arrow.Encode
import SpannerAdbc.Lib.Lookup
import SpannerAdbc.Lib.Result

/-!
# SpannerAdbc.Metadata.Nested

The helpers behind the nested result batches of the metadata methods: lookups in the result schema, and
lists, structs and dense unions around arrays that are built already. Each helper is stated over the
rows (`Encodes`), together with the condition under which it succeeds: that the offsets of its lists
fit an `i32`.
-/

namespace SpannerAdbc
namespace Metadata

open Arrow Lib

/-- `message` is the text of an Arrow error. -/
def arrowErr (message : ArrowError → List Char) (e : ArrowError) : Error :=
  err ("failed to build metadata result batch: ".toList ++ message e) .internal

def shapeErr (expected : List Char) : Error :=
  err ("unexpected ADBC result schema shape: expected ".toList ++ expected) .internal

def field (fields : List Field) (name : List Char) : Except Error Field :=
  match fields.find? fun f => f.name = name with
  | some f => .ok f
  | none => .error (shapeErr ("field `".toList ++ name ++ "`".toList))

def listItem (listField : Field) : Except Error Field :=
  match listField.dataType with
  | .list item => .ok item
  | _ => .error (shapeErr ("`".toList ++ listField.name ++ "` to be a list".toList))

def structFields (structField : Field) : Except Error Fields :=
  match structField.dataType with
  | .struct fields => .ok fields
  | _ => .error (shapeErr ("`".toList ++ structField.name ++ "` to be a struct".toList))

def offsetError : Error := err "metadata result list exceeds the i32 offset range".toList .internal

/-- The loop of `list_of_nullable` over the lengths: where each list ends. -/
def listEnds (acc : Nat) : List Nat → Except Error (List Nat)
  | [] => .ok []
  | len :: lengths =>
    if len < 2 ^ 31 ∧ acc + len < 2 ^ 31 then do
      return (acc + len) :: (← listEnds (acc + len) lengths)
    else .error offsetError

theorem pairwise_of_listEnds {acc : Nat} {lengths ends : List Nat}
    (h : listEnds acc lengths = .ok ends) : (acc :: ends).Pairwise (· ≤ ·) := by
  induction lengths generalizing acc ends with
  | nil =>
    cases h
    exact List.pairwise_singleton _ _
  | cons len lengths ih =>
    rw [listEnds] at h
    split at h
    · obtain ⟨rest, hrest, h⟩ := bind_eq_ok.mp h
      cases h
      have hsorted := ih hrest
      refine List.pairwise_cons.mpr ⟨fun e he => ?_, hsorted⟩
      rcases List.mem_cons.mp he with rfl | he
      · omega
      · have := List.rel_of_pairwise_cons hsorted he
        omega
    · cases h

variable {validity : List Bool}

theorem valid_of_listTryNew {item : Field} {start : Nat} {ends : List Nat} {child a : ArrayData}
    (hsorted : (start :: ends).Pairwise (· ≤ ·)) (hchild : child.Valid)
    (h : listTryNew item (start :: ends) child validity = .ok a) : a.Valid := by
  obtain ⟨hlast, hlen, hnulls, htype, rfl⟩ := listTryNew_eq_ok.mp h
  refine ⟨by simpa using hlen.symm, hsorted, fun offset hoffset => ?_, htype, hnulls, hchild⟩
  have hmax := hsorted.rel_getLast hoffset
  rw [List.getLast?_eq_some_getLast (List.cons_ne_nil _ _), Option.getD_some] at hlast
  omega

theorem forall_valid_map (arrays : List ArrayRef) : ∀ a ∈ arrays.map Subtype.val, a.Valid := by
  intro a ha
  obtain ⟨a, -, rfl⟩ := List.mem_map.mp ha
  exact a.2

theorem forall_valid_ofList (arrays : List ArrayRef) :
    ∀ child ∈ (Children.ofList (arrays.map Subtype.val)).toList, child.Valid := by
  rw [toList_ofList]
  exact forall_valid_map arrays

theorem valid_of_structTryNew {fields : Fields} {children : Children} {a : ArrayData}
    (hvalid : ∀ child ∈ children.toList, child.Valid)
    (h : structTryNew fields children validity = .ok a) : a.Valid := by
  obtain ⟨-, hchildren, rfl⟩ := (structTryNew_eq_ok hvalid).mp h
  exact hchildren

/-! ## Arrays -/

def newNullRef (type : DataType) (n : Nat) : ArrayRef := ⟨newNullArray type n, valid_newNullArray type n⟩

def newEmptyRef (type : DataType) : ArrayRef := newNullRef type 0

/-- `StringArray::from_iter`. -/
def stringsOpt (values : List (Option (List Char))) : ArrayRef :=
  ⟨.scalars .utf8 (values.map (·.map .text)), rfl, by
    intro slot hslot value hvalue
    obtain ⟨v, -, rfl⟩ := List.mem_map.mp hslot
    obtain ⟨t, -, rfl⟩ := Option.map_eq_some_iff.mp hvalue
    rfl⟩

/-- `StringArray::from_iter_values`. -/
def strings (values : List (List Char)) : ArrayRef := stringsOpt (values.map some)

def bools (values : List Bool) : ArrayRef :=
  ⟨.scalars .boolean (values.map fun b => some (.bool b)), rfl, by
    intro slot hslot value hvalue
    obtain ⟨b, -, rfl⟩ := List.mem_map.mp hslot
    cases hvalue
    rfl⟩

/-- A signed integer of `w` bits. -/
def wrap (w : Nat) (n : Int) : Int := n.bmod (2 ^ w)

theorem wrap_eq {w : Nat} {n : Int} (hw : 0 < w) (h : fitsSigned w n = true) : wrap w n = n := by
  obtain ⟨v, rfl⟩ := Nat.exists_eq_add_of_lt hw
  obtain ⟨hlow, hhigh⟩ := of_decide_eq_true h
  simp only [Nat.zero_add, Nat.add_sub_cancel] at hlow hhigh
  unfold wrap
  apply Int.bmod_eq_of_le
  · push_cast
    rw [Nat.zero_add, pow_succ]
    omega
  · push_cast
    rw [Nat.zero_add, pow_succ]
    omega

theorem fitsSigned_wrap {w : Nat} (hw : 0 < w) (n : Int) : fitsSigned w (wrap w n) = true := by
  obtain ⟨v, rfl⟩ := Nat.exists_eq_add_of_lt hw
  have hlow := Int.le_bmod (x := n) (Nat.two_pow_pos (0 + v + 1))
  have hhigh := Int.bmod_lt (x := n) (Nat.two_pow_pos (0 + v + 1))
  push_cast at hlow hhigh
  refine decide_eq_true ?_
  simp only [Nat.zero_add, Nat.add_sub_cancel, wrap, pow_succ] at hlow hhigh ⊢
  omega

/-- An array of signed integers of `w` bits. -/
def ints (type : DataType) (w : Nat) (values : List Int) (hw : 0 < w) (htype : type.isScalar = true)
    (hfits : ∀ n, fitsSigned w n = true → Scalar.fits type (.int n) = true) : ArrayRef :=
  ⟨.scalars type (values.map fun n => some (.int (wrap w n))), htype, by
    intro slot hslot value hvalue
    obtain ⟨n, -, rfl⟩ := List.mem_map.mp hslot
    cases hvalue
    exact hfits _ (fitsSigned_wrap hw n)⟩

def int16s (values : List Int) : ArrayRef :=
  ints .int16 16 values (by decide) rfl fun _ h => h

def int32s (values : List Int) : ArrayRef :=
  ints .int32 32 values (by decide) rfl fun _ h => h

def int64s (values : List Int) : ArrayRef :=
  ints .int64 64 values (by decide) rfl fun _ h => h

/-- One array for each field: those at hand, by name, and nulls for the rest. -/
def byName (fields : Fields) (known : List (List Char × ArrayRef)) (n : Nat) : List ArrayRef :=
  fields.toList.map fun f => (lookup f.name known).getD (newNullRef f.dataType n)

section Builders

variable (message : ArrowError → List Char)

def listOfNullable (item : Field) (lengths : List Nat) (child : ArrayRef)
    (nulls : Option (List Bool)) : Except Error ArrayRef := do
  let ends ← attach (listEnds 0 lengths) fun _ h => pairwise_of_listEnds h
  let list := listTryNew item (0 :: ends.1) child.1
    (nulls.getD (List.replicate lengths.length true))
  (attach list fun _ h => valid_of_listTryNew ends.2 child.2 h).mapError (arrowErr message)

def listOf (item : Field) (lengths : List Nat) (child : ArrayRef) : Except Error ArrayRef :=
  listOfNullable message item lengths child none

/-- `StructArray::try_new` without nulls. -/
def structOf (fields : Fields) (arrays : List ArrayRef) : Except Error ArrayRef :=
  let struct := structTryNew fields (Children.ofList (arrays.map Subtype.val))
    (List.replicate ((arrays.head?.map fun a => a.1.length).getD 0) true)
  (attach struct fun _ h => valid_of_structTryNew (forall_valid_ofList arrays) h).mapError
    (arrowErr message)

/-- `RecordBatch::try_new`. -/
def recordBatch (schema : Schema) (arrays : List ArrayRef) : Except Error RecordBatch :=
  (RecordBatch.tryNew schema (arrays.map Subtype.val) (forall_valid_map arrays)).mapError
    (arrowErr message)

/-- The branches of a union: the populated ones, and empty arrays for the others. -/
def branches (fields : UnionFields) (populated : List (Int × ArrayRef)) : List ArrayRef :=
  fields.toList.map fun f =>
    match populated.find? fun p => p.1 = f.1 with
    | some p => p.2
    | none => newEmptyRef f.2.dataType

def denseUnion (fields : UnionFields) (populated : List (Int × ArrayRef)) (typeIds offsets : List Int) :
    Except Error ArrayRef :=
  let children := branches fields populated
  let union := unionTryNew fields typeIds offsets (Children.ofList (children.map Subtype.val))
  (attach union fun _ h => valid_of_unionTryNew (forall_valid_ofList children) h).mapError
    (arrowErr message)

end Builders

/-! ## What the builders build -/

section Encoding

variable (message : ArrowError → List Char) {child : ArrayRef} {item : Field}

/-- The ends of the lists, as long as the last one fits. -/
theorem listEnds_eq (acc : Nat) (parts : List (List Datum)) :
    listEnds acc (parts.map List.length) =
      if parts = [] ∨ acc + parts.flatten.length < 2 ^ 31 then .ok (ends acc parts)
      else .error offsetError := by
  induction parts generalizing acc with
  | nil => rfl
  | cons part parts ih =>
    rw [List.map_cons, listEnds, ih, List.flatten_cons, List.length_append]
    by_cases hfits : acc + (part.length + parts.flatten.length) < 2 ^ 31
    · rw [if_pos (by omega), if_pos (.inr (by omega)), if_pos (.inr hfits)]
      rfl
    · rw [if_neg (show ¬ (part :: parts = [] ∨ _) from fun h =>
        h.elim (List.cons_ne_nil _ _) hfits)]
      split
      · rw [if_neg]
        · rfl
        · rintro (rfl | h)
          · simp at hfits
            omega
          · omega
      · rfl

theorem settles_listEnds (parts : List (List Datum)) :
    Settles (listEnds 0 (parts.map List.length)) (parts.flatten.length < 2 ^ 31) (· = ends 0 parts) := by
  have hends := listEnds_eq 0 parts
  rw [Nat.zero_add] at hends
  constructor
  · intro hfits
    rw [if_pos (.inr hfits)] at hends
    exact ⟨_, hends, rfl⟩
  · intro hfits
    have hne : parts ≠ [] := by
      rintro rfl
      simp at hfits
    rw [if_neg (not_or.mpr ⟨hne, hfits⟩)] at hends
    exact ⟨_, hends⟩

theorem settles_listOfNullable {parts : List (List Datum)} (nulls : Option (List Bool))
    (hitem : item.isNullable = true) (hchild : Encodes child.1 item.dataType parts.flatten)
    (hnulls : ∀ validity ∈ nulls, validity.length = parts.length) :
    Settles (listOfNullable message item (parts.map List.length) child nulls)
      (parts.flatten.length < 2 ^ 31) fun a => Encodes a.1 (.list item)
        ((parts.zip (nulls.getD (List.replicate parts.length true))).map fun p =>
          if p.2 then .list p.1 else .null) := by
  have hlen : (nulls.getD (List.replicate parts.length true)).length = parts.length := by
    cases nulls with
    | none => simp
    | some validity => exact hnulls validity rfl
  refine (((settles_listEnds parts).attach _).bind (q := True) fun offsets hoffsets => ?_).congr
    (iff_of_eq (and_true _))
  obtain ⟨a, ha⟩ := exists_listTryNew hchild hlen fun h => by
    rw [hitem] at h
    cases h
  have hlist : Settles (listTryNew item (0 :: offsets.1) child.1
      (nulls.getD (List.replicate (parts.map List.length).length true))) True fun a =>
        Encodes a (.list item) ((parts.zip (nulls.getD (List.replicate parts.length true))).map
          fun p => if p.2 then .list p.1 else .null) := by
    refine .of_ok ?_ (encodes_list hchild hlen ha)
    rw [hoffsets, List.length_map]
    exact ha
  exact (hlist.attach _).mapError _

variable {X Y : Type} (xs : List X)

/-- Lists of the records that belong to each `x`, null where the flag is not set. -/
theorem settles_groupedNullable (sub : X → List Y) {g : Y → Datum} (valid : X → Bool)
    (hitem : item.isNullable = true)
    (hchild : Encodes child.1 item.dataType ((xs.flatMap sub).map g)) :
    Settles (listOfNullable message item (xs.map fun x => (sub x).length) child
        (some (xs.map valid)))
      ((xs.flatMap sub).length < 2 ^ 31) fun a => Encodes a.1 (.list item)
        (xs.map fun x => if valid x then .list ((sub x).map g) else .null) := by
  have hflat : (xs.map fun x => (sub x).map g).flatten = (xs.flatMap sub).map g := by
    rw [List.map_flatMap, List.flatMap_def]
  have h := settles_listOfNullable message (some (xs.map valid)) hitem
    (hflat ▸ hchild) (by simp)
  rw [hflat, List.length_map, Option.getD_some, List.zip_map', List.map_map, List.map_map] at h
  simpa [Function.comp_def] using h

theorem settles_grouped (sub : X → List Y) {g : Y → Datum} (hitem : item.isNullable = true)
    (hchild : Encodes child.1 item.dataType ((xs.flatMap sub).map g)) :
    Settles (listOf message item (xs.map fun x => (sub x).length) child)
      ((xs.flatMap sub).length < 2 ^ 31) fun a => Encodes a.1 (.list item)
        (xs.map fun x => .list ((sub x).map g)) := by
  have h := settles_groupedNullable message xs sub (fun _ => true) hitem hchild
  have hlen : (xs.map fun x => (sub x).length).length = xs.length := List.length_map _
  rw [List.map_const', ← hlen] at h
  exact h

/-- A struct of arrays that encode the cells of the same records. -/
theorem settles_structOf {cells : List (Field × (X → Datum))} {arrays : List ArrayRef}
    {fields : Fields} (hfields : fields = Fields.ofList (cells.map Prod.fst))
    (h : List.Forall₂ (fun c a => Encodes a.1 c.1.dataType (xs.map c.2)) cells arrays)
    (hne : cells ≠ []) (hnulls : ∀ c ∈ cells, c.1.isNullable = false → ∀ x ∈ xs, c.2 x ≠ .null) :
    Settles (structOf message fields arrays) True fun a =>
      Encodes a.1 (.struct fields) (xs.map fun x => .struct (cells.map fun c => c.2 x)) := by
  subst hfields
  have harrays : List.Forall₂ (fun c a => Encodes a c.1.dataType (xs.map c.2)) cells
      (arrays.map Subtype.val) := List.forall₂_map_right_iff.mpr h
  obtain ⟨a, ha, hencodes⟩ := encodes_struct harrays hne hnulls
  have hlen : (arrays.head?.map fun a => a.1.length).getD 0 = xs.length := by
    cases h with
    | nil => exact absurd rfl hne
    | cons hc _ =>
      rw [List.head?_cons, Option.map_some, Option.getD_some, hc.length, List.length_map]
  have hstruct : Settles (structTryNew (Fields.ofList (cells.map Prod.fst))
      (Children.ofList (arrays.map Subtype.val))
      (List.replicate ((arrays.head?.map fun a => a.1.length).getD 0) true)) True fun a =>
        Encodes a (.struct (Fields.ofList (cells.map Prod.fst)))
          (xs.map fun x => .struct (cells.map fun c => c.2 x)) := by
    refine .of_ok ?_ hencodes
    rw [hlen]
    exact ha
  exact (hstruct.attach _).mapError _

theorem encodes_slots {a : ArrayRef} {type : DataType} (f : X → Option Scalar)
    (ha : a.1 = .scalars type (xs.map f)) :
    Encodes a.1 type (xs.map fun x => Datum.ofSlot (f x)) := by
  have hvalid := a.2
  rw [ha] at hvalid ⊢
  have h := encodes_scalars hvalid.1 hvalid.2
  rw [List.map_map] at h
  exact h

theorem encodes_stringsOpt (f : X → Option (List Char)) :
    Encodes (stringsOpt (xs.map f)).1 .utf8 (xs.map fun x => Datum.ofSlot ((f x).map .text)) :=
  encodes_slots xs (fun x => (f x).map .text) (congrArg (ArrayData.scalars .utf8) List.map_map)

theorem encodes_strings (f : X → List Char) :
    Encodes (strings (xs.map f)).1 .utf8 (xs.map fun x => .scalar (.text (f x))) := by
  rw [strings, List.map_map]
  exact encodes_stringsOpt xs fun x => some (f x)

theorem encodes_ints {type : DataType} {w : Nat} (f : X → Int) (hw : 0 < w)
    (htype : type.isScalar = true)
    (hfits : ∀ n, fitsSigned w n = true → Scalar.fits type (.int n) = true) :
    Encodes (ints type w (xs.map f) hw htype hfits).1 type
      (xs.map fun x => .scalar (.int (wrap w (f x)))) :=
  encodes_slots xs (fun x => some (.int (wrap w (f x)))) (congrArg (ArrayData.scalars type) List.map_map)

theorem encodes_bools (f : X → Bool) :
    Encodes (bools (xs.map f)).1 .boolean (xs.map fun x => .scalar (.bool (f x))) :=
  encodes_slots xs (fun x => some (.bool (f x))) (congrArg (ArrayData.scalars .boolean) List.map_map)

theorem encodes_newNullRef (type : DataType) :
    Encodes (newNullRef type xs.length).1 type (xs.map fun _ => .null) := by
  rw [List.map_const']
  exact encodes_newNullArray type xs.length

end Encoding

/-! ## Structs by field -/

section Record

variable (message : ArrowError → List Char) {X : Type} {xs : List X}
  {known : List (Field × (X → Datum))} {fields : List Field} {arrays : List (List Char × ArrayRef)}

/-- What a record holds in the field of that name. -/
def cellOf (known : List (Field × (X → Datum))) (name : List Char) (x : X) : Datum :=
  ((known.find? fun k => k.1.name = name).map fun k => k.2 x).getD .null

def record (fields : List Field) (known : List (Field × (X → Datum))) (x : X) : Datum :=
  .struct (fields.map fun f => cellOf known f.name x)

/-- The value of a struct in the field of that name. -/
def fieldOf (fields : List Field) (name : List Char) : Datum → Datum
  | .struct cells => (lookup name ((fields.map Field.name).zip cells)).getD .null
  | _ => .null

/-- The known fields are fields of the struct, and all that must not be null are among them. -/
structure Layout (fields : List Field) (known : List (Field × (X → Datum))) : Prop where
  names : (fields.map Field.name).Nodup
  mem : ∀ k ∈ known, k.1 ∈ fields
  required : ∀ f ∈ fields, f.isNullable = false → f ∈ known.map Prod.fst
  nulls : ∀ k ∈ known, k.1.isNullable = false → ∀ x, k.2 x ≠ .null

theorem Layout.ne_null (h : Layout fields known) {f : Field} (hf : f ∈ fields)
    (hnull : f.isNullable = false) (x : X) :
    cellOf known f.name x ≠ .null := by
  obtain ⟨k, hk, rfl⟩ := List.mem_map.mp (h.required f hf hnull)
  rw [cellOf]
  cases hfind : known.find? fun k' => k'.1.name = k.1.name with
  | none => exact absurd (decide_eq_true rfl) (List.find?_eq_none.mp hfind k hk)
  | some k' =>
    have hk' := List.mem_of_find?_eq_some hfind
    have hname : k'.1.name = k.1.name := by simpa using List.find?_some hfind
    have hfield := List.inj_on_of_nodup_map h.names (h.mem k' hk') hf hname
    exact h.nulls k' hk' (by rw [hfield]; exact hnull) x

theorem cellOf_eq (hnames : (known.map (·.1.name)).Nodup) {k : Field × (X → Datum)}
    (hk : k ∈ known) (x : X) : cellOf known k.1.name x = k.2 x := by
  induction known with
  | nil => cases hk
  | cons k' known ih =>
    rw [List.map_cons, List.nodup_cons] at hnames
    rcases List.mem_cons.mp hk with rfl | hk
    · simp [cellOf]
    · have hne : k'.1.name ≠ k.1.name := fun e =>
        hnames.1 (List.mem_map.mpr ⟨k, hk, e.symm⟩)
      rw [← ih hnames.2 hk]
      simp [cellOf, hne]

theorem Layout.record_eq (h : Layout (known.map Prod.fst) known) (x : X) :
    record (known.map Prod.fst) known x = .struct (known.map fun k => k.2 x) := by
  have hnames := h.names
  rw [List.map_map] at hnames
  rw [record, List.map_map]
  exact congrArg Datum.struct (List.map_congr_left fun k hk => cellOf_eq hnames hk x)

theorem encodes_byName {f : Field}
    (h : List.Forall₂ (fun k a => a.1 = k.1.name ∧ Encodes a.2.1 k.1.dataType (xs.map k.2))
      known arrays) (hsame : ∀ k ∈ known, k.1.name = f.name → k.1 = f) :
    Encodes ((lookup f.name arrays).getD (newNullRef f.dataType xs.length)).1 f.dataType
      (xs.map (cellOf known f.name)) := by
  induction h with
  | nil => exact encodes_newNullRef xs f.dataType
  | @cons k a known arrays hka _ ih =>
    obtain ⟨name, a⟩ := a
    obtain ⟨rfl, ha⟩ := hka
    obtain ⟨hfirst, hrest⟩ := List.forall_mem_cons.mp hsame
    by_cases hname : k.1.name = f.name
    · have hcell : cellOf (k :: known) f.name = k.2 := by
        funext x
        simp [cellOf, hname]
      rw [lookup, if_pos hname, Option.getD_some, hcell, ← hfirst hname]
      exact ha
    · have hcell : cellOf (k :: known) f.name = cellOf known f.name := by
        funext x
        simp [cellOf, hname]
      rw [lookup, if_neg hname, hcell]
      exact ih hrest

theorem Fields.toList_ofList (fields : List Field) : (Fields.ofList fields).toList = fields := by
  induction fields with
  | nil => rfl
  | cons f fields ih => rw [Fields.ofList, Fields.toList, ih]

/-- A struct whose arrays are picked by name. -/
theorem settles_byName (hlayout : Layout fields known) (hne : fields ≠ [])
    (h : List.Forall₂ (fun k a => a.1 = k.1.name ∧ Encodes a.2.1 k.1.dataType (xs.map k.2))
      known arrays) :
    Settles (structOf message (Fields.ofList fields) (byName (Fields.ofList fields) arrays xs.length))
      True fun a => Encodes a.1 (.struct (Fields.ofList fields)) (xs.map (record fields known)) := by
  have harrays : List.Forall₂ (fun c a => Encodes a.1 c.1.dataType (xs.map c.2))
      (fields.map fun f => (f, cellOf known f.name))
      (byName (Fields.ofList fields) arrays xs.length) := by
    rw [byName, Fields.toList_ofList, List.forall₂_map_left_iff, List.forall₂_map_right_iff,
      List.forall₂_same]
    intro f hf
    exact encodes_byName h fun k hk hname =>
      List.inj_on_of_nodup_map hlayout.names (hlayout.mem k hk) hf hname
  have hfields : fields = (fields.map fun f => (f, cellOf known f.name)).map Prod.fst := by
    rw [List.map_map]
    exact (List.map_id _).symm
  have h' := settles_structOf message xs (congrArg Fields.ofList hfields) harrays
    (by simpa using hne) ?_
  · simp only [List.map_map] at h'
    exact h'
  · intro c hc hnull x _
    obtain ⟨f, hf, rfl⟩ := List.mem_map.mp hc
    exact hlayout.ne_null hf hnull x

/-- A struct whose arrays are listed in the order of its fields. -/
theorem settles_inOrder {arrays : List ArrayRef} (hlayout : Layout fields known)
    (hfields : fields = known.map Prod.fst) (hne : known ≠ [])
    (h : List.Forall₂ (fun k a => Encodes a.1 k.1.dataType (xs.map k.2)) known arrays) :
    Settles (structOf message (Fields.ofList fields) arrays) True fun a =>
      Encodes a.1 (.struct (Fields.ofList fields)) (xs.map (record fields known)) := by
  subst hfields
  have h' := settles_structOf message xs rfl h hne fun c hc hnull x _ =>
    hlayout.nulls c hc hnull x
  simp only [← hlayout.record_eq] at h'
  exact h'

/-- The columns of a batch, in the order of its fields. -/
theorem settles_recordBatch {schema : Schema} {arrays : List ArrayRef}
    (hlayout : Layout schema known) (hschema : schema = known.map Prod.fst) (hne : known ≠ [])
    (h : List.Forall₂ (fun k a => Encodes a.1 k.1.dataType (xs.map k.2)) known arrays) :
    Settles (recordBatch message schema arrays) True fun batch =>
      batch.schema = schema ∧ batch.rows = xs.map (record schema known) := by
  subst hschema
  have harrays : List.Forall₂ (fun c a => Encodes a c.1.dataType (xs.map c.2)) known
      (arrays.map Subtype.val) := List.forall₂_map_right_iff.mpr h
  obtain ⟨batch, hbatch, hschema, hrows⟩ := encodes_batch harrays hne
    (fun c hc hnull x _ => hlayout.nulls c hc hnull x) (forall_valid_map arrays)
  simp only [← hlayout.record_eq] at hrows
  exact (Settles.of_ok (P := fun batch => batch.schema = known.map Prod.fst ∧
    batch.rows = xs.map (record (known.map Prod.fst) known)) hbatch ⟨hschema, hrows⟩).mapError _

end Record

/-! ## Reading -/

section Reading

variable {X : Type}

def readText : Datum → Option (List Char)
  | .scalar (.text t) => some t
  | _ => none

def readTextOpt : Datum → Option (Option (List Char))
  | .null => some none
  | d => (readText d).map some

def readInt : Datum → Option Int
  | .scalar (.int n) => some n
  | _ => none

def readList (read : Datum → Option X) : Datum → Option (List X)
  | .list items => items.mapM read
  | _ => none

def readListOpt (read : Datum → Option X) : Datum → Option (Option (List X))
  | .null => some none
  | d => (readList read d).map some

theorem readTextOpt_ofSlot (t : Option (List Char)) :
    readTextOpt (Datum.ofSlot (t.map .text)) = some t := by
  cases t <;> rfl

theorem readListOpt_ite {Y : Type} {read : Datum → Option X} {write : Y → Datum} {value : Y → X}
    {ys : List Y} (shown : Bool) (h : ∀ y ∈ ys, read (write y) = some (value y)) :
    readListOpt read (if shown then .list (ys.map write) else .null) =
      some (if shown then some (ys.map value) else none) := by
  cases shown with
  | false => rfl
  | true =>
    change ((ys.map write).mapM read).map some = _
    rw [mapM_map_eq_some h]
    rfl

end Reading

/-! ## Unions -/

/-- `(0..n as i32).collect()`. -/
def i32Range (n : Nat) : List Int := (List.range (wrap 32 n).toNat).map Int.ofNat

theorem length_i32Range (n : Nat) : (i32Range n).length = n ↔ n < 2 ^ 31 := by
  rw [i32Range, List.length_map, List.length_range]
  constructor
  · intro h
    have hfits := of_decide_eq_true (fitsSigned_wrap (w := 32) (by decide) n)
    omega
  · intro h
    rw [wrap_eq (by decide) (decide_eq_true (by omega)), Int.toNat_natCast]

theorem i32Range_eq {n : Nat} (h : n < 2 ^ 31) : i32Range n = (List.range n).map Int.ofNat := by
  rw [i32Range, wrap_eq (by decide) (decide_eq_true (by omega)), Int.toNat_natCast]

section Union

variable (message : ArrowError → List Char) {id : Int} {child : ArrayRef} {fields : UnionFields}
  {f : Field}

theorem ofTypeId_branches : ∀ {fields : UnionFields}, (id, f) ∈ fields.toList →
    (Children.ofList ((branches fields [(id, child)]).map Subtype.val)).ofTypeId fields id =
      some child.1
  | .nil, h => by cases h
  | .cons id' f' fields, h => by
    by_cases hid : id' = id
    · subst hid
      simp [branches, UnionFields.toList, Children.ofList, Children.ofTypeId]
    · rcases List.mem_cons.mp h with h | h
      · exact absurd (congrArg Prod.fst h).symm hid
      · have ih := ofTypeId_branches h
        simp only [branches, UnionFields.toList, List.map_cons, Children.ofList, Children.ofTypeId,
          if_neg hid]
        exact ih

theorem dataType_branches (h : ∀ f, (id, f) ∈ fields.toList → child.1.dataType = f.dataType) :
    ∀ fc ∈ fields.toList.zip ((branches fields [(id, child)]).map Subtype.val),
      fc.2.dataType = fc.1.2.dataType := by
  intro fc hfc
  rw [branches, List.map_map, ← List.map_prod_left_eq_zip] at hfc
  obtain ⟨g, hg, rfl⟩ := List.mem_map.mp hfc
  by_cases hid : id = g.1
  · subst hid
    simpa using h g.2 hg
  · simp [hid, newEmptyRef, newNullRef, dataType_newNullArray]

theorem fits_branches (hf : (id, f) ∈ fields.toList)
    (htypes : ∀ f, (id, f) ∈ fields.toList → child.1.dataType = f.dataType)
    (hfits : child.1.length < 2 ^ 31) :
    UnionFits fields (List.replicate child.1.length id) ((List.range child.1.length).map Int.ofNat)
      (Children.ofList ((branches fields [(id, child)]).map Subtype.val)) where
  childCount := by
    rw [toList_ofList]
    simp [branches]
  offsetCount := by simp
  rows r hr := by
    obtain ⟨hid, hoffset⟩ := List.of_mem_zip hr
    obtain ⟨i, hi, e⟩ := List.mem_map.mp hoffset
    have hlt := List.mem_range.mp hi
    rw [List.eq_of_mem_replicate hid]
    refine ⟨child.1, ofTypeId_branches hf, ?_⟩
    rw [lenI32_eq hfits, i32Min]
    simp only [Int.ofNat_eq_natCast] at e
    omega
  types := by
    rw [toList_ofList]
    exact dataType_branches htypes

/-- A union with all values in one branch. -/
theorem settles_denseUnion {data : List Datum} (hf : (id, f) ∈ fields.toList)
    (htypes : ∀ f, (id, f) ∈ fields.toList → child.1.dataType = f.dataType)
    (hchild : child.1.rows = data) :
    Settles (denseUnion message fields [(id, child)] (List.replicate data.length id)
        (i32Range data.length))
      (data.length < 2 ^ 31) fun a => Encodes a.1 (.union fields .dense) data := by
  have hvalid := forall_valid_ofList (branches fields [(id, child)])
  have hlen : child.1.length = data.length := by rw [← hchild, length_rows]
  have hunion : Settles (unionTryNew fields (List.replicate data.length id) (i32Range data.length)
      (Children.ofList ((branches fields [(id, child)]).map Subtype.val)))
      (data.length < 2 ^ 31) fun a => Encodes a (.union fields .dense) data := by
    constructor
    · intro hfits
      rw [i32Range_eq hfits]
      have hok := unionTryNew_eq_ok.mpr ⟨fits_branches hf htypes (hlen ▸ hfits), rfl⟩
      rw [hlen] at hok
      exact ⟨_, hok, encodes_union hvalid (ofTypeId_branches hf) hchild hok⟩
    · intro hfits
      -- The offsets are counted in an `i32`, so there are too few of them.
      cases hr : unionTryNew fields (List.replicate data.length id) (i32Range data.length)
          (Children.ofList ((branches fields [(id, child)]).map Subtype.val)) with
      | error e => exact ⟨e, rfl⟩
      | ok a =>
        have hcount := (unionTryNew_eq_ok.mp hr).1.offsetCount
        rw [List.length_replicate, length_i32Range] at hcount
        exact absurd hcount hfits
  exact (hunion.attach _).mapError _

end Union

end Metadata
end SpannerAdbc
