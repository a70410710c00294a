import SpannerAdbc.Config.Atomic
import SpannerAdbc.Lib.Digits

/-!
# SpannerAdbc.Config.Replay

A configuration that is read back and set again, the URI first. An option that is set reads back as a
text that writes the same field (`assignment_of_read`). An option that is not set does not read back
at all, and then the URI's own value for it stands in the copy. For most fields that cannot happen,
because what a URI has written is never unset again. It can for the three that an empty text clears
(`clearable`), and there the copy differs (`replay_eq_iff`, `quota_project_restored`).
-/

namespace SpannerAdbc
namespace Config

open Lib Session

/-! ## What fields can hold -/

/-- An `i64`, where the value is a number. -/
def OptionValue.IsI64 : OptionValue → Prop
  | .int i => -2 ^ 63 ≤ i ∧ i < 2 ^ 63
  | _ => True

/-- The entries of a comma-separated list. -/
def Separated (parts : List (List Char)) : Prop :=
  ∀ part ∈ parts, part ≠ [] ∧ ',' ∉ part ∧ Sql.trim part = part

/-- The values that a set can write to a field. -/
def Writable : Field → FieldValue → Prop
  | .endpoint, .text t | .keyfile, .text t | .impersonateTargetPrincipal, .text t => t.isSome
  | .impersonateDelegates, .texts parts | .impersonateScopes, .texts parts => Separated parts
  | .impersonateLifetimeSecs, .seconds secs => ∃ n < 2 ^ 64, secs = some n
  | .quotaProject, .text t => t ≠ some []
  | _, _ => True

theorem separated_commaSeparated (value : List Char) : Separated (commaSeparated value) := by
  intro part h
  obtain ⟨hpart, hne⟩ := List.mem_filter.mp h
  obtain ⟨raw, hraw, rfl⟩ := List.mem_map.mp hpart
  refine ⟨by simpa using hne, fun hc => ?_, Sql.trim_trim raw⟩
  exact Lib.not_mem_of_mem_splitOn hraw (Sql.mem_of_mem_trim hc)

variable {parts : List (List Char)} {n : Nat}

theorem commaSeparated_join (h : Separated parts) (hne : parts ≠ []) :
    commaSeparated (join ",".toList parts) = parts := by
  have hsplit : (join ",".toList parts).splitOn ',' = parts :=
    List.splitOn_intercalate ',' (fun part hp => (h part hp).2.1) hne
  rw [commaSeparated, hsplit]
  have hmap : parts.map Sql.trim = parts.map id := List.map_congr_left fun part hp => (h part hp).2.2
  rw [hmap, List.map_id, List.filter_eq_self]
  intro part hp
  simpa using (h part hp).1

theorem trim_of_not_blank {s : List Char} (h : ∀ c ∈ s, Sql.isWhitespace c = false) :
    Sql.trim s = s := by
  have hstart : Sql.trimStart s = s := by
    cases s with
    | nil => rfl
    | cons c s => simp [Sql.trimStart, h c List.mem_cons_self]
  rw [Sql.trim, hstart, Sql.trimEnd, List.rdropWhile_eq_self_iff]
  intro hne
  simp [h _ (List.getLast_mem hne)]

theorem isWhitespace_of_isDigit {c : Char} (h : c.isDigit = true) : Sql.isWhitespace c = false := by
  rw [Bool.eq_false_iff]
  intro hblank
  have hident := Sql.isIdentChar_of_isWhitespace hblank
  simp [Sql.isIdentChar, Char.isAlphanum, h] at hident

theorem parseU64_toDigits (h : n < 2 ^ 64) :
    parseU64 (Sql.trim (Nat.toDigits 10 n)) = some n := by
  have hdigit : ∀ c ∈ Nat.toDigits 10 n, c.isDigit = true := fun _ => isDigit_of_mem_toDigits
  rw [trim_of_not_blank fun c hc => isWhitespace_of_isDigit (hdigit c hc)]
  unfold parseU64
  extract_lets digits m
  have hplus : digits = Nat.toDigits 10 n := by
    unfold digits
    split
    · rename_i rest heq
      exact absurd (hdigit '+' (by rw [heq]; exact List.mem_cons_self)) (by decide)
    · rfl
  have hany : digits.any (fun c => !c.isDigit) = false := by
    rw [hplus, List.any_eq_false]
    intro c hc
    simp [hdigit c hc]
  have hne : digits ≠ [] := by
    rw [hplus]
    exact Nat.toDigits_ne_nil
  have hm : m = n := by
    unfold m
    rw [hplus, Nat.ofDigitChars_ten_toDigits]
  rw [if_neg (by simp [hne, hany]), hm, if_pos h]

/-! ## Writable values -/

/-- All assignments are of writable values. -/
def WritesWritable (r : Except Error (List (Field × FieldValue))) : Prop :=
  ∀ as, r = .ok as → ∀ a ∈ as, Writable a.1 a.2

namespace WritesWritable

theorem ite {c : Prop} [Decidable c] {r r' : Except Error (List (Field × FieldValue))}
    (h : WritesWritable r) (h' : WritesWritable r') : WritesWritable (if c then r else r') := by
  by_cases hc : c
  · rw [if_pos hc]
    exact h
  · rw [if_neg hc]
    exact h'

theorem field {α : Type} {v : Except Error α} {f : Field} {x : α → FieldValue}
    (h : ∀ y, v = .ok y → Writable f (x y)) : WritesWritable (do return [(f, x (← v))]) := by
  intro as hv a ha
  obtain ⟨y, hy, he⟩ := bind_eq_ok.mp hv
  cases he
  rw [List.mem_singleton.mp ha]
  exact h y hy

end WritesWritable

variable (K : Client) {self : Database} {text name : List Char} {f : Field}

theorem parseU64_lt {s : List Char} (h : parseU64 s = some n) : n < 2 ^ 64 := by
  unfold parseU64 at h
  extract_lets digits at h
  split at h
  · cases h
  · split at h
    · rename_i hlt
      obtain rfl := Option.some.inj h
      exact hlt
    · cases h

theorem u64SecondsValue_lt {key : List Char} {value : OptionValue} (hv : OptionValue.IsI64 value)
    (h : u64SecondsValue K key value = .ok n) : n < 2 ^ 64 := by
  cases value with
  | int i =>
    simp only [u64SecondsValue] at h
    split at h
    · cases h
      have hlt := hv.2
      omega
    · cases h
  | string s =>
    simp only [u64SecondsValue] at h
    split at h
    · rename_i m hm
      cases h
      exact parseU64_lt hm
    · cases h
  | bytes | double => cases h

theorem writesWritable_assignment (name : List Char) (value : OptionValue)
    (hv : OptionValue.IsI64 value) : WritesWritable (assignment K name value) := by
  unfold assignment
  refine .ite (.field fun _ _ => rfl) (.ite (.field fun _ _ => trivial) (.ite (.field fun _ _ => rfl)
    (.ite (.field fun _ _ => trivial) (.ite (.field fun _ _ => rfl)
    (.ite (.field fun y _ => separated_commaSeparated y)
    (.ite (.field fun y _ => separated_commaSeparated y)
    (.ite (.field fun n hn => ⟨n, u64SecondsValue_lt K hv hn, rfl⟩)
    (.ite (.field fun _ _ => trivial) (.ite (.field fun y _ => ?_) ?_)))))))))
  · change (if y = [] then none else some y) ≠ some []
    split
    · simp
    · rename_i hne
      simpa using hne
  · intro as h
    cases h

theorem writable_params {params : List (List Char × List Char)} {as : List (Field × FieldValue)}
    (h : paramAssignments K params = .ok as) : ∀ a ∈ as, Writable a.1 a.2 := by
  induction params generalizing as with
  | nil =>
    cases h
    simp
  | cons param params ih =>
    obtain ⟨as₀, h₀, h⟩ := bind_eq_ok.mp h
    obtain ⟨rest, hrest, h⟩ := bind_eq_ok.mp h
    cases h
    intro a ha
    rcases List.mem_append.mp ha with ha | ha
    · exact writesWritable_assignment K param.1 (.string param.2) trivial as₀ h₀ a ha
    · exact ih hrest a ha

theorem writable_assigned {s : OptionDatabase × OptionValue} (hv : OptionValue.IsI64 s.2) :
    ∀ a ∈ assigned K s, Writable a.1 a.2 := by
  obtain ⟨key, value⟩ := s
  unfold assigned
  cases h : assignments K key value with
  | error e => simp
  | ok as =>
    cases key with
    | username | password => cases h
    | other name => exact writesWritable_assignment K name value hv as h
    | uri =>
      obtain ⟨text, -, h⟩ := bind_eq_ok.mp h
      unfold uriAssignments at h
      split at h
      · cases h
      · obtain ⟨parsed, -, h⟩ := bind_eq_ok.mp h
        obtain ⟨params, hparams, h⟩ := bind_eq_ok.mp h
        cases h
        intro a ha
        simp only [List.mem_append, List.mem_cons, List.mem_map, List.not_mem_nil, or_false] at ha
        rcases ha with ((rfl | ⟨host, -, rfl⟩) | ha) | rfl
        · trivial
        · rfl
        · exact writable_params K hparams a ha
        · trivial

/-- The field that an option of its own writes. -/
def Field.ofKey (key : OptionDatabase) : Option Field :=
  [Field.endpoint, .emulator, .keyfile, .keyfileJson, .impersonateTargetPrincipal,
    .impersonateDelegates, .impersonateScopes, .impersonateLifetimeSecs, .accessToken,
    .quotaProject].find? fun f => f.key = key

theorem Field.ofKey_key (hf : f.key ≠ .uri) : ofKey f.key = some f := by
  cases f with
  | uri | database => exact absurd rfl hf
  | _ => rfl

theorem Field.key_injective {g : Field} (hf : f.key ≠ .uri) (h : g.key = f.key) : g = f := by
  have hg := ofKey_key (h ▸ hf)
  rw [h, ofKey_key hf] at hg
  exact (Option.some.inj hg).symm

/-! ## Reading and setting one option -/

/-- A field that no set has written. -/
def Unset (self : Database) (f : Field) : Prop := self.get f = Database.new.get f

/-- Every field is unset or holds what a set can write. -/
def WellFormed (self : Database) : Prop := ∀ f, Unset self f ∨ Writable f (self.get f)

theorem WellFormed.separated_delegates (h : WellFormed self) :
    Separated self.impersonateDelegates := by
  rcases h .impersonateDelegates with h | h
  · have hnil : self.impersonateDelegates = [] := FieldValue.texts.inj h
    simp [hnil, Separated]
  · exact h

theorem WellFormed.separated_scopes (h : WellFormed self) :
    Separated self.impersonateScopes := by
  rcases h .impersonateScopes with h | h
  · have hnil : self.impersonateScopes = [] := FieldValue.texts.inj h
    simp [hnil, Separated]
  · exact h

theorem WellFormed.lifetime_lt (h : WellFormed self) (hn : self.impersonateLifetimeSecs = some n) :
    n < 2 ^ 64 := by
  rcases h .impersonateLifetimeSecs with h | ⟨m, hlt, hm⟩
  · have hnone : self.impersonateLifetimeSecs = none := FieldValue.seconds.inj h
    rw [hnone] at hn
    cases hn
  · cases hn.symm.trans hm
    exact hlt

theorem WellFormed.quota_ne (h : WellFormed self) :
    self.quotaProject ≠ some [] := by
  rcases h .quotaProject with h | h
  · have hnone : self.quotaProject = none := FieldValue.text.inj h
    simp [hnone]
  · exact h

theorem mem_of_getOther (h : self.getOther name = some text) : name ∈ uriQueryOptions := by
  by_contra hno
  simp only [uriQueryOptions, List.mem_cons, List.not_mem_nil, or_false, not_or] at hno
  obtain ⟨h₁, h₂, h₃, h₄, h₅, h₆, h₇, h₈⟩ := hno
  rw [Database.getOther, if_neg h₁, if_neg h₂, if_neg h₃, if_neg h₄, if_neg h₅, if_neg h₆, if_neg h₇,
    if_neg h₈] at h
  cases h

theorem getOptionString_other :
    self.getOptionString (.other name) = .ok text ↔ self.getOther name = some text := by
  constructor
  · intro h
    unfold Database.getOptionString at h
    dsimp only at h
    split at h
    · cases h
    · cases hg : self.getOther name with
      | none =>
        rw [hg] at h
        cases h
      | some text' =>
        rw [hg] at h
        cases h
        rfl
  · intro h
    have hsecret : ¬ (name = optionKeyfileJson ∨ name = optionAccessToken) := by
      have hmem := mem_of_getOther h
      rintro (rfl | rfl)
      · exact absurd hmem (by decide)
      · exact absurd hmem (by decide)
    unfold Database.getOptionString
    dsimp only
    rw [if_neg hsecret, h]
    rfl

theorem join_eq_of_read
    (h : (if parts = [] then none else some (join ",".toList parts)) = some text) :
    parts ≠ [] ∧ join ",".toList parts = text := by
  split at h
  · cases h
  · rename_i hne
    exact ⟨hne, Option.some.inj h⟩

/-- What a field reads back as under its own option. The secrets do not read back. -/
def Database.shown (self : Database) : Field → Option (List Char)
  | .endpoint => self.endpoint
  | .emulator => some (if self.emulator then "true".toList else "false".toList)
  | .keyfile => self.keyfile
  | .impersonateTargetPrincipal => self.impersonateTargetPrincipal
  | .impersonateDelegates =>
    if self.impersonateDelegates = [] then none
    else some (join ",".toList self.impersonateDelegates)
  | .impersonateScopes =>
    if self.impersonateScopes = [] then none else some (join ",".toList self.impersonateScopes)
  | .impersonateLifetimeSecs => self.impersonateLifetimeSecs.map fun secs => Nat.toDigits 10 secs
  | .quotaProject => self.quotaProject
  | .keyfileJson | .accessToken | .uri | .database => none

theorem toOption_elim (text : Option (List Char)) (e : Error) :
    (text.elim (.error e) Except.ok).toOption = text := by
  cases text <;> rfl

theorem Database.toOption_getOptionString (self : Database) (hf : f.key ≠ .uri) :
    (self.getOptionString f.key).toOption = self.shown f := by
  cases f with
  | uri | database => exact absurd rfl hf
  | emulator | keyfileJson | accessToken => rfl
  | _ => exact toOption_elim _ _

/-- What reads back writes the field that it was read from. -/
theorem assignment_of_shown (hw : WellFormed self) (hkey : f.key = .other name)
    (hread : self.shown f = some text) :
    assignment K name (.string text) = .ok [(f, self.get f)] := by
  cases f with
  | uri | database | keyfileJson | accessToken => cases hread
  | endpoint =>
    cases hkey
    rw [Database.get, show self.endpoint = some text from hread]
    rfl
  | emulator =>
    cases hkey
    cases hread
    rw [Database.get]
    cases self.emulator <;> rfl
  | keyfile =>
    cases hkey
    rw [Database.get, show self.keyfile = some text from hread]
    rfl
  | impersonateTargetPrincipal =>
    cases hkey
    rw [Database.get, show self.impersonateTargetPrincipal = some text from hread]
    rfl
  | impersonateDelegates =>
    cases hkey
    obtain ⟨hne, rfl⟩ := join_eq_of_read hread
    have hjoin := commaSeparated_join hw.separated_delegates hne
    exact bind_eq_ok.mpr ⟨_, rfl, by rw [hjoin]; rfl⟩
  | impersonateScopes =>
    cases hkey
    obtain ⟨hne, rfl⟩ := join_eq_of_read hread
    have hjoin := commaSeparated_join hw.separated_scopes hne
    exact bind_eq_ok.mpr ⟨_, rfl, by rw [hjoin]; rfl⟩
  | impersonateLifetimeSecs =>
    cases hkey
    obtain ⟨n, hn, rfl⟩ := Option.map_eq_some_iff.mp hread
    have hparse := parseU64_toDigits (hw.lifetime_lt hn)
    refine bind_eq_ok.mpr ⟨n, ?_, by rw [Database.get, hn]; rfl⟩
    simp only [u64SecondsValue, hparse]
  | quotaProject =>
    cases hkey
    have hread : self.quotaProject = some text := hread
    have hne : text ≠ [] := by
      rintro rfl
      exact hw.quota_ne hread
    refine bind_eq_ok.mpr ⟨text, rfl, ?_⟩
    rw [Database.get, hread, if_neg hne]
    rfl

theorem exists_key_of_mem (h : name ∈ uriQueryOptions) :
    ∃ f : Field, f.key = .other name := by
  simp only [uriQueryOptions, List.mem_cons, List.not_mem_nil, or_false] at h
  rcases h with rfl | rfl | rfl | rfl | rfl | rfl | rfl | rfl
  · exact ⟨.endpoint, rfl⟩
  · exact ⟨.emulator, rfl⟩
  · exact ⟨.keyfile, rfl⟩
  · exact ⟨.impersonateTargetPrincipal, rfl⟩
  · exact ⟨.impersonateDelegates, rfl⟩
  · exact ⟨.impersonateScopes, rfl⟩
  · exact ⟨.impersonateLifetimeSecs, rfl⟩
  · exact ⟨.quotaProject, rfl⟩

theorem assignment_of_read (hw : WellFormed self)
    (h : self.getOptionString (.other name) = .ok text) :
    ∃ f, f.key = .other name ∧ assignment K name (.string text) = .ok [(f, self.get f)] := by
  obtain ⟨f, hkey⟩ := exists_key_of_mem (mem_of_getOther (getOptionString_other.mp h))
  have hshown := self.toOption_getOptionString (f := f) (by rw [hkey]; exact OptionDatabase.noConfusion)
  rw [hkey, h] at hshown
  exact ⟨f, hkey, assignment_of_shown K hw hkey hshown.symm⟩

/-- The fields that an empty text clears. -/
def clearable : List Field := [.impersonateDelegates, .impersonateScopes, .quotaProject]

theorem eq_nil_of_shown (h : (if parts = [] then none else some (join ",".toList parts)) = none) :
    parts = [] := by
  by_contra hne
  rw [if_neg hne] at h
  cases h

theorem unset_of_unreadable {e : Error} (hf : f.key ≠ .uri) (hjson : f ≠ .keyfileJson)
    (htoken : f ≠ .accessToken) (h : self.getOptionString f.key = .error e) : Unset self f := by
  have hshown := self.toOption_getOptionString hf
  rw [h] at hshown
  cases f with
  | uri | database => exact absurd rfl hf
  | keyfileJson => exact absurd rfl hjson
  | accessToken => exact absurd rfl htoken
  | emulator => cases hshown
  | endpoint | keyfile | impersonateTargetPrincipal | quotaProject =>
    exact congrArg FieldValue.text hshown.symm
  | impersonateDelegates | impersonateScopes =>
    exact congrArg FieldValue.texts (eq_nil_of_shown hshown.symm)
  | impersonateLifetimeSecs =>
    exact congrArg FieldValue.seconds (Option.map_eq_none_iff.mp hshown.symm)

/-! ## The replay -/

/-- What reads back under the URI key, as the set that restores it. -/
def Database.dumpUri (self : Database) : List (OptionDatabase × OptionValue) :=
  match self.getOptionString .uri with
  | .ok value => [(.uri, .string value)]
  | .error _ => []

/-- `others` are the other options that read back, each with its value, in any order. -/
def Dumps (self : Database) (others : List (OptionDatabase × OptionValue)) : Prop :=
  ∀ key value, (key, value) ∈ others ↔
    key ≠ .uri ∧ ∃ text, self.getOptionString key = .ok text ∧ value = .string text

/-- A configuration that a sequence of accepted sets makes of a fresh database. -/
structure Reached (sets : List (OptionDatabase × OptionValue)) (made : Database) : Prop where
  run : Database.new.setOptions K sets = .ok made
  i64 : ∀ s ∈ sets, OptionValue.IsI64 s.2

namespace Reached

variable {K} {sets : List (OptionDatabase × OptionValue)} {self : Database}

theorem get_eq (h : Reached K sets self) (f : Field) :
    self.get f = (written (sets.flatMap (assigned K)) f).getD (Database.new.get f) := by
  obtain ⟨self', hrun, hget⟩ := setOptions_accepted K (accepted_of_setOptions K h.run) .new
  cases hrun.symm.trans h.run
  exact hget f

theorem writable_of_written (h : Reached K sets self) {f : Field} {x : FieldValue}
    (hx : written (sets.flatMap (assigned K)) f = some x) : Writable f x := by
  obtain ⟨s, hs, ha⟩ := List.mem_flatMap.mp (mem_of_written hx)
  exact writable_assigned K (h.i64 s hs) (f, x) ha

theorem wellFormed (h : Reached K sets self) : WellFormed self := by
  intro f
  have hget := h.get_eq f
  cases hx : written (sets.flatMap (assigned K)) f with
  | none =>
    rw [hx] at hget
    exact .inl hget
  | some x =>
    rw [hx] at hget
    exact .inr (hget ▸ h.writable_of_written hx)

/-- The URI that reads back is the last one that was set. -/
theorem dumpUri_eq (h : Reached K sets self) :
    (written sets .uri = none ∧ self.dumpUri = []) ∨
      ∃ value, written sets .uri = some (.string value) ∧ self.dumpUri = [(.uri, .string value)] ∧
        Accepted K (.uri, .string value) := by
  have hacc := accepted_of_setOptions K h.run
  have hget := h.get_eq .uri
  rw [written_uri_field K hacc rfl, part] at hget
  cases hw : written sets .uri with
  | none =>
    rw [hw] at hget
    have huri : self.uri = none := FieldValue.text.inj hget
    refine .inl ⟨rfl, ?_⟩
    rw [Database.dumpUri, Database.getOptionString, huri]
    rfl
  | some value =>
    obtain ⟨as, has⟩ := hacc (.uri, value) (mem_of_written hw)
    obtain ⟨text, htext, hu⟩ := bind_eq_ok.mp has
    cases value with
    | bytes | int | double => cases htext
    | string value =>
      obtain rfl : value = text := Except.ok.inj htext
      refine .inr ⟨value, rfl, ?_, as, has⟩
      have huri : self.uri = some value := by
        obtain ⟨-, parsed, params, -, -, -, rfl⟩ := uriAssignments_eq_ok K hu
        rw [hw, Option.bind_some, assigned_eq K has, written_append, written_singleton, if_pos rfl] at hget
        exact FieldValue.text.inj hget
      rw [Database.dumpUri, Database.getOptionString, huri]
      rfl

end Reached

section Replay

variable {K} {sets others : List (OptionDatabase × OptionValue)} {self : Database} {f : Field}

/-- An entry of the dump writes the field that it was read from. -/
theorem assigned_of_dump (h : Reached K sets self) (ho : Dumps self others)
    {s : OptionDatabase × OptionValue} (hs : s ∈ others) :
    ∃ f, f.key = s.1 ∧ assigned K s = [(f, self.get f)] := by
  obtain ⟨key, value⟩ := s
  obtain ⟨hkey, text, htext, rfl⟩ := (ho key value).mp hs
  cases key with
  | uri => exact absurd rfl hkey
  | username | password => cases htext
  | other name =>
    obtain ⟨f, hf, ha⟩ := assignment_of_read K h.wellFormed htext
    exact ⟨f, hf, assigned_eq K ha⟩

theorem accepted_dump (h : Reached K sets self) (ho : Dumps self others) :
    ∀ s ∈ self.dumpUri ++ others, Accepted K s := by
  intro s hs
  rcases List.mem_append.mp hs with hs | hs
  · rcases h.dumpUri_eq with ⟨-, hu⟩ | ⟨value, -, hu, hacc⟩
    · rw [hu] at hs
      cases hs
    · rw [hu, List.mem_singleton] at hs
      rw [hs]
      exact hacc
  · obtain ⟨f, -, ha⟩ := assigned_of_dump h ho hs
    by_contra hno
    rw [assigned] at ha
    split at ha
    · rename_i as has
      exact hno ⟨as, has⟩
    · cases ha

/-- An option that reads back is restored. -/
theorem written_dump_of_read (h : Reached K sets self) (ho : Dumps self others) {text : List Char}
    (hf : f.key ≠ .uri) (ht : self.getOptionString f.key = .ok text) :
    written (others.flatMap (assigned K)) f = some (self.get f) := by
  refine written_eq_some ?_ ?_
  · have hs : (f.key, OptionValue.string text) ∈ others := (ho _ _).mpr ⟨hf, text, ht, rfl⟩
    obtain ⟨g, hg, ha⟩ := assigned_of_dump h ho hs
    refine ⟨(g, self.get g), List.mem_flatMap.mpr ⟨_, hs, ?_⟩, Field.key_injective hf hg⟩
    rw [ha]
    exact List.mem_singleton_self _
  · intro a ha haf
    obtain ⟨s, hs, ha⟩ := List.mem_flatMap.mp ha
    obtain ⟨g, -, hg⟩ := assigned_of_dump h ho hs
    rw [hg, List.mem_singleton] at ha
    subst ha
    rw [← haf]

theorem written_dump_of_unreadable (h : Reached K sets self) (ho : Dumps self others) {e : Error}
    (he : self.getOptionString f.key = .error e) :
    written (others.flatMap (assigned K)) f = none := by
  refine written_eq_none fun a ha haf => ?_
  obtain ⟨s, hs, ha⟩ := List.mem_flatMap.mp ha
  obtain ⟨g, hg, hassigned⟩ := assigned_of_dump h ho hs
  rw [hassigned, List.mem_singleton] at ha
  subst ha
  obtain ⟨-, text, htext, -⟩ := (ho s.1 s.2).mp hs
  rw [← hg, show g = f from haf, he] at htext
  cases htext

/-- What a URI has set and nothing can clear is still set. -/
theorem written_uri_eq_none (h : Reached K sets self) {value : OptionValue}
    (hdefault : ¬ Writable f (Database.new.get f)) (hunset : Unset self f)
    (hu : written sets .uri = some value) : written (assigned K (.uri, value)) f = none := by
  cases hx : written (assigned K (.uri, value)) f with
  | none => rfl
  | some x =>
    have hmem : (f, x) ∈ sets.flatMap (assigned K) :=
      List.mem_flatMap.mpr ⟨_, mem_of_written hu, mem_of_written hx⟩
    cases hy : written (sets.flatMap (assigned K)) f with
    | none => exact absurd rfl (ne_of_written_eq_none hy (f, x) hmem)
    | some y =>
      have hget := h.get_eq f
      rw [hy, Option.getD_some, hunset] at hget
      exact absurd (hget ▸ h.writable_of_written hy) hdefault

theorem unreadable_of_unset (hf : f ∈ clearable) (h : Unset self f) :
    ∃ e, self.getOptionString f.key = .error e := by
  have hshown : f.key ≠ .uri ∧ self.shown f = none := by
    simp only [clearable, List.mem_cons, List.not_mem_nil, or_false] at hf
    rcases hf with rfl | rfl | rfl
    · exact ⟨OptionDatabase.noConfusion, if_pos (FieldValue.texts.inj h)⟩
    · exact ⟨OptionDatabase.noConfusion, if_pos (FieldValue.texts.inj h)⟩
    · exact ⟨OptionDatabase.noConfusion, FieldValue.text.inj h⟩
  have hread := self.toOption_getOptionString hshown.1
  rw [hshown.2] at hread
  cases hget : self.getOptionString f.key with
  | error e => exact ⟨e, rfl⟩
  | ok text =>
    rw [hget] at hread
    cases hread

/-- Fields that nothing clears are not left at their default by a set. -/
theorem not_writable_default (hf : f ∉ clearable) (hkey : f.key ≠ .uri) (hflag : f ≠ .emulator)
    (hjson : f ≠ .keyfileJson) (htoken : f ≠ .accessToken) :
    ¬ Writable f (Database.new.get f) := by
  cases f with
  | uri | database => exact absurd rfl hkey
  | emulator => exact absurd rfl hflag
  | keyfileJson => exact absurd rfl hjson
  | accessToken => exact absurd rfl htoken
  | impersonateDelegates | impersonateScopes | quotaProject => exact absurd (by decide) hf
  | endpoint | keyfile | impersonateTargetPrincipal => exact Bool.false_ne_true
  | impersonateLifetimeSecs =>
    rintro ⟨n, -, hn⟩
    cases hn

/-- What the fields that belong to the URI hold is in the URI. -/
theorem written_dumpUri (h : Reached K sets self) (hf : f.key = .uri) :
    (written (self.dumpUri.flatMap (assigned K)) f).getD (Database.new.get f) = self.get f := by
  rw [h.get_eq f, written_uri_field K (accepted_of_setOptions K h.run) hf, part]
  rcases h.dumpUri_eq with ⟨hw, hu⟩ | ⟨value, hw, hu, -⟩
  · rw [hw, hu]
    rfl
  · rw [hw, hu, List.flatMap_singleton, Option.bind_some]

/-- The replay is accepted, and gives the same configuration but for the secrets exactly when the
URI alone leaves every field unset that is unset and can be cleared. -/
theorem replay_eq_iff (h : Reached K sets self) (ho : Dumps self others) :
    (∃ copy, Database.new.setOptions K (self.dumpUri ++ others) = .ok copy ∧
      ∀ f, f ≠ .keyfileJson → f ≠ .accessToken → copy.get f = self.get f) ↔
    ∀ f ∈ clearable, Unset self f →
      ∀ fresh, Database.new.setOptions K self.dumpUri = .ok fresh → Unset fresh f := by
  have hacc := accepted_dump h ho
  obtain ⟨copy, hcopy, hget⟩ := setOptions_accepted K hacc .new
  obtain ⟨fresh, hfresh, hgetf⟩ := setOptions_accepted K
    (fun s hs => hacc s (List.mem_append_left _ hs)) .new
  have hsplit : ∀ f, copy.get f = ((written (others.flatMap (assigned K)) f).or
      (written (self.dumpUri.flatMap (assigned K)) f)).getD (Database.new.get f) := by
    intro f
    rw [hget, List.flatMap_append, written_append]
  have hunread : ∀ f e, self.getOptionString f.key = .error e → copy.get f = fresh.get f := by
    intro f e he
    rw [hsplit, written_dump_of_unreadable h ho he, Option.none_or, hgetf]
  constructor
  · rintro ⟨copy', hcopy', hsame⟩ f hf hunset fresh' hfresh'
    cases hcopy.symm.trans hcopy'
    cases hfresh.symm.trans hfresh'
    obtain ⟨e, he⟩ := unreadable_of_unset hf hunset
    have hne : f ≠ .keyfileJson ∧ f ≠ .accessToken := by
      constructor <;>
      · rintro rfl
        exact absurd hf (by decide)
    rw [Unset, ← hunread f e he, hsame f hne.1 hne.2]
    exact hunset
  · intro hall
    refine ⟨copy, hcopy, fun f hjson htoken => ?_⟩
    by_cases hkey : f.key = .uri
    · have hnone : written (others.flatMap (assigned K)) f = none := by
        refine written_eq_none fun a ha haf => ?_
        obtain ⟨s, hs, ha⟩ := List.mem_flatMap.mp ha
        obtain ⟨g, hg, hassigned⟩ := assigned_of_dump h ho hs
        rw [hassigned, List.mem_singleton] at ha
        subst ha
        rw [show g = f from haf, hkey] at hg
        exact ((ho s.1 s.2).mp hs).1 hg.symm
      rw [hsplit, hnone, Option.none_or, written_dumpUri h hkey]
    · cases hread : self.getOptionString f.key with
      | ok text =>
        rw [hsplit, written_dump_of_read h ho hkey hread]
        rfl
      | error e =>
        have hunset := unset_of_unreadable hkey hjson htoken hread
        rw [hunread f e hread, hunset]
        by_cases hf : f ∈ clearable
        · exact hall f hf hunset fresh hfresh
        · have hflag : f ≠ .emulator := by
            rintro rfl
            cases hread
          have hdefault := not_writable_default hf hkey hflag hjson htoken
          rw [hgetf]
          rcases h.dumpUri_eq with ⟨-, hu⟩ | ⟨value, hw, hu, -⟩
          · rw [hu]
            rfl
          · rw [hu, List.flatMap_singleton, written_uri_eq_none h hdefault hunset hw]
            rfl

end Replay

/-! ## A dump -/

/-- The other options that read back, in the order of the source. -/
def Database.dumpOthers (self : Database) : List (OptionDatabase × OptionValue) :=
  uriQueryOptions.filterMap fun name =>
    (self.getOther name).map fun text => (.other name, .string text)

theorem dumps_dumpOthers (self : Database) : Dumps self self.dumpOthers := by
  intro key value
  simp only [Database.dumpOthers, List.mem_filterMap, Option.map_eq_some_iff, Prod.mk.injEq]
  constructor
  · rintro ⟨name, -, text, hread, rfl, rfl⟩
    exact ⟨OptionDatabase.noConfusion, text, getOptionString_other.mpr hread, rfl⟩
  · rintro ⟨hkey, text, hread, rfl⟩
    cases key with
    | uri => exact absurd rfl hkey
    | username | password => cases hread
    | other name =>
      have hread := getOptionString_other.mp hread
      exact ⟨name, mem_of_getOther hread, text, hread, rfl, rfl⟩

def uriWithQuota : List Char :=
  "spanner:///projects/p/instances/i/databases/d?spanner.auth.quota_project=q".toList

/-- A URI that sets the quota project, and the emulator switched on. -/
def quotaByUri : List (OptionDatabase × OptionValue) :=
  [(.uri, .string uriWithQuota), (.other optionEmulator, .string "true".toList)]

def quotaByUriMade : Database :=
  { uri := some uriWithQuota, database := some "projects/p/instances/i/databases/d".toList
    emulator := true, quotaProject := some "q".toList }

theorem replay_eq_iff_quota : ∃ copy,
    Database.new.setOptions plainClient (quotaByUriMade.dumpUri ++ quotaByUriMade.dumpOthers) =
      .ok copy ∧
    ∀ f, f ≠ .keyfileJson → f ≠ .accessToken → copy.get f = quotaByUriMade.get f := by
  have hreached : Reached plainClient quotaByUri quotaByUriMade := by
    refine ⟨by decide +kernel, ?_⟩
    intro s hs
    simp only [quotaByUri, List.mem_cons, List.not_mem_nil, or_false] at hs
    rcases hs with rfl | rfl
    · trivial
    · trivial
  have hfresh : Database.new.setOptions plainClient quotaByUriMade.dumpUri =
      .ok { quotaByUriMade with emulator := false } := by decide +kernel
  refine (replay_eq_iff hreached (dumps_dumpOthers _)).mpr fun f hf hunset fresh h => ?_
  cases hfresh.symm.trans h
  simp only [clearable, List.mem_cons, List.not_mem_nil, or_false] at hf
  rcases hf with rfl | rfl | rfl <;> exact hunset

/-- The quota project of the URI is unset by an empty text; the replay sets it again. -/
theorem quota_project_restored :
    let made := Database.new.setOptions plainClient
      [(.uri, .string uriWithQuota), (.other optionQuotaProject, .string [])]
    made.map Database.quotaProject = .ok none ∧
    (made >>= fun self => Database.new.setOptions plainClient
      (self.dumpUri ++ self.dumpOthers)).map Database.quotaProject = .ok (some "q".toList) := by
  decide +kernel

end Config
end SpannerAdbc
