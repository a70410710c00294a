import Mathlib.Data.List.Forall2
import SpannerAdbc.Config.Uri
import SpannerAdbc.Lib.Result

/-!
# SpannerAdbc.Config.DirectedRead

The `spanner.directed_read` option: `parse`, as the source splits and trims the value, and the grammar
of its documentation (`Renders`), which describes the accepted texts without the parser. Blanks may
stand around every part.

* `parseSelection_eq_ok`, `parseMain_eq_ok`, `parseFlag_eq_ok`: what each stage accepts.
* `RendersMain.mem_iff`: a separator in a text comes from a location, so a well-formed specification
  renders to texts that are split where they were joined.

`debug` is the `{:?}` form of a string.
-/

namespace SpannerAdbc
namespace Config
namespace DirectedRead

open Lib
open Sql (trim trimStart trimEnd isWhitespace)

inductive Mode where
  | includes
  | excludes
  deriving DecidableEq, Repr

inductive ReplicaType where
  | readWrite
  | readOnly
  | any
  deriving DecidableEq, Repr

structure Selection where
  location : List Char
  kind : ReplicaType
  deriving DecidableEq, Repr

structure DirectedReadSpec where
  mode : Mode
  selections : List Selection
  autoFailoverDisabled : Bool
  deriving DecidableEq, Repr

def Mode.text : Mode → List Char
  | .includes => "include".toList
  | .excludes => "exclude".toList

def ReplicaType.text : ReplicaType → List Char
  | .readWrite => "read_write".toList
  | .readOnly => "read_only".toList
  | .any => "any".toList

def failoverFlag : List Char := "auto_failover_disabled".toList

/-! ## The parser -/

section Parse

variable (debug : List Char → List Char)

def unknownFlag (flag : List Char) : Error :=
  invalidArgument ("unknown spanner.directed_read flag ".toList ++ debug flag ++
    "; the only supported flag is \";auto_failover_disabled\"".toList)

def unknownMode (mode : List Char) : Error :=
  invalidArgument ("unknown spanner.directed_read mode ".toList ++ debug mode ++
    "; expected \"include\" or \"exclude\"".toList)

def unknownType (value : List Char) : Error :=
  invalidArgument ("unknown replica type ".toList ++ debug value ++
    "; expected \"read_write\", \"read_only\" or \"any\"".toList)

def emptySelection : Error :=
  invalidArgument
    "empty replica selection in spanner.directed_read (check for a stray comma)".toList

def bareSelection : Error :=
  invalidArgument "a spanner.directed_read selection needs a location and/or a replica type".toList

def failoverExcluded : Error :=
  invalidArgument "auto_failover_disabled is only valid with an \"include\" directed read".toList

def noSelections : Error :=
  invalidArgument "spanner.directed_read needs at least one replica selection".toList

def parseType (value : List Char) : Except Error ReplicaType :=
  if value = ReplicaType.readWrite.text then .ok .readWrite
  else if value = ReplicaType.readOnly.text then .ok .readOnly
  else if value = ReplicaType.any.text then .ok .any
  else .error (unknownType debug value)

def parseMode (value : List Char) : Except Error Mode :=
  if value = Mode.includes.text then .ok .includes
  else if value = Mode.excludes.text then .ok .excludes
  else .error (unknownMode debug value)

/-- The suffix behind the first semicolon, and the trimmed text in front of it. -/
def parseFlag (value : List Char) : Except Error (List Char × Bool) :=
  match splitOnce ';' value with
  | some (main, flag) =>
    if trim flag ≠ failoverFlag then .error (unknownFlag debug (trim flag)) else .ok (trim main, true)
  | none => .ok (trim value, false)

/-- The body of the loop over the selections. -/
def parseSelection (item : List Char) : Except Error Selection := do
  let item := trim item
  if item = [] then throw emptySelection
  let selection ← match splitOnce ':' item with
    | some (location, typeStr) => do
      let kind ← parseType debug (trim typeStr)
      pure { location := trim location, kind }
    | none => pure { location := item, kind := .any }
  if selection.location = [] ∧ selection.kind = .any then throw bareSelection
  return selection

/-- The mode and the selections behind the first colon. -/
def parseMain (main : List Char) : Except Error (Mode × List Selection) :=
  match splitOnce ':' main with
  | some (mode, rest) => do
    let mode ← parseMode debug (trim mode)
    let selections ← ((trim rest).splitOn ',').mapM (parseSelection debug)
    return (mode, selections)
  | none => do return (← parseMode debug main, [])

def parse (value : List Char) : Except Error DirectedReadSpec := do
  let (main, autoFailoverDisabled) ← parseFlag debug value
  let (mode, selections) ← parseMain debug main
  if autoFailoverDisabled ∧ mode = .excludes then throw failoverExcluded
  if selections = [] ∧ ¬ (mode = .includes ∧ autoFailoverDisabled) then throw noSelections
  return { mode, selections, autoFailoverDisabled }

end Parse

/-! ## The grammar -/

/-- The text with blanks around it. -/
def Padded (t s : List Char) : Prop :=
  ∃ w u, (∀ c ∈ w, isWhitespace c = true) ∧ (∀ c ∈ u, isWhitespace c = true) ∧ s = w ++ (t ++ u)

/-- A location, a location and a type, or a type alone. -/
inductive RendersSelection : Selection → List Char → Prop where
  | location {location s : List Char} : location ≠ [] → Padded location s →
      RendersSelection { location, kind := .any } s
  | typed {location s t : List Char} {kind : ReplicaType} : Padded location s → Padded kind.text t →
      RendersSelection { location, kind } (s ++ ':' :: t)

inductive RendersMain : Mode → List Selection → List Char → Prop where
  | mode {mode : Mode} {s : List Char} : Padded mode.text s → RendersMain mode [] s
  | selections {mode : Mode} {selections : List Selection} {s : List Char} {items : List (List Char)} :
      Padded mode.text s → selections ≠ [] → List.Forall₂ RendersSelection selections items →
      RendersMain mode selections (s ++ ':' :: [','].intercalate items)

inductive RendersFlag : Bool → List Char → Prop where
  | unset : RendersFlag false []
  | set {s : List Char} : Padded failoverFlag s → RendersFlag true (';' :: s)

/-- The texts of a specification. -/
def Renders (spec : DirectedReadSpec) (value : List Char) : Prop :=
  ∃ main suffix, value = main ++ suffix ∧ RendersMain spec.mode spec.selections main ∧
    RendersFlag spec.autoFailoverDisabled suffix

structure Selection.WellFormed (selection : Selection) : Prop where
  trimmed : trim selection.location = selection.location
  comma : ',' ∉ selection.location
  colon : ':' ∉ selection.location
  semicolon : ';' ∉ selection.location
  constrains : ¬ (selection.location = [] ∧ selection.kind = .any)

structure DirectedReadSpec.WellFormed (spec : DirectedReadSpec) : Prop where
  selections : ∀ selection ∈ spec.selections, selection.WellFormed
  failover : spec.autoFailoverDisabled = true → spec.mode = .includes
  nonempty : spec.selections = [] → spec.autoFailoverDisabled = true

/-! ## Parts -/

theorem padded_iff {t s : List Char} (ht : trim t = t) : Padded t s ↔ trim s = t := by
  constructor
  · rintro ⟨w, u, hw, hu, rfl⟩
    rw [Sql.trim_blanks_append hw, Sql.trim_append ht hu]
  · rintro rfl
    exact Sql.trim_parts s

theorem Padded.mem_iff {t s : List Char} (h : Padded t s) {c : Char} (hc : isWhitespace c = false) :
    c ∈ s ↔ c ∈ t := by
  obtain ⟨w, u, hw, hu, rfl⟩ := h
  have hnot {v : List Char} (hv : ∀ c ∈ v, isWhitespace c = true) : c ∉ v := fun hmem => by
    rw [hv c hmem] at hc
    cases hc
  simp [hnot hw, hnot hu]

theorem Mode.trim_text (mode : Mode) : trim mode.text = mode.text := by cases mode <;> decide

theorem ReplicaType.trim_text (kind : ReplicaType) : trim kind.text = kind.text := by
  cases kind <;> decide

theorem trim_failoverFlag : trim failoverFlag = failoverFlag := by decide

variable {debug : List Char → List Char} {value : List Char} {spec : DirectedReadSpec}

theorem parseType_eq_ok {kind : ReplicaType} :
    parseType debug value = .ok kind ↔ value = kind.text := by
  unfold parseType
  constructor
  · intro h
    split at h
    · obtain rfl := Except.ok.inj h
      assumption
    · split at h
      · obtain rfl := Except.ok.inj h
        assumption
      · split at h
        · obtain rfl := Except.ok.inj h
          assumption
        · cases h
  · rintro rfl
    cases kind <;> rfl

theorem parseMode_eq_ok {mode : Mode} :
    parseMode debug value = .ok mode ↔ value = mode.text := by
  unfold parseMode
  constructor
  · intro h
    split at h
    · obtain rfl := Except.ok.inj h
      assumption
    · split at h
      · obtain rfl := Except.ok.inj h
        assumption
      · cases h
  · rintro rfl
    cases mode <;> rfl

/-! ## Selections -/

section Parts

variable {debug : List Char → List Char} {selections : List Selection} {main s : List Char}
  {items : List (List Char)} {selection : Selection}

/-- What `parseSelection` checks of a selection: commas and semicolons are gone before. -/
structure Checked (selection : Selection) : Prop where
  trimmed : trim selection.location = selection.location
  colon : ':' ∉ selection.location
  constrains : ¬ (selection.location = [] ∧ selection.kind = .any)

theorem parseSelection_of_colon {t : List Char} (hs : ':' ∉ s) :
    parseSelection debug (s ++ ':' :: t) = (do
      let kind ← parseType debug (trim t)
      if trim s = [] ∧ kind = .any then throw bareSelection
      return { location := trim s, kind }) := by
  have htrim : trim (s ++ ':' :: t) = trimStart s ++ ':' :: trimEnd t := Sql.trim_around (by decide) s t
  have hne : trimStart s ++ ':' :: trimEnd t ≠ [] := by simp
  have hstart : ':' ∉ trimStart s := fun h => hs ((List.dropWhile_suffix _).mem h)
  have hsplit : splitOnce ':' (trimStart s ++ ':' :: trimEnd t) = some (trimStart s, trimEnd t) :=
    splitOnce_eq_some.mpr ⟨rfl, hstart⟩
  simp only [parseSelection, htrim, hne, hsplit, Sql.trim_trimStart, Sql.trim_trimEnd, if_false,
    pure_bind]

theorem parseSelection_of_not_colon (hs : ':' ∉ s) :
    parseSelection debug s =
      if trim s = [] then .error emptySelection else .ok { location := trim s, kind := .any } := by
  have hsplit : splitOnce ':' (trim s) = none :=
    splitOnce_eq_none.mpr fun h => hs (Sql.mem_of_mem_trim h)
  simp only [parseSelection, hsplit]
  split
  · rfl
  · rename_i h
    simp only [h, false_and, if_false, pure_bind]
    rfl

theorem parseSelection_eq_ok {item : List Char} :
    parseSelection debug item = .ok selection ↔
      Checked selection ∧ RendersSelection selection item := by
  constructor
  · intro h
    by_cases hcolon : ':' ∈ item
    · obtain ⟨s, t, rfl, hs⟩ := List.eq_append_cons_of_mem hcolon
      rw [parseSelection_of_colon hs, bind_eq_ok] at h
      obtain ⟨kind, hkind, h⟩ := h
      rw [parseType_eq_ok] at hkind
      split at h
      · cases h
      · rename_i hbare
        obtain rfl := Except.ok.inj h
        refine ⟨⟨Sql.trim_trim s, fun hc => hs (Sql.mem_of_mem_trim hc), hbare⟩, ?_⟩
        exact .typed ((padded_iff (Sql.trim_trim s)).mpr rfl) ((padded_iff kind.trim_text).mpr hkind)
    · rw [parseSelection_of_not_colon hcolon] at h
      split at h
      · cases h
      · rename_i hne
        obtain rfl := Except.ok.inj h
        have hfree : ':' ∉ trim item := fun hc => hcolon (Sql.mem_of_mem_trim hc)
        refine ⟨⟨Sql.trim_trim item, hfree, fun hbare => hne hbare.1⟩, ?_⟩
        exact .location hne ((padded_iff (Sql.trim_trim item)).mpr rfl)
  · rintro ⟨hchecked, hrenders⟩
    cases hrenders with
    | @location location s hne hpad =>
      have hs : ':' ∉ item := fun h => hchecked.colon ((hpad.mem_iff (by decide)).mp h)
      rw [parseSelection_of_not_colon hs, (padded_iff hchecked.trimmed).mp hpad, if_neg hne]
    | @typed location s t kind hpad htype =>
      have hs : ':' ∉ s := fun h => hchecked.colon ((hpad.mem_iff (by decide)).mp h)
      have htext : trim t = kind.text := (padded_iff kind.trim_text).mp htype
      have hlocation : trim s = location := (padded_iff hchecked.trimmed).mp hpad
      rw [parseSelection_of_colon hs, bind_eq_ok]
      refine ⟨kind, parseType_eq_ok.mpr htext, ?_⟩
      rw [hlocation, if_neg hchecked.constrains]
      rfl

/-- A character that is no blank, no colon and in no type comes from the location. -/
theorem RendersSelection.mem_iff (h : RendersSelection selection s) {c : Char}
    (hc : c = ',' ∨ c = ';') :
    c ∈ s ↔ c ∈ selection.location := by
  have hblank : isWhitespace c = false := by rcases hc with rfl | rfl <;> decide
  have hcolon : c ≠ ':' := by rcases hc with rfl | rfl <;> decide
  have htype (kind : ReplicaType) : c ∉ kind.text := by
    rcases hc with rfl | rfl <;> cases kind <;> decide
  cases h with
  | location _ hpad => exact hpad.mem_iff hblank
  | @typed location s t kind hpad hkind =>
    rw [List.mem_append, List.mem_cons, hpad.mem_iff hblank, hkind.mem_iff hblank]
    simp [hcolon, htype kind]

theorem free_of_separator (h : List.Forall₂ RendersSelection selections items) {c : Char}
    (hc : c = ',' ∨ c = ';') :
    (∀ selection ∈ selections, c ∉ selection.location) ↔ ∀ item ∈ items, c ∉ item :=
  forall_mem_congr h fun _ _ hab => not_congr (hab.mem_iff hc).symm

/-! ## The mode and the list -/

section Items

variable {c : Char} (hc : isWhitespace c = false)

include hc

theorem not_mem_blanks {v : List Char} (hv : ∀ d ∈ v, isWhitespace d = true) : c ∉ v := by
  intro hmem
  rw [hv c hmem] at hc
  cases hc

theorem map_trim_splitOn_left {w : List Char} (hw : ∀ d ∈ w, isWhitespace d = true) (s : List Char) :
    ((w ++ s).splitOn c).map trim = (s.splitOn c).map trim := by
  obtain ⟨x, rest, hsplit⟩ := List.exists_cons_of_ne_nil (List.splitOn_ne_nil c s)
  obtain ⟨htext, -, hfree⟩ := splitOn_eq_iff.mp hsplit
  obtain ⟨hx, hrest⟩ := List.forall_mem_cons.mp hfree
  have happend : (w ++ s).splitOn c = (w ++ x) :: rest := by
    refine splitOn_eq_iff.mpr ⟨?_, List.cons_ne_nil _ _, List.forall_mem_cons.mpr ⟨?_, hrest⟩⟩
    · rw [htext, append_intercalate]
    · simp [not_mem_blanks hc hw, hx]
  rw [happend, hsplit, List.map_cons, List.map_cons, Sql.trim_blanks_append hw]

theorem map_trim_splitOn_right {u : List Char} (hu : ∀ d ∈ u, isWhitespace d = true) (s : List Char) :
    ((s ++ u).splitOn c).map trim = (s.splitOn c).map trim := by
  obtain ⟨front, x, hsplit⟩ := (List.eq_nil_or_concat (s.splitOn c)).resolve_left
    (List.splitOn_ne_nil c s)
  rw [List.concat_eq_append] at hsplit
  obtain ⟨htext, -, hfree⟩ := splitOn_eq_iff.mp hsplit
  obtain ⟨hfront, hx⟩ := List.forall_mem_append.mp hfree
  have happend : (s ++ u).splitOn c = front ++ [x ++ u] := by
    refine splitOn_eq_iff.mpr ⟨?_, by simp, List.forall_mem_append.mpr ⟨hfront, ?_⟩⟩
    · rw [htext, intercalate_append]
    · have hx := hx x List.mem_cons_self
      simp [not_mem_blanks hc hu, hx]
  rw [happend, hsplit, List.map_append, List.map_append, List.map_singleton, List.map_singleton,
    Sql.trim_append_blanks hu]

/-- Trimming the list does not show in its trimmed items. -/
theorem map_trim_splitOn (s : List Char) :
    ((trim s).splitOn c).map trim = (s.splitOn c).map trim := by
  obtain ⟨w, u, hw, hu, hs⟩ := Sql.trim_parts s
  conv_rhs => rw [hs, map_trim_splitOn_left hc hw, map_trim_splitOn_right hc hu]

end Items

theorem parseSelection_trim (item : List Char) :
    parseSelection debug (trim item) = parseSelection debug item := by
  rw [parseSelection, parseSelection, Sql.trim_trim]

theorem parseSelections_trim (s : List Char) : ((trim s).splitOn ',').mapM (parseSelection debug) =
    (s.splitOn ',').mapM (parseSelection debug) := by
  have htrim (items : List (List Char)) :
      (items.map trim).mapM (parseSelection debug) = items.mapM (parseSelection debug) := by
    rw [List.mapM_map]
    exact congrArg (fun f => items.mapM f) (funext parseSelection_trim)
  rw [← htrim, map_trim_splitOn (by decide), htrim]

theorem parseMain_of_colon {rest : List Char} (hs : ':' ∉ s) :
    parseMain debug (trim (s ++ ':' :: rest)) = (do
      let mode ← parseMode debug (trim s)
      let selections ← (rest.splitOn ',').mapM (parseSelection debug)
      return (mode, selections)) := by
  have htrim : trim (s ++ ':' :: rest) = trimStart s ++ ':' :: trimEnd rest :=
    Sql.trim_around (by decide) s rest
  have hstart : ':' ∉ trimStart s := fun h => hs ((List.dropWhile_suffix _).mem h)
  have hsplit : splitOnce ':' (trimStart s ++ ':' :: trimEnd rest) = some (trimStart s, trimEnd rest) :=
    splitOnce_eq_some.mpr ⟨rfl, hstart⟩
  simp only [parseMain, htrim, hsplit, Sql.trim_trimStart, Sql.trim_trimEnd, parseSelections_trim]

theorem parseMain_of_not_colon (hs : ':' ∉ s) :
    parseMain debug (trim s) = (do return (← parseMode debug (trim s), [])) := by
  have hsplit : splitOnce ':' (trim s) = none :=
    splitOnce_eq_none.mpr fun h => hs (Sql.mem_of_mem_trim h)
  simp only [parseMain, hsplit]

theorem parseSelections_eq_ok :
    items.mapM (parseSelection debug) = .ok selections ↔
      (∀ selection ∈ selections, Checked selection) ∧
        List.Forall₂ RendersSelection selections items := by
  rw [mapM_eq_ok, ← List.forall₂_and_left]
  simp only [parseSelection_eq_ok]
  exact ⟨List.Forall₂.flip, List.Forall₂.flip⟩

theorem parseMain_eq_ok {mode : Mode} :
    parseMain debug (trim main) = .ok (mode, selections) ↔
      (∀ selection ∈ selections, Checked selection ∧ ',' ∉ selection.location) ∧
        RendersMain mode selections main := by
  constructor
  · intro h
    by_cases hcolon : ':' ∈ main
    · obtain ⟨s, rest, rfl, hs⟩ := List.eq_append_cons_of_mem hcolon
      rw [parseMain_of_colon hs, bind_eq_ok] at h
      obtain ⟨mode', hmode, h⟩ := h
      obtain ⟨selections', hselections, h⟩ := bind_eq_ok.mp h
      obtain ⟨rfl, rfl⟩ := Prod.mk.inj (Except.ok.inj h)
      obtain ⟨hchecked, hitems⟩ := parseSelections_eq_ok.mp hselections
      obtain ⟨htext, hne, hfree⟩ := splitOn_eq_iff.mp (rfl : rest.splitOn ',' = _)
      have hcomma := (free_of_separator hitems (.inl rfl)).mpr hfree
      refine ⟨fun selection hmem => ⟨hchecked selection hmem, hcomma selection hmem⟩, ?_⟩
      rw [htext]
      refine .selections ((padded_iff mode'.trim_text).mpr (parseMode_eq_ok.mp hmode)) ?_ hitems
      rintro rfl
      exact hne (List.forall₂_nil_left_iff.mp hitems)
    · rw [parseMain_of_not_colon hcolon, bind_eq_ok] at h
      obtain ⟨mode', hmode, h⟩ := h
      obtain ⟨rfl, rfl⟩ := Prod.mk.inj (Except.ok.inj h)
      exact ⟨by simp, .mode ((padded_iff mode'.trim_text).mpr (parseMode_eq_ok.mp hmode))⟩
  · rintro ⟨hselections, hrenders⟩
    have hmode {s : List Char} (hpad : Padded mode.text s) :
        ':' ∉ s ∧ parseMode debug (trim s) = .ok mode := by
      refine ⟨fun h => ?_, parseMode_eq_ok.mpr ((padded_iff mode.trim_text).mp hpad)⟩
      have := (hpad.mem_iff (by decide)).mp h
      revert this
      cases mode <;> decide
    cases hrenders with
    | mode hpad =>
      obtain ⟨hs, hparse⟩ := hmode hpad
      rw [parseMain_of_not_colon hs, hparse]
      rfl
    | @selections _ s items hpad hne hitems =>
      obtain ⟨hs, hparse⟩ := hmode hpad
      have hcomma := (free_of_separator hitems (.inl rfl)).mp fun selection hmem =>
        (hselections selection hmem).2
      have hsplit : ([','].intercalate items).splitOn ',' = items := by
        refine splitOn_eq_iff.mpr ⟨rfl, ?_, hcomma⟩
        rintro rfl
        exact hne (List.forall₂_nil_right_iff.mp hitems)
      rw [parseMain_of_colon hs, hsplit, hparse,
        parseSelections_eq_ok.mpr ⟨fun selection hmem => (hselections selection hmem).1, hitems⟩]
      rfl

/-- A semicolon comes from a location. -/
theorem RendersMain.mem_iff {mode : Mode} (h : RendersMain mode selections main) :
    ';' ∉ main ↔ ∀ selection ∈ selections, ';' ∉ selection.location := by
  have hmode {s : List Char} (hpad : Padded mode.text s) : ';' ∉ s := by
    intro h
    have := (hpad.mem_iff (by decide)).mp h
    revert this
    cases mode <;> decide
  cases h with
  | mode hpad => simp [hmode hpad]
  | @selections _ s items hpad _ hitems =>
    rw [free_of_separator hitems (.inr rfl), List.mem_append, List.mem_cons,
      mem_intercalate (by decide)]
    simp [hmode hpad]

theorem parseFlag_eq_ok {value : List Char} {flag : Bool} :
    parseFlag debug value = .ok (main, flag) ↔
      ∃ front suffix, value = front ++ suffix ∧ ';' ∉ front ∧ main = trim front ∧
        RendersFlag flag suffix := by
  rw [parseFlag]
  constructor
  · intro h
    split at h
    · rename_i front rest hsplit
      obtain ⟨rfl, hfront⟩ := splitOnce_eq_some.mp hsplit
      split at h
      · cases h
      · rename_i hflag
        obtain ⟨rfl, rfl⟩ := Prod.mk.inj (Except.ok.inj h)
        have hpad := (padded_iff trim_failoverFlag).mpr (not_ne_iff.mp hflag)
        exact ⟨front, ';' :: rest, rfl, hfront, rfl, .set hpad⟩
    · rename_i hsplit
      obtain ⟨rfl, rfl⟩ := Prod.mk.inj (Except.ok.inj h)
      exact ⟨value, [], (List.append_nil value).symm, splitOnce_eq_none.mp hsplit, rfl, .unset⟩
  · rintro ⟨front, suffix, rfl, hfront, rfl, hflag⟩
    cases hflag with
    | unset =>
      rw [List.append_nil, splitOnce_eq_none.mpr hfront]
    | @set s hpad =>
      have htext := (padded_iff trim_failoverFlag).mp hpad
      rw [splitOnce_eq_some.mpr ⟨rfl, hfront⟩]
      simp [htext]

end Parts

/-! ## The option -/

theorem parse_eq_ok :
    parse debug value = .ok spec ↔ ∃ main,
      parseFlag debug value = .ok (main, spec.autoFailoverDisabled) ∧
      parseMain debug main = .ok (spec.mode, spec.selections) ∧
      (spec.autoFailoverDisabled = true → spec.mode = .includes) ∧
      (spec.selections = [] → spec.autoFailoverDisabled = true) := by
  constructor
  · intro h
    rw [parse, bind_eq_ok] at h
    obtain ⟨⟨main, flag⟩, hflag, h⟩ := h
    obtain ⟨⟨mode, selections⟩, hmain, h⟩ := bind_eq_ok.mp h
    dsimp only at h
    split at h
    · cases h
    · rename_i hfailover
      split at h
      · cases h
      · rename_i hnone
        obtain rfl := Except.ok.inj h
        refine ⟨main, hflag, hmain, fun hset => ?_, fun hempty => ?_⟩
        · cases mode with
          | includes => rfl
          | excludes => exact absurd ⟨hset, rfl⟩ hfailover
        · by_contra hunset
          exact hnone ⟨hempty, fun hset => hunset hset.2⟩
  · rintro ⟨main, hflag, hmain, hfailover, hnonempty⟩
    have hexcluded : ¬ (spec.autoFailoverDisabled = true ∧ spec.mode = .excludes) := by
      rintro ⟨hset, hmode⟩
      rw [hfailover hset] at hmode
      cases hmode
    have hnone : ¬ (spec.selections = [] ∧
        ¬ (spec.mode = .includes ∧ spec.autoFailoverDisabled = true)) := fun h =>
      h.2 ⟨hfailover (hnonempty h.1), hnonempty h.1⟩
    rw [parse, hflag]
    simp only [bind, Except.bind, hmain, hexcluded, hnone, if_false]
    rfl

/-! ## One rendering of each specification -/

def Selection.render (selection : Selection) : List Char :=
  if selection.kind = .any then selection.location
  else selection.location ++ ':' :: selection.kind.text

def DirectedReadSpec.render (spec : DirectedReadSpec) : List Char :=
  let selections :=
    if spec.selections = [] then [] else ':' :: [','].intercalate (spec.selections.map Selection.render)
  let flag := if spec.autoFailoverDisabled then ';' :: failoverFlag else []
  (spec.mode.text ++ selections) ++ flag

theorem padded_self (t : List Char) : Padded t t := ⟨[], [], by simp, by simp, by simp⟩

theorem Selection.renders_render {selection : Selection} (h : selection.WellFormed) :
    RendersSelection selection selection.render := by
  obtain ⟨location, kind⟩ := selection
  rw [render]
  split
  · rename_i hany
    dsimp only at hany
    subst hany
    exact .location (fun hempty => h.constrains ⟨hempty, rfl⟩) (padded_self location)
  · exact .typed (padded_self location) (padded_self kind.text)

theorem DirectedReadSpec.renders_render (h : spec.WellFormed) :
    Renders spec spec.render := by
  refine ⟨_, _, rfl, ?_, ?_⟩
  · split
    · rename_i hempty
      rw [hempty, List.append_nil]
      exact .mode (padded_self _)
    · rename_i hne
      refine .selections (padded_self _) hne ?_
      rw [List.forall₂_map_right_iff, List.forall₂_same]
      intro selection hmem
      exact Selection.renders_render (h.selections selection hmem)
  · cases spec.autoFailoverDisabled with
    | false => exact .unset
    | true => exact .set (padded_self _)

/-! ## The grammar is what is parsed -/

/-- A text is accepted exactly if it is a rendering of a well-formed specification, which is what it
is parsed to, and each of these has a rendering. -/
theorem directed_read_parses_grammar (debug : List Char → List Char) (spec : DirectedReadSpec) :
    (∀ value, parse debug value = .ok spec ↔ spec.WellFormed ∧ Renders spec value) ∧
    (spec.WellFormed → parse debug spec.render = .ok spec) := by
  have hparse (value : List Char) :
      parse debug value = .ok spec ↔ spec.WellFormed ∧ Renders spec value := by
    rw [parse_eq_ok]
    constructor
    · rintro ⟨main, hflag, hmain, hfailover, hnonempty⟩
      obtain ⟨front, suffix, rfl, hfront, rfl, hsuffix⟩ := parseFlag_eq_ok.mp hflag
      obtain ⟨hselections, hrenders⟩ := parseMain_eq_ok.mp hmain
      have hsemicolon := hrenders.mem_iff.mp hfront
      refine ⟨⟨fun selection hmem => ?_, hfailover, hnonempty⟩, front, suffix, rfl, hrenders, hsuffix⟩
      obtain ⟨hchecked, hcomma⟩ := hselections selection hmem
      exact ⟨hchecked.trimmed, hcomma, hchecked.colon, hsemicolon selection hmem, hchecked.constrains⟩
    · rintro ⟨hspec, front, suffix, rfl, hrenders, hsuffix⟩
      have hfront := hrenders.mem_iff.mpr fun selection hmem =>
        (hspec.selections selection hmem).semicolon
      refine ⟨trim front, parseFlag_eq_ok.mpr ⟨front, suffix, rfl, hfront, rfl, hsuffix⟩,
        parseMain_eq_ok.mpr ⟨fun selection hmem => ?_, hrenders⟩, hspec.failover, hspec.nonempty⟩
      have hselection := hspec.selections selection hmem
      exact ⟨⟨hselection.trimmed, hselection.colon, hselection.constrains⟩, hselection.comma⟩
  exact ⟨hparse, fun hspec => (hparse _).mpr ⟨hspec, DirectedReadSpec.renders_render hspec⟩⟩

/-- An example of the documentation, and a text with blanks around its parts. -/
theorem directed_read_parses_grammar_two :
    parse id "include:us-east1:read_only,us-east4".toList =
      .ok ⟨.includes, [⟨"us-east1".toList, .readOnly⟩, ⟨"us-east4".toList, .any⟩], false⟩ ∧
    Renders ⟨.includes, [⟨[], .readOnly⟩], true⟩
      " include : :read_only ; auto_failover_disabled ".toList := by
  have htext : "include:us-east1:read_only,us-east4".toList = DirectedReadSpec.render
      ⟨.includes, [⟨"us-east1".toList, .readOnly⟩, ⟨"us-east4".toList, .any⟩], false⟩ := by
    decide +kernel
  have hparse : parse id " include : :read_only ; auto_failover_disabled ".toList =
      .ok ⟨.includes, [⟨[], .readOnly⟩], true⟩ := by decide +kernel
  refine ⟨?_, (((directed_read_parses_grammar id _).1 _).mp hparse).2⟩
  rw [htext]
  refine (directed_read_parses_grammar id _).2 ⟨?_, by simp, by simp⟩
  have htyped : Selection.WellFormed ⟨"us-east1".toList, .readOnly⟩ :=
    ⟨by decide +kernel, by decide +kernel, by decide +kernel, by decide +kernel, by decide +kernel⟩
  have hany : Selection.WellFormed ⟨"us-east4".toList, .any⟩ :=
    ⟨by decide +kernel, by decide +kernel, by decide +kernel, by decide +kernel, by decide +kernel⟩
  exact List.forall_mem_cons.mpr ⟨htyped, List.forall_mem_singleton.mpr hany⟩

end DirectedRead
end Config
end SpannerAdbc
