import Mathlib.Data.List.Nodup
import SpannerAdbc.Arrow.DataType
import SpannerAdbc.Sql.Parameters

/-!
# SpannerAdbc.Binding.Names

`resolve_parameter_names`: the parameter that each bound column is sent under. By position the columns
take the parameters in the order of the query; by name each column takes the parameter it is named
after, in the spelling of the query.

`bindByNameLoop_eq_ok` says what the loop over the columns finds: its set of bound parameters is that
of the columns behind it, so it stops at the first column that names no parameter or one that is taken.
-/

namespace SpannerAdbc
namespace Binding

open Arrow Lib Sql

/-- `{:?}` of a list of names. -/
def debugNames (D : Debug) (names : List (List Char)) : List Char :=
  "[".toList ++ List.intercalate ", ".toList (names.map D.string) ++ "]".toList

def unnamedColumn (D : Debug) (column : List Char) (params : List (List Char)) : Error :=
  invalidArgument ("cannot bind column ".toList ++ D.string column ++
    ": adbc.statement.bind_by_name is true, so every bound column must be named after one of ".toList ++
    "the query's parameters, which are ".toList ++ debugNames D params ++
    "; rename the column or set adbc.statement.bind_by_name to false to bind positionally".toList)

def repeatedColumn (D : Debug) (column param : List Char) : Error :=
  invalidArgument ("cannot bind column ".toList ++ D.string column ++
    ": it names the same query parameter ".toList ++ D.string param ++
    " as an earlier column (parameter names are case-insensitive); bind one column per ".toList ++
    "parameter".toList)

def countMismatch (D : Debug) (params columnNames : List (List Char)) : Error :=
  invalidArgument ("parameter count mismatch: query references ".toList ++
    Nat.toDigits 10 params.length ++ " parameter(s) ".toList ++ debugNames D params ++
    " but ".toList ++ Nat.toDigits 10 columnNames.length ++ " column(s) were bound".toList)

/-- The map from the lowercased parameters to their spellings. -/
def paramSet (params : List (List Char)) : List (List Char × List Char) :=
  collapse (params.map fun p => (toAsciiLowercase p, p))

/-- The loop over the columns, with the sets `bound` and `resolved`. -/
def bindByNameLoop (D : Debug) (params : List (List Char)) : List (List Char) → List (List Char) →
    List (List Char) → Except Error (List (List Char))
  | [], _, resolved => .ok resolved
  | column :: columns, bound, resolved =>
    match lookup (toAsciiLowercase column) (paramSet params) with
    | none => .error (unnamedColumn D column params)
    | some param =>
      if bound.contains (toAsciiLowercase param) then .error (repeatedColumn D column param)
      else bindByNameLoop D params columns (toAsciiLowercase param :: bound) (resolved ++ [param])

/-- `resolve_parameter_names`, on the schema of the batch: it reads nothing else of it. -/
def resolveParameterNames (D : Debug) (sql : List Char) (schema : Schema) (bindByName : Bool) :
    Except Error (List (List Char)) :=
  let columnNames := schema.map Field.name
  let params := namedParameters sql
  if bindByName then bindByNameLoop D params columnNames [] []
  else if params.length ≠ columnNames.length then .error (countMismatch D params columnNames)
  else .ok params

/-! ## By name -/

/-- The column is named after the parameter of the query. -/
def NamedAfter (sql column param : List Char) : Prop :=
  param ∈ namedParameters sql ∧ eqIgnoreAsciiCase column param = true

section Names

variable {params : List (List Char)} {D : Debug}

theorem lookup_paramSet (hnodup : (params.map toAsciiLowercase).Nodup) {key param : List Char} :
    lookup key (paramSet params) = some param ↔ param ∈ params ∧ key = toAsciiLowercase param := by
  rw [paramSet, lookup_collapse]
  constructor
  · intro h
    obtain ⟨entry, hfind, rfl⟩ := Option.map_eq_some_iff.mp h
    have hkey := List.find?_some hfind
    obtain ⟨p, hp, rfl⟩ := List.mem_map.mp (List.mem_reverse.mp (List.mem_of_find?_eq_some hfind))
    exact ⟨hp, (of_decide_eq_true hkey).symm⟩
  · rintro ⟨hparam, rfl⟩
    obtain ⟨entry, hfind⟩ : ∃ entry, (params.map fun p => (toAsciiLowercase p, p)).reverse.find?
        (fun s => s.1 = toAsciiLowercase param) = some entry := by
      rw [← Option.isSome_iff_exists, List.find?_isSome]
      exact ⟨(toAsciiLowercase param, param),
        List.mem_reverse.mpr (List.mem_map.mpr ⟨param, hparam, rfl⟩), by simp⟩
    have hkey := List.find?_some hfind
    obtain ⟨p, hp, rfl⟩ := List.mem_map.mp (List.mem_reverse.mp (List.mem_of_find?_eq_some hfind))
    rw [hfind, List.inj_on_of_nodup_map hnodup hp hparam (of_decide_eq_true hkey)]
    rfl

/-- The columns are named after parameters, no two after the same one, and none after one of these. -/
theorem bindByNameLoop_eq_ok (hnodup : (params.map toAsciiLowercase).Nodup)
    {columns bound resolved names : List (List Char)} :
    bindByNameLoop D params columns bound resolved = .ok names ↔
      ∃ spellings, names = resolved ++ spellings ∧
        List.Forall₂ (fun c p => p ∈ params ∧ eqIgnoreAsciiCase c p = true) columns spellings ∧
        (columns.map toAsciiLowercase).Nodup ∧ ∀ c ∈ columns, toAsciiLowercase c ∉ bound := by
  induction columns generalizing bound resolved with
  | nil =>
    constructor
    · intro h
      exact ⟨[], by simpa using (Except.ok.inj h).symm, .nil, List.nodup_nil, by simp⟩
    · rintro ⟨spellings, rfl, hspell, -, -⟩
      cases hspell
      rw [List.append_nil]
      rfl
  | cons c columns ih =>
    rw [bindByNameLoop]
    constructor
    · intro h
      split at h
      · cases h
      · rename_i param hparam
        obtain ⟨hmem, hkey⟩ := (lookup_paramSet hnodup).mp hparam
        split at h
        · cases h
        · rename_i hnew
          obtain ⟨spellings, rfl, hspell, hcols, hbound⟩ := ih.mp h
          simp only [List.mem_cons, not_or] at hbound
          have hsame := eqIgnoreAsciiCase_iff.mpr hkey
          refine ⟨param :: spellings, by simp, .cons ⟨hmem, hsame⟩ hspell, ?_, ?_⟩
          · rw [List.map_cons, List.nodup_cons]
            refine ⟨fun hc => ?_, hcols⟩
            obtain ⟨c', hc', e⟩ := List.mem_map.mp hc
            exact (hbound c' hc').1 (e.trans hkey)
          · refine List.forall_mem_cons.mpr ⟨?_, fun c' hc' => (hbound c' hc').2⟩
            rw [hkey]
            exact fun hc => hnew (List.contains_iff_mem.mpr hc)
    · rintro ⟨_, rfl, hspell, hcols, hbound⟩
      cases hspell with
      | @cons _ param _ spellings hc hspell =>
        obtain ⟨hc₁, hcols⟩ := List.nodup_cons.mp hcols
        obtain ⟨hnew, hbound⟩ := List.forall_mem_cons.mp hbound
        have hkey := eqIgnoreAsciiCase_iff.mp hc.2
        rw [(lookup_paramSet hnodup).mpr ⟨hc.1, hkey⟩]
        rw [hkey] at hnew hc₁
        dsimp only
        rw [if_neg (mt List.contains_iff_mem.mp hnew)]
        refine ih.mpr ⟨spellings, by simp, hspell, hcols, fun c' hc' => ?_⟩
        rw [List.mem_cons, not_or]
        exact ⟨fun e => hc₁ (e ▸ List.mem_map_of_mem hc'), hbound c' hc'⟩

end Names

/-- Every column is named after a parameter, no two after the same one. -/
structure Pairable (sql : List Char) (columns : List (List Char)) : Prop where
  named : ∀ column ∈ columns, ∃ param, NamedAfter sql column param
  distinct : columns.Pairwise fun a b => ∀ param, ¬ (NamedAfter sql a param ∧ NamedAfter sql b param)

/-- The parameter that the column is named after, as the query spells it. -/
def spelling (sql column : List Char) : List Char :=
  ((namedParameters sql).find? (eqIgnoreAsciiCase column)).getD []

section Pairing

variable {D : Debug} {sql : List Char} {columns : List (List Char)} {schema : Schema}
  {names : List (List Char)} {column : List Char}

theorem NamedAfter.key_eq {param : List Char} (h : NamedAfter sql column param) :
    toAsciiLowercase column = toAsciiLowercase param := eqIgnoreAsciiCase_iff.mp h.2

theorem namedAfter_spelling {param : List Char} (h : NamedAfter sql column param) :
    NamedAfter sql column (spelling sql column) := by
  obtain ⟨found, hfind⟩ := Option.isSome_iff_exists.mp (List.find?_isSome.mpr ⟨param, h⟩)
  rw [spelling, hfind]
  exact ⟨List.mem_of_find?_eq_some hfind, List.find?_some hfind⟩

theorem NamedAfter.eq_of_key {a b p q : List Char} (ha : NamedAfter sql a p) (hb : NamedAfter sql b q)
    (h : toAsciiLowercase a = toAsciiLowercase b) : p = q := by
  refine List.inj_on_of_nodup_map (nodup_namedParameters sql) ha.1 hb.1 ?_
  rw [← ha.key_eq, h, hb.key_eq]

theorem pairable_iff : Pairable sql columns ↔
    (∀ column ∈ columns, ∃ param, NamedAfter sql column param) ∧
    (columns.map toAsciiLowercase).Nodup := by
  have hdistinct (hnamed : ∀ column ∈ columns, ∃ param, NamedAfter sql column param) :
      (columns.Pairwise fun a b => ∀ param, ¬ (NamedAfter sql a param ∧ NamedAfter sql b param)) ↔
        (columns.map toAsciiLowercase).Nodup := by
    rw [List.Nodup, List.pairwise_map]
    refine List.Pairwise.iff_of_mem fun {a b} ha hb => ⟨fun h e => ?_, fun h param hp => ?_⟩
    · obtain ⟨p, hp⟩ := hnamed a ha
      obtain ⟨q, hq⟩ := hnamed b hb
      obtain rfl := hp.eq_of_key hq e
      exact h p ⟨hp, hq⟩
    · exact h (hp.1.key_eq.trans hp.2.key_eq.symm)
  constructor
  · intro h
    exact ⟨h.named, (hdistinct h.named).mp h.distinct⟩
  · rintro ⟨hnamed, hnodup⟩
    exact ⟨hnamed, (hdistinct hnamed).mpr hnodup⟩

theorem Pairable.perm {columns' : List (List Char)} (h : Pairable sql columns)
    (hperm : columns.Perm columns') : Pairable sql columns' where
  named column hc := h.named column (hperm.mem_iff.mpr hc)
  distinct := hperm.pairwise h.distinct fun hab param hp => hab param hp.symm

theorem forall₂_namedAfter : List.Forall₂ (NamedAfter sql) columns names ↔
    (∀ column ∈ columns, ∃ param, NamedAfter sql column param) ∧
      names = columns.map (spelling sql) := by
  induction columns generalizing names with
  | nil => simp
  | cons c columns ih =>
    rw [List.forall₂_cons_left_iff, List.forall_mem_cons, List.map_cons]
    constructor
    · rintro ⟨p, names, hp, hnames, rfl⟩
      obtain ⟨hnamed, rfl⟩ := ih.mp hnames
      refine ⟨⟨⟨p, hp⟩, hnamed⟩, ?_⟩
      rw [hp.eq_of_key (namedAfter_spelling hp) rfl]
    · rintro ⟨⟨⟨p, hp⟩, hnamed⟩, rfl⟩
      exact ⟨_, _, namedAfter_spelling hp, ih.mpr ⟨hnamed, rfl⟩, rfl⟩

theorem resolve_byName_eq_ok :
    resolveParameterNames D sql schema true = .ok names ↔
      Pairable sql (schema.map Field.name) ∧ names = (schema.map Field.name).map (spelling sql) := by
  have hloop : resolveParameterNames D sql schema true =
      bindByNameLoop D (namedParameters sql) (schema.map Field.name) [] [] := rfl
  rw [hloop, bindByNameLoop_eq_ok (nodup_namedParameters sql), pairable_iff, and_right_comm,
    ← forall₂_namedAfter]
  constructor
  · rintro ⟨_, rfl, hspell, hcols, -⟩
    exact ⟨hspell, hcols⟩
  · rintro ⟨hspell, hcols⟩
    exact ⟨names, rfl, hspell, hcols, fun _ _ => List.not_mem_nil⟩

theorem resolve_byName (h : Pairable sql (schema.map Field.name)) :
    resolveParameterNames D sql schema true = .ok ((schema.map Field.name).map (spelling sql)) :=
  resolve_byName_eq_ok.mpr ⟨h, rfl⟩

theorem resolve_byName_not (h : ¬ Pairable sql (schema.map Field.name)) :
    (resolveParameterNames D sql schema true).toOption = none := by
  cases hresolve : resolveParameterNames D sql schema true with
  | error e => rfl
  | ok names => exact absurd (resolve_byName_eq_ok.mp hresolve).1 h

/-- Each column takes its parameter along. -/
theorem resolve_reorder {order : List Nat} (h : order.Perm (List.range schema.length)) :
    (resolveParameterNames D sql (reorder order schema) true).toOption =
      (resolveParameterNames D sql schema true).toOption.map (reorder order) := by
  have hperm : ((reorder order schema).map Field.name).Perm (schema.map Field.name) :=
    (perm_reorder h).map Field.name
  by_cases hpair : Pairable sql (schema.map Field.name)
  · rw [resolve_byName hpair, resolve_byName (hpair.perm hperm.symm), map_reorder, map_reorder]
    rfl
  · rw [resolve_byName_not hpair, resolve_byName_not fun h => hpair (h.perm hperm)]
    rfl

theorem resolve_positional_eq_ok :
    resolveParameterNames D sql schema false = .ok names ↔
      (namedParameters sql).length = schema.length ∧ names = namedParameters sql := by
  have hdef : resolveParameterNames D sql schema false =
      if (namedParameters sql).length ≠ (schema.map Field.name).length then
        .error (countMismatch D (namedParameters sql) (schema.map Field.name))
      else .ok (namedParameters sql) := rfl
  rw [hdef, List.length_map]
  split
  · rename_i h
    simp [h]
  · rename_i h
    rw [not_ne_iff] at h
    simp [h, eq_comm]

/-- The parameters name themselves. -/
theorem resolve_namedParameters (h : schema.map Field.name = namedParameters sql) (bindByName : Bool) :
    resolveParameterNames D sql schema bindByName = .ok (schema.map Field.name) := by
  cases bindByName with
  | false =>
    refine resolve_positional_eq_ok.mpr ⟨?_, h⟩
    rw [← h, List.length_map]
  | true =>
    have hself : List.Forall₂ (NamedAfter sql) (namedParameters sql) (namedParameters sql) :=
      List.forall₂_same.mpr fun p hp => ⟨hp, eqIgnoreAsciiCase_iff.mpr rfl⟩
    obtain ⟨hnamed, hspell⟩ := forall₂_namedAfter.mp hself
    rw [resolve_byName_eq_ok, h]
    exact ⟨pairable_iff.mpr ⟨hnamed, nodup_namedParameters sql⟩, hspell⟩

end Pairing

/-! ## Extraction and pairing -/

/-- The parameters of a query and the pairings of columns with them. -/
theorem parameters_extracted_and_paired (D : Debug) (sql : List Char) :
    (namedParameters sql = keepFirst toAsciiLowercase [] (references [] (significantLexemes sql)) ∧
      (∀ name, name ∈ references [] (significantLexemes sql) ↔
        ∃ front l back, significantLexemes sql = front ++ l :: back ∧
          atRun front.reverse % 2 = 1 ∧ Names l name) ∧
      ((namedParameters sql).Pairwise fun a b => eqIgnoreAsciiCase a b = false) ∧
      ∀ before after between ls, sql = before ++ '@' :: after →
        Scanner.Scans lexer sql ls ('@' :: after) → Separators between →
        namedParameters (before ++ '@' :: (between ++ after)) = namedParameters sql) ∧
    ∀ schema : Schema,
      ((∃ names, resolveParameterNames D sql schema true = .ok names) ↔
        (∀ column ∈ schema.map Field.name, ∃ param, NamedAfter sql column param) ∧
        (schema.map Field.name).Pairwise fun a b =>
          ∀ param, ¬ (NamedAfter sql a param ∧ NamedAfter sql b param)) ∧
      (∀ names, resolveParameterNames D sql schema true = .ok names →
        List.Forall₂ (NamedAfter sql) (schema.map Field.name) names) ∧
      (∀ order, order.Perm (List.range schema.length) →
        (resolveParameterNames D sql (reorder order schema) true).toOption =
          (resolveParameterNames D sql schema true).toOption.map (reorder order)) ∧
      (∀ names, resolveParameterNames D sql schema false = .ok names ↔
        (namedParameters sql).length = schema.length ∧ names = namedParameters sql) ∧
      (schema.map Field.name = namedParameters sql → ∀ bindByName,
        resolveParameterNames D sql schema bindByName = .ok (schema.map Field.name)) := by
  refine ⟨⟨namedParameters_eq sql, fun name => ?_, ?_, ?_⟩, fun schema => ⟨?_, ?_, ?_, ?_, ?_⟩⟩
  · rw [mem_references]
    simp only [List.append_nil]
  · have hnodup := nodup_namedParameters sql
    rw [List.Nodup, List.pairwise_map] at hnodup
    refine hnodup.imp fun h => ?_
    rw [← Bool.not_eq_true, eqIgnoreAsciiCase_iff]
    exact h
  · rintro before after between ls rfl hscans hbetween
    exact namedParameters_insert hscans hbetween
  · constructor
    · rintro ⟨names, h⟩
      have hpair := (resolve_byName_eq_ok.mp h).1
      exact ⟨hpair.named, hpair.distinct⟩
    · rintro ⟨hnamed, hdistinct⟩
      exact ⟨_, resolve_byName ⟨hnamed, hdistinct⟩⟩
  · intro names h
    obtain ⟨hpair, rfl⟩ := resolve_byName_eq_ok.mp h
    exact forall₂_namedAfter.mpr ⟨hpair.named, rfl⟩
  · intro order h
    exact resolve_reorder h
  · intro names
    exact resolve_positional_eq_ok
  · intro h bindByName
    exact resolve_namedParameters h bindByName

/-- A text with two parameters, one of them referred to twice, and a system variable. -/
def twoParameters : List Char := "SELECT @a, @@b, @A, @`B`".toList

def textColumn (name : List Char) : Field := .new name .utf8 true

/-- Two parameters, the first one behind a comment; columns in the other order and in other case. -/
theorem parameters_extracted_and_paired_two :
    namedParameters ("SELECT ".toList ++ '@' :: ("/* @c */".toList ++ "a, @@b, @A, @`B`".toList)) =
      namedParameters twoParameters ∧
    List.Forall₂ (NamedAfter twoParameters) [['b'], ['A']] [['B'], ['a']] ∧
    (resolveParameterNames ⟨id, fun c => [c]⟩ twoParameters
      [textColumn ['A'], textColumn ['b']] true).toOption = some [['a'], ['B']] ∧
    resolveParameterNames ⟨id, fun c => [c]⟩ twoParameters
      [textColumn ['x'], textColumn ['y']] false = .ok [['a'], ['B']] ∧
    ∀ bindByName, resolveParameterNames ⟨id, fun c => [c]⟩ twoParameters
      [textColumn ['a'], textColumn ['B']] bindByName = .ok [['a'], ['B']] := by
  have hsql : namedParameters twoParameters = [['a'], ['B']] := by decide +kernel
  have hnames : resolveParameterNames ⟨id, fun c => [c]⟩ twoParameters
      [textColumn ['b'], textColumn ['A']] true = .ok [['B'], ['a']] := by decide +kernel
  obtain ⟨⟨-, -, -, hinsert⟩, hpair⟩ := parameters_extracted_and_paired ⟨id, fun c => [c]⟩ twoParameters
  refine ⟨?_, ?_, ?_, ?_, ?_⟩
  · -- The lexer reaches the first at-sign, and the comment is inserted behind it.
    have htext : twoParameters = "SELECT ".toList ++ '@' :: "a, @@b, @A, @`B`".toList := by
      decide +kernel
    have hlex : lexer.tokens twoParameters = [.word "SELECT".toList, .other ' '] ++
        lexer.tokens ('@' :: "a, @@b, @A, @`B`".toList) := by decide +kernel
    obtain ⟨rest, hscans, -⟩ := Scanner.scans_of_tokens hlex
    have hflat := hscans.flat_eq
    have hfront : lexer.flat [.word "SELECT".toList, .other ' '] = "SELECT ".toList := by decide +kernel
    rw [htext, hfront] at hflat
    rw [← List.append_cancel_left hflat] at hscans
    have hblock : Separator "/* @c */".toList := by
      have hbody : ¬ ['*', '/'] <:+: " @c ".toList ++ ['*'] := by decide +kernel
      have htext : "/* @c */".toList = ['/', '*'] ++ " @c ".toList ++ ['*', '/'] := by decide +kernel
      rw [htext]
      exact .block hbody
    rw [← List.append_nil "/* @c */".toList]
    exact hinsert _ _ _ _ htext hscans (.cons hblock .nil)
  · exact (hpair [textColumn ['b'], textColumn ['A']]).2.1 _ hnames
  · have hreorder := (hpair [textColumn ['b'], textColumn ['A']]).2.2.1 [1, 0] (by decide)
    rw [hnames] at hreorder
    exact hreorder
  · exact ((hpair [textColumn ['x'], textColumn ['y']]).2.2.2.1 _).mpr ⟨by rw [hsql]; rfl, hsql.symm⟩
  · exact (hpair [textColumn ['a'], textColumn ['B']]).2.2.2.2 hsql.symm

end Binding
end SpannerAdbc
