import Mathlib.Data.List.TakeWhile
import MLRunX.FilterComplements
import MLRunX.LikePatterns

namespace MLRunX.SubstringFilters

open Conditions FilterComplements LikePatterns RunFilter RunListing RunTables Tables

/-- What text is searched in: the target of a filter, or the free text of the listing. -/
inductive Search
  | filter (target : RunFilterTarget)
  | query
  deriving DecidableEq, Repr

def Search.condition (text : String) : Search → RunCondition
  | .filter target => appendRunFilterConditionSql ⟨target, .contains, text⟩
  | .query => .either (columnLike .name text) (columnLike .id text)

def keyed (key : String) (legacyKey : Option String) (pair : String × String) : Bool :=
  pair.1 == key || some pair.1 == legacyKey

def valuesOf (db : Database) (runId : String) (table : MetadataTable) (key : String) (legacyKey : Option String) :
    List String :=
  ((metadataOf db runId table).filter (keyed key legacyKey)).map Prod.snd

def Search.strings (db : Database) (row : JoinedRow) : Search → List String
  | .query => row.run.name.toList ++ [row.run.id]
  | .filter target => match target with
      | .project => row.run.projectId :: (row.project.map UiTables.ProjectRow.name).toList
      | .owner => row.run.createdByUserId.toList
      | .status => [row.run.status]
      | .name => row.run.name.toList
      | .runId => [row.run.id]
      | .createdAt => [row.times.createdAt]
      | .tag key legacyKey => valuesOf db row.run.id .tags key legacyKey
      | .param key legacyKey => valuesOf db row.run.id .params key legacyKey

def Search.selects (search : Search) (text : String) (db : Database) (row : JoinedRow) : Prop :=
  (search.condition text).selects (RunAtom.truth db row) = true

/-- A text is a part of a string, up to the case of ASCII letters. -/
def Occurs (text s : String) : Prop := lower text.toList <:+: lower s.toList

/-- The strings under a key are looked at one by one, and where there is none no pattern is
matched. A column is matched whether it holds a string or not. -/
def Search.matched (db : Database) (row : JoinedRow) : Search → Bool
  | .filter (.tag key legacyKey) => valuesOf db row.run.id .tags key legacyKey ≠ []
  | .filter (.param key legacyKey) => valuesOf db row.run.id .params key legacyKey ≠ []
  | _ => true

def Search.result (search : Search) (text : String) (db : Database) (row : JoinedRow) : Except String Bool :=
  if patternTooComplex s!"%{text}%" && search.matched db row then .error "LIKE or GLOB pattern too complex"
  else .ok ((search.condition text).selects (RunAtom.truth db row))

/-- The search is answered, and finds the runs of which a string has the text in it. -/
def Search.Literal (search : Search) (text : String) (db : Database) (row : JoinedRow) : Prop :=
  ∃ selected, search.result text db row = .ok selected ∧
    (selected = true ↔ ∃ s ∈ search.strings db row, Occurs text s)

def NulFree (s : String) : Prop := ∀ c ∈ s.toList, c ≠ '\x00'

def untilNul (s : String) : String := String.ofList (s.toList.takeWhile (· ≠ '\x00'))

/-- A text that a pattern can hold as it is. -/
def Plain (text : String) : Prop := ∀ c ∈ text.toList, isWildcard c = false ∧ c ≠ '\x00'

variable {db : Database} {row : JoinedRow} {text : String}

theorem patternTooComplex_iff : patternTooComplex s!"%{text}%" = true ↔ 49998 < Text.byteLength text := by
  have hlength : Text.byteLength s!"%{text}%" = Text.byteLength text + 2 := by
    change Text.byteLength ("%" ++ text ++ "%") = _
    simp only [Text.byteLength, String.toList_append, List.map_append, List.sum_append]
    change 1 + _ + 1 = _
    omega
  rw [patternTooComplex, hlength, decide_eq_true_eq, maxPatternBytes]
  omega

theorem result_short (search : Search) (hshort : Text.byteLength text ≤ 49998) :
    search.result text db row = .ok ((search.condition text).selects (RunAtom.truth db row)) := by
  have hpattern : patternTooComplex s!"%{text}%" = false := by
    apply Bool.eq_false_of_not_eq_true
    rw [patternTooComplex_iff]
    omega
  rw [Search.result, hpattern, Bool.false_and, if_neg Bool.false_ne_true]

theorem literal_short (search : Search) (hshort : Text.byteLength text ≤ 49998) :
    search.Literal text db row ↔ (search.selects text db row ↔ ∃ s ∈ search.strings db row, Occurs text s) := by
  rw [Search.Literal, result_short search hshort, Search.selects]
  constructor
  · rintro ⟨selected, hok, h⟩
    rwa [Except.ok.inj hok]
  · exact fun h => ⟨_, rfl, h⟩

theorem not_literal_long (search : Search) (hlong : 49998 < Text.byteLength text)
    (hmatched : search.matched db row = true) :
    ¬ search.Literal text db row := by
  rintro ⟨selected, hok, -⟩
  rw [Search.result, patternTooComplex_iff.mpr hlong, hmatched, Bool.and_self, if_pos rfl] at hok
  cases hok

/-! Searching is matching of a pattern. -/

theorem selects_columnLike {column : RunColumn} :
    (columnLike column text).selects (RunAtom.truth db row) = true ↔
      ∃ s ∈ (column.read row).toList, like s!"%{text}%" s = true := by
  rw [columnLike, selects_atom, RunAtom.truth, Test.truth, Option.map_eq_some_iff]
  simp

theorem selects_keyCondition {key : String} {legacyKey : Option String} {pair : String × String} :
    (keyCondition key legacyKey).selects (Test.truth (MetadataColumn.read pair)) = keyed key legacyKey pair := by
  rw [Bool.eq_iff_iff]
  cases legacyKey with
  | none =>
      rw [keyCondition, selects_atom, truth_compare_eq]
      simp [MetadataColumn.read, keyed]
  | some legacy =>
      rw [keyCondition, selects_either, selects_atom, selects_atom, truth_compare_eq, truth_compare_eq]
      simp [MetadataColumn.read, keyed]

theorem selects_metadata {table : MetadataTable} {key : String} {legacyKey : Option String} :
    (metadataCondition table key legacyKey text .contains).selects (RunAtom.truth db row) = true ↔
      ∃ s ∈ valuesOf db row.run.id table key legacyKey, like s!"%{text}%" s = true := by
  have hpair : ∀ pair : String × String,
      (Condition.both (keyCondition key legacyKey) (.atom (.like .value s!"%{text}%"))).selects
          (Test.truth (MetadataColumn.read pair)) = true ↔
        keyed key legacyKey pair = true ∧ like s!"%{text}%" pair.2 = true := by
    intro pair
    rw [selects_both, selects_keyCondition, selects_atom]
    simp [Test.truth, MetadataColumn.read]
  rw [metadataCondition, selects_found, List.any_eq_true]
  simp only [hpair, valuesOf, List.mem_map, List.mem_filter]
  constructor
  · rintro ⟨pair, hmem, hkey, hlike⟩
    exact ⟨pair.2, ⟨pair, ⟨hmem, hkey⟩, rfl⟩, hlike⟩
  · rintro ⟨s, ⟨pair, ⟨hmem, hkey⟩, rfl⟩, hlike⟩
    exact ⟨pair, hmem, hkey, hlike⟩

theorem selects_iff (search : Search) :
    search.selects text db row ↔ ∃ s ∈ search.strings db row, like s!"%{text}%" s = true := by
  have htwo : ∀ first second : RunColumn,
      (Condition.either (columnLike first text) (columnLike second text)).selects (RunAtom.truth db row) = true ↔
        ∃ s ∈ (first.read row).toList ++ (second.read row).toList, like s!"%{text}%" s = true := by
    intro first second
    rw [selects_either, selects_columnLike, selects_columnLike]
    simp only [List.mem_append, or_and_right, exists_or]
  cases search with
  | query => exact htwo .name .id
  | filter target =>
      cases target with
      | project => exact htwo .projectId .projectName
      | owner => exact selects_columnLike
      | status => exact selects_columnLike
      | name => exact selects_columnLike
      | runId => exact selects_columnLike
      | createdAt => exact selects_columnLike
      | tag key legacyKey => exact selects_metadata
      | param key legacyKey => exact selects_metadata

/-! What the pattern of a text takes. -/

theorem like_eq (text s : String) :
    like s!"%{text}%" s =
      matchesPattern ('%' :: (text.toList ++ ['%']).takeWhile (· ≠ '\x00'))
        (s.toList.takeWhile (· ≠ '\x00')) := by
  have hpattern : (s!"%{text}%" : String).toList = '%' :: (text.toList ++ ['%']) := by
    change ("%" ++ text ++ "%").toList = _
    rw [String.toList_append, String.toList_append]
    rfl
  rw [like, hpattern]
  rfl

theorem like_plain (h : Plain text) (s : String) : like s!"%{text}%" s = true ↔ Occurs text (untilNul s) := by
  have hwhole : (text.toList ++ ['%']).takeWhile (· ≠ '\x00') = text.toList ++ ['%'] := by
    apply List.takeWhile_eq_self_iff.mpr
    intro c hc
    rcases List.mem_append.mp hc with hc | hc
    · simpa using (h c hc).2
    · simp [List.mem_singleton.mp hc]
  rw [like_eq, hwhole, matchesPattern_infix (fun c hc => (h c hc).1), Occurs, untilNul, String.toList_ofList]

theorem untilNul_eq {s : String} (h : NulFree s) : untilNul s = s := by
  have hwhole : s.toList.takeWhile (· ≠ '\x00') = s.toList := by
    apply List.takeWhile_eq_self_iff.mpr
    intro c hc
    simpa using h c hc
  rw [untilNul, hwhole, String.ofList_toList]

theorem occurs_of_untilNul {s : String} (h : Occurs text (untilNul s)) : Occurs text s := by
  rw [Occurs, untilNul, String.toList_ofList] at h
  exact h.trans ((List.takeWhile_prefix _).map _).isInfix

def filled (text : String) : String := String.ofList (fill (untilNul text).toList)

theorem nulFree_filled (text : String) : NulFree (filled text) := by
  intro c hc
  rw [filled, String.toList_ofList, fill, untilNul, String.toList_ofList] at hc
  obtain ⟨p, hp, rfl⟩ := List.mem_map.mp hc
  split
  · decide
  · simpa using List.mem_takeWhile_imp hp

theorem like_filled (text : String) : like s!"%{text}%" (filled text) = true := by
  have hself : (filled text).toList.takeWhile (· ≠ '\x00') = fill (untilNul text).toList := by
    have hfree := untilNul_eq (nulFree_filled text)
    rw [← String.toList_inj, untilNul, String.toList_ofList] at hfree
    rw [hfree, filled, String.toList_ofList]
  have hpattern : ∃ rest, (text.toList ++ ['%']).takeWhile (· ≠ '\x00') = (untilNul text).toList ++ rest ∧
      matchesPattern rest [] = true := by
    rw [untilNul, String.toList_ofList, List.takeWhile_append]
    split
    · rename_i hlength
      rw [(List.takeWhile_prefix _).eq_of_length hlength]
      exact ⟨_, rfl, matchesPattern_all []⟩
    · exact ⟨[], (List.append_nil _).symm, rfl⟩
  obtain ⟨rest, hrest, hend⟩ := hpattern
  rw [like_eq, hself, hrest, matchesPattern_percent]
  exact ⟨_, List.suffix_rfl, matchesPattern_fill _ rest hend⟩

theorem not_occurs_filled (h : ¬ Plain text) : ¬ Occurs text (filled text) := by
  intro hoccurs
  have hkeep : NulFree text := by
    intro c hc hnul
    have hmem : c.toLower ∈ lower (filled text).toList := hoccurs.subset (List.mem_map_of_mem hc)
    obtain ⟨d, hd, hlower⟩ := List.mem_map.mp hmem
    rw [hnul] at hlower
    exact nulFree_filled text d hd (eq_of_toLower_eq hlower (by decide))
  apply h
  intro c hc
  refine ⟨?_, hkeep c hc⟩
  by_contra hwild
  rw [Bool.not_eq_false] at hwild
  rw [Occurs, filled, String.toList_ofList, untilNul_eq hkeep] at hoccurs
  exact not_infix_fill hc hwild hoccurs

/-! A run of which every string is the same. -/

def rowOf (s : String) : JoinedRow where
  run := ⟨s, s, some s, s, none, some s, 0, 0⟩
  times := ⟨s, s, none⟩
  project := none

def keyOf : Search → String
  | .filter (.tag key _) => key
  | .filter (.param key _) => key
  | _ => ""

def databaseOf (search : Search) (s : String) : Database :=
  (Database.empty.setTag s (keyOf search, s)).setParam s (keyOf search, s)

theorem valuesOf_databaseOf (search : Search) (s : String) (table : MetadataTable) (legacyKey : Option String) :
    valuesOf (databaseOf search s) s table (keyOf search) legacyKey = [s] := by
  have hpairs : metadataOf (databaseOf search s) s table = [(keyOf search, s)] := by
    cases table with
    | tags => simp [metadataOf, databaseOf, Database.setTag, Database.setParam, Database.empty,
        Table.replace, Table.select]
    | params =>
        simp [metadataOf, databaseOf, Database.setTag, Database.setParam, Database.empty, Table.replace,
          Table.select]
  simp [valuesOf, hpairs, keyed]

theorem strings_rowOf (search : Search) (s : String) :
    ∀ t, t ∈ search.strings (databaseOf search s) (rowOf s) ↔ t = s := by
  intro t
  cases search with
  | query => simp [Search.strings, rowOf]
  | filter target =>
      cases target with
      | tag key legacyKey =>
          have hvalues := valuesOf_databaseOf (.filter (.tag key legacyKey)) s .tags legacyKey
          simp only [keyOf] at hvalues
          simp [Search.strings, rowOf, hvalues]
      | param key legacyKey =>
          have hvalues := valuesOf_databaseOf (.filter (.param key legacyKey)) s .params legacyKey
          simp only [keyOf] at hvalues
          simp [Search.strings, rowOf, hvalues]
      | _ => simp [Search.strings, rowOf]

theorem matched_rowOf (search : Search) (s : String) : search.matched (databaseOf search s) (rowOf s) = true := by
  cases search with
  | query => rfl
  | filter target =>
      cases target with
      | tag key legacyKey =>
          have hvalues := valuesOf_databaseOf (.filter (.tag key legacyKey)) s .tags legacyKey
          simp only [keyOf] at hvalues
          simp [Search.matched, rowOf, hvalues]
      | param key legacyKey =>
          have hvalues := valuesOf_databaseOf (.filter (.param key legacyKey)) s .params legacyKey
          simp only [keyOf] at hvalues
          simp [Search.matched, rowOf, hvalues]
      | _ => rfl

/-- A search finds just the strings with the text in them where the text has no
wildcard and no NUL and fits into a pattern; of the strings, it reads what is before a NUL. -/
theorem literal_iff (search : Search) (text : String) :
    ((∀ db row, (∀ s ∈ search.strings db row, NulFree s) → search.Literal text db row) ↔
        Plain text ∧ Text.byteLength text ≤ 49998) ∧
      (Plain text → Text.byteLength text ≤ 49998 → ∀ db row, search.Literal text db row ↔
        ((∃ s ∈ search.strings db row, Occurs text s) →
          ∃ s ∈ search.strings db row, Occurs text (untilNul s))) := by
  have hselects : Plain text → ∀ db row, search.selects text db row ↔
      ∃ s ∈ search.strings db row, Occurs text (untilNul s) := by
    intro hplain db row
    rw [selects_iff]
    simp only [like_plain hplain]
  have hwhole : Plain text → Text.byteLength text ≤ 49998 → ∀ db row, search.Literal text db row ↔
      ((∃ s ∈ search.strings db row, Occurs text s) →
        ∃ s ∈ search.strings db row, Occurs text (untilNul s)) := by
    intro hplain hshort db row
    rw [literal_short search hshort, hselects hplain]
    constructor
    · exact fun h => h.mpr
    · intro h
      refine ⟨?_, h⟩
      rintro ⟨s, hs, hoccurs⟩
      exact ⟨s, hs, occurs_of_untilNul hoccurs⟩
  refine ⟨⟨?_, ?_⟩, hwhole⟩
  · intro h
    have hstrings := strings_rowOf search (filled text)
    have hliteral := h (databaseOf search (filled text)) (rowOf (filled text)) (by
      intro s hs
      rw [(hstrings s).mp hs]
      exact nulFree_filled text)
    have hshort : Text.byteLength text ≤ 49998 := by
      by_contra hlong
      exact not_literal_long search (not_le.mp hlong) (matched_rowOf search _) hliteral
    refine ⟨?_, hshort⟩
    by_contra hplain
    have hfound := (selects_iff search).mpr ⟨_, (hstrings _).mpr rfl, like_filled text⟩
    obtain ⟨s, hs, hoccurs⟩ := ((literal_short search hshort).mp hliteral).mp hfound
    rw [(hstrings s).mp hs] at hoccurs
    exact not_occurs_filled hplain hoccurs
  · rintro ⟨hplain, hshort⟩ db row hfree
    rw [hwhole hplain hshort]
    rintro ⟨s, hs, hoccurs⟩
    exact ⟨s, hs, by rwa [untilNul_eq (hfree s hs)]⟩

def namedRow : JoinedRow where
  run := ⟨"r", "p", some "a", "running", none, none, 0, 0⟩
  times := ⟨"2026-01-01 00:00:00", "2026-01-01 00:00:00", none⟩
  project := none

theorem underscore_found : ¬ ∀ (search : Search) (text : String) (db : Database) (row : JoinedRow),
    search.Literal text db row := by
  intro h
  have hfound : (Search.filter .name).selects "_" .empty namedRow := by
    rw [Search.selects]
    decide
  have hliteral := (literal_short (.filter .name) (by decide)).mp (h (.filter .name) "_" .empty namedRow)
  obtain ⟨s, hs, hoccurs⟩ := hliteral.mp hfound
  obtain rfl : s = "a" := by simpa [Search.strings, namedRow] using hs
  revert hoccurs
  rw [Occurs]
  decide

end MLRunX.SubstringFilters
