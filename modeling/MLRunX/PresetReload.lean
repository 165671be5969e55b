import MLRunX.Presets

namespace MLRunX.PresetReload

open CodeUnits JsObjects JsonText MetricObjectives Presets RecentFirst Runs

/-- A text that is not empty, as cutting leaves it. -/
def Clamped (maxLen : Nat) (s : JsString) : Prop := s ≠ [] ∧ ∃ raw, clampText raw maxLen = s

theorem Clamped.again {maxLen : Nat} {s : JsString} (h : Clamped maxLen s) (hlen : maxLen ≠ 0) :
    clampText s maxLen ≠ [] := by
  obtain ⟨hne, raw, rfl⟩ := h
  exact cut_ne_nil hne (head_cut _ _) hlen

theorem Clamped.fixed {maxLen : Nat} {s : JsString} (h : Clamped maxLen s) :
    clampText s maxLen = s ↔ Unpadded s := by
  obtain ⟨-, raw, rfl⟩ := h
  exact cut_cut

def Lasting (id : JsString) : Prop := id ≠ [] ∧ clampText id 128 = id

section Ids

def Visible (s : JsString) : Prop := ∀ u ∈ s, isSpace u = false

theorem visible_of_all {s : JsString} (h : s.all (fun u => !isSpace u) = true) : Visible s := by
  intro u hu
  simpa using List.all_eq_true.mp h u hu

theorem Visible.append {s t : JsString} (hs : Visible s) (ht : Visible t) : Visible (s ++ t) := by
  intro u hu
  rcases List.mem_append.mp hu with hu | hu
  · exact hs u hu
  · exact ht u hu

theorem clampText_visible {s : JsString} {maxLen : Nat} (h : Visible s) (hlen : s.length ≤ maxLen) :
    clampText s maxLen = s :=
  (cut_eq_self hlen (fun u hu => h u (List.mem_of_mem_head? hu))).mpr (fun u hu => h u (List.mem_of_mem_getLast? hu))

theorem digit36_visible : ∀ d < 36, isSpace (digit36 d) = false := by decide

theorem visible_base36 (n : Int) : Visible (base36 n) := by
  unfold base36
  refine Visible.append ?_ ?_
  · split
    · exact visible_of_all rfl
    · exact fun _ hu => absurd hu List.not_mem_nil
  · split
    · exact visible_of_all rfl
    · intro u hu
      obtain ⟨d, hd, rfl⟩ := List.mem_map.mp hu
      exact digit36_visible d (Nat.digits_lt_base (by decide) (List.mem_reverse.mp hd))

theorem length_base36 {n : Int} (h : n.natAbs ≤ 8640000000000000) : (base36 n).length ≤ 12 := by
  have hdigits : (Nat.digits 36 n.natAbs).length ≤ 11 := by
    rw [Nat.digits_length_le_iff (by decide)]
    exact Nat.lt_of_le_of_lt h (by decide)
  have hsign : (if n < 0 then units "-" else []).length ≤ 1 := by
    split <;> decide
  have hnumber : (if n = 0 then units "0" else (Nat.digits 36 n.natAbs).reverse.map digit36).length ≤ 11 := by
    split
    · decide
    · simpa using hdigits
  rw [base36, List.length_append]
  omega

theorem lasting_makePresetId {kind : String} (hkind : Visible (units kind)) (hlen : (units kind).length ≤ 8)
    (draw : Draw) :
    Lasting (makePresetId kind draw) := by
  have hfraction : Visible ((draw.fraction.map (fun d => digit36 d.1)).take 6) := by
    intro u hu
    obtain ⟨d, -, rfl⟩ := List.mem_map.mp (List.mem_of_mem_take hu)
    exact digit36_visible d.1 d.isLt
  have hline : Visible (units "_") := visible_of_all rfl
  have hlength : (makePresetId kind draw).length ≤ 128 := by
    have hnow := length_base36 draw.inRange
    have hline : (units "_").length = 1 := by decide
    have htake := List.length_take_le 6 (draw.fraction.map (fun d => digit36 d.1))
    rw [makePresetId, List.length_append, List.length_append, List.length_append, List.length_append]
    omega
  refine ⟨?_, clampText_visible ?_ hlength⟩
  · have hne : units "_" ≠ [] := by decide
    simp [makePresetId, hne]
  · exact (((hkind.append hline).append (visible_base36 draw.now)).append hline).append hfraction

end Ids

structure StoredRunFilter (preset : RunFilterPreset) : Prop where
  id : Lasting preset.id
  name : Clamped maxNameLen preset.name
  query : Clamped maxQueryLen preset.query

structure StoredCompare (preset : ComparePreset) : Prop where
  id : Lasting preset.id
  name : Clamped maxNameLen preset.name
  someRun : preset.runIds ≠ []
  fewRuns : preset.runIds.length ≤ maxRunIdsPerPreset
  runIds : ∀ runId ∈ preset.runIds, Clamped 128 runId
  objectives : ∀ overrides ∈ preset.metricObjectives, Normalized overrides ∧ overrides ≠ []

theorem asRunFilterPreset_json (preset : RunFilterPreset) : asRunFilterPreset preset.json = some preset := rfl

theorem object_compareFields (id name runIds updatedAt : JsValue) (objectives : Option JsValue) :
    Object ([(units "id", id), (units "name", name), (units "runIds", runIds), (units "updatedAt", updatedAt)] ++
      (objectives.map (fun value => (units "metricObjectives", value))).toList) := by
  have hkeys : [units "id", units "name", units "runIds", units "updatedAt",
    units "metricObjectives"].Nodup := by decide
  cases objectives with
  | none => exact hkeys.sublist (List.sublist_append_left _ [units "metricObjectives"])
  | some value => exact hkeys

theorem asComparePreset_json {preset : ComparePreset} (h : StoredCompare preset) :
    asComparePreset preset.json =
      some { preset with metricObjectives := preset.metricObjectives.map ownEntries } := by
  obtain ⟨id, name, runIds, metricObjectives, updatedAt⟩ := preset
  have htexts : (runIds.map JsonTree.string).filterMap asText = runIds := by
    rw [List.filterMap_map]
    exact List.filterMap_some
  have hobject := object_compareFields (.string id) (.string name) (.array (runIds.map .string)) (.string updatedAt)
    (metricObjectives.map (fun overrides => .object (ownEntries overrides)))
  rw [Option.map_map] at hobject
  have hcandidate : asObject (ComparePreset.json ⟨id, name, runIds, metricObjectives, updatedAt⟩) = some _ :=
    congrArg some (fromEntries_of_object hobject)
  simp only [asComparePreset, hcandidate, Option.bind_eq_bind, Option.bind_some]
  cases metricObjectives with
  | none => exact congrArg (fun texts => some (ComparePreset.mk id name texts none updatedAt)) htexts
  | some overrides =>
      have hown := fromEntries_of_object (h.objectives overrides rfl).1.ownEntries.object
      exact congrArg₂ (fun texts own => some (ComparePreset.mk id name texts (some own) updatedAt)) htexts hown

theorem storedItems_stringify {items : List JsValue}
    (h : ∀ item ∈ items, item.allNumbers Literal.isNumeral = true) :
    storedItems (some (jsonStringify (.array items))) = items := by
  have hparse : jsonParse (jsonStringify (.array items)) = some (.array items) :=
    jsonParse_jsonStringify (allNumbersItems_iff.mpr h)
  have htext : (jsonStringify (.array items)).isEmpty = false := by
    cases items <;> rfl
  simp only [storedItems, Option.bind_some, htext, Bool.false_eq_true, if_false, hparse, asItems, Option.getD_some]

theorem load_saveRunFilterPresets {presets : List RunFilterPreset} (hlen : presets.length ≤ maxPresets)
    (h : ∀ preset ∈ presets, StoredRunFilter preset) (storage : Storage) :
    loadRunFilterPresets (saveRunFilterPresets presets storage) = presets.map clampRunFilterPreset := by
  have hitems : ∀ item ∈ presets.map RunFilterPreset.json, item.allNumbers Literal.isNumeral = true := by
    intro item hitem
    obtain ⟨preset, -, rfl⟩ := List.mem_map.mp hitem
    rfl
  have hread : (presets.map RunFilterPreset.json).filterMap asRunFilterPreset = presets := by
    rw [List.filterMap_map]
    exact (List.filterMap_congr (fun preset _ => asRunFilterPreset_json preset)).trans List.filterMap_some
  have hkept : ∀ entry ∈ presets.map clampRunFilterPreset,
      (!entry.id.isEmpty && !entry.name.isEmpty && !entry.query.isEmpty) = true := by
    intro entry hentry
    obtain ⟨preset, hpreset, rfl⟩ := List.mem_map.mp hentry
    have hstored := h preset hpreset
    have hid : clampText preset.id 128 ≠ [] := by
      rw [hstored.id.2]
      exact hstored.id.1
    have hname := hstored.name.again (by decide)
    have hquery := hstored.query.again (by decide)
    simp [clampRunFilterPreset, hid, hname, hquery]
  rw [loadRunFilterPresets, saveRunFilterPresets, Function.update_self, List.take_of_length_le hlen,
    parseRunFilterPresets, storedItems_stringify hitems, hread, List.filter_eq_self.mpr hkept]
  exact List.take_of_length_le (by simpa using hlen)

theorem map_eq_self {α : Type} {f : α → α} {l : List α} : l.map f = l ↔ ∀ a ∈ l, f a = a := by
  have hinj : l.map f = l.map id ↔ ∀ a ∈ l, f a = id a := List.map_inj_left
  rwa [List.map_id] at hinj

theorem reload_runFilters {presets : List RunFilterPreset} (hlen : presets.length ≤ maxPresets)
    (h : ∀ preset ∈ presets, StoredRunFilter preset) (storage : Storage) :
    loadRunFilterPresets (saveRunFilterPresets presets storage) = presets ↔
      ∀ preset ∈ presets, Unpadded preset.name ∧ Unpadded preset.query := by
  rw [load_saveRunFilterPresets hlen h, map_eq_self]
  refine forall₂_congr (fun preset hpreset => ?_)
  have hstored := h preset hpreset
  obtain ⟨id, name, query, updatedAt⟩ := preset
  simp only [clampRunFilterPreset, RunFilterPreset.mk.injEq, hstored.id.2, hstored.name.fixed, hstored.query.fixed,
    true_and, and_true]

/-- The presets are equal, their objectives as maps. -/
structure SamePreset (preset preset' : ComparePreset) : Prop where
  id : preset.id = preset'.id
  name : preset.name = preset'.name
  runIds : preset.runIds = preset'.runIds
  metricObjectives : Option.Rel SameMap preset.metricObjectives preset'.metricObjectives
  updatedAt : preset.updatedAt = preset'.updatedAt

structure UnpaddedCompare (preset : ComparePreset) : Prop where
  name : Unpadded preset.name
  runIds : ∀ runId ∈ preset.runIds, Unpadded runId
  objectives : ∀ overrides ∈ preset.metricObjectives, ∀ e ∈ overrides, Unpadded e.1

variable {localeCompare : JsString → JsString → Int}

theorem clampRunIds_eq {runIds : List JsString} (hlen : runIds.length ≤ maxRunIdsPerPreset)
    (h : ∀ runId ∈ runIds, Clamped 128 runId) : clampRunIds runIds =
      runIds.map (fun value => clampText value 128) := by
  have hkept : ∀ value ∈ runIds.map (fun value => clampText value 128), (!value.isEmpty) = true := by
    intro value hvalue
    obtain ⟨runId, hrunId, rfl⟩ := List.mem_map.mp hvalue
    simpa using (h runId hrunId).again (by decide)
  rw [clampRunIds, List.filter_eq_self.mpr hkept]
  exact List.take_of_length_le (by simpa using hlen)

theorem normalizePresetObjectives_own {overrides : Overrides} (h : Normalized overrides) (hne : overrides ≠ []) :
    normalizePresetObjectives localeCompare (some (ownEntries overrides)) =
      some (normalizeMetricObjectiveOverrides localeCompare (ownEntries overrides)) := by
  have hagain : normalizeMetricObjectiveOverrides localeCompare (ownEntries overrides) ≠ [] :=
    normalize_ne_nil h.ownEntries (fun hnil => hne (ownEntries_eq_nil.mp hnil))
  have hown : ¬ (ownEntries (normalizeMetricObjectiveOverrides localeCompare (ownEntries overrides))).isEmpty =
      true := by
    rwa [List.isEmpty_iff, ownEntries_eq_nil]
  exact if_neg hown

theorem rel_objectives {metricObjectives : Option Overrides}
    (h : ∀ overrides ∈ metricObjectives, Normalized overrides ∧ overrides ≠ []) :
    Option.Rel SameMap (normalizePresetObjectives localeCompare (metricObjectives.map ownEntries)) metricObjectives ↔
      ∀ overrides ∈ metricObjectives, ∀ e ∈ overrides, Unpadded e.1 := by
  cases metricObjectives with
  | none => exact ⟨fun _ _ hmem => absurd hmem (Option.not_mem_none _), fun _ => .none⟩
  | some overrides =>
      obtain ⟨hnormal, hne⟩ := h overrides rfl
      have hsame := @sameMap_normalize localeCompare _ _ hnormal (ownEntries_perm overrides)
      rw [Option.map_some, normalizePresetObjectives_own hnormal hne]
      constructor
      · intro hrel
        cases hrel with
        | some hrel =>
            rintro _ ⟨⟩
            exact hsame.mp hrel
      · exact fun hnames => .some (hsame.mpr (hnames overrides rfl))

def readBack (localeCompare : JsString → JsString → Int) (preset : ComparePreset) : ComparePreset :=
  clampComparePreset localeCompare { preset with metricObjectives := preset.metricObjectives.map ownEntries }

theorem samePreset_readBack {preset : ComparePreset} (h : StoredCompare preset) :
    SamePreset (readBack localeCompare preset) preset ↔ UnpaddedCompare preset := by
  have hruns : clampRunIds preset.runIds = preset.runIds ↔ ∀ runId ∈ preset.runIds, Unpadded runId := by
    rw [clampRunIds_eq h.fewRuns h.runIds, map_eq_self]
    exact forall₂_congr (fun runId hrunId => (h.runIds runId hrunId).fixed)
  constructor
  · intro hsame
    exact ⟨h.name.fixed.mp hsame.name, hruns.mp hsame.runIds,
      (rel_objectives h.objectives).mp hsame.metricObjectives⟩
  · intro hunpadded
    exact ⟨h.id.2, h.name.fixed.mpr hunpadded.name, hruns.mpr hunpadded.runIds,
      (rel_objectives h.objectives).mpr hunpadded.objectives, rfl⟩

theorem isNumeral_compare {preset : ComparePreset} (h : StoredCompare preset) :
    preset.json.allNumbers Literal.isNumeral = true := by
  rw [ComparePreset.json, JsonTree.allNumbers, allNumbersFields_iff]
  refine List.forall_mem_append.mpr ⟨?_, ?_⟩
  · have hitems : (JsonTree.array (preset.runIds.map .string) : JsValue).allNumbers Literal.isNumeral = true := by
      rw [JsonTree.allNumbers, allNumbersItems_iff]
      intro item hitem
      obtain ⟨runId, -, rfl⟩ := List.mem_map.mp hitem
      rfl
    simp only [List.forall_mem_cons, hitems]
    exact ⟨rfl, rfl, trivial, rfl, fun _ hf => absurd hf List.not_mem_nil⟩
  · intro f hf
    obtain ⟨overrides, hoverrides, rfl⟩ := Option.map_eq_some_iff.mp (Option.mem_toList.mp hf)
    exact isNumeral_of_objectives (h.objectives overrides hoverrides).1.ownEntries.objectives

theorem load_saveComparePresets {presets : List ComparePreset} (hlen : presets.length ≤ maxPresets)
    (h : ∀ preset ∈ presets, StoredCompare preset) (storage : Storage) :
    loadComparePresets localeCompare (saveComparePresets presets storage) =
      presets.map (readBack localeCompare) := by
  have hitems : ∀ item ∈ presets.map ComparePreset.json, item.allNumbers Literal.isNumeral = true := by
    intro item hitem
    obtain ⟨preset, hpreset, rfl⟩ := List.mem_map.mp hitem
    exact isNumeral_compare (h preset hpreset)
  have hread : (presets.map ComparePreset.json).filterMap asComparePreset =
      presets.map (fun preset => { preset with metricObjectives := preset.metricObjectives.map ownEntries }) := by
    rw [List.filterMap_map, ← List.filterMap_eq_map]
    exact List.filterMap_congr (fun preset hpreset => asComparePreset_json (h preset hpreset))
  have hkept : ∀ entry ∈ presets.map (readBack localeCompare),
      (!entry.id.isEmpty && !entry.name.isEmpty && !entry.runIds.isEmpty) = true := by
    intro entry hentry
    obtain ⟨preset, hpreset, rfl⟩ := List.mem_map.mp hentry
    have hstored := h preset hpreset
    have hid : clampText preset.id 128 ≠ [] := by
      rw [hstored.id.2]
      exact hstored.id.1
    have hname := hstored.name.again (by decide)
    have hruns : clampRunIds preset.runIds ≠ [] := by
      rw [clampRunIds_eq hstored.fewRuns hstored.runIds]
      simpa using hstored.someRun
    simp [readBack, clampComparePreset, hid, hname, hruns]
  rw [loadComparePresets, saveComparePresets, Function.update_self, List.take_of_length_le hlen,
    parseComparePresets, storedItems_stringify hitems, hread, List.map_map]
  change ((presets.map (readBack localeCompare)).filter _).take maxPresets = _
  rw [List.filter_eq_self.mpr hkept]
  exact List.take_of_length_le (by simpa using hlen)

theorem reload_compares {presets : List ComparePreset} (hlen : presets.length ≤ maxPresets)
    (h : ∀ preset ∈ presets, StoredCompare preset) (storage : Storage) :
    List.Forall₂ SamePreset (loadComparePresets localeCompare (saveComparePresets presets storage)) presets ↔
      ∀ preset ∈ presets, UnpaddedCompare preset := by
  rw [load_saveComparePresets hlen h, List.forall₂_map_left_iff, List.forall₂_same]
  exact forall₂_congr (fun preset hpreset => samePreset_readBack (h preset hpreset))

section Lists

variable {α : Type} {name : α → JsString} {Stored : α → Prop} {toLowerCase : JsString → JsString}
    {presets : List α}

/-- There are no more presets than may be, with names of their own, all as they are stored. -/
structure Kept (toLowerCase : JsString → JsString) (name : α → JsString) (Stored : α → Prop)
    (presets : List α) : Prop where
  few : presets.length ≤ maxPresets
  names : (presets.map (fun preset => toLowerCase (name preset))).Nodup
  stored : ∀ preset ∈ presets, Stored preset

theorem Kept.place (h : Kept toLowerCase name Stored presets) {k : JsString} {renewed : α → α} {fresh : α}
    (hname : ∀ preset, toLowerCase (name (renewed preset)) = k) (hfreshName : toLowerCase (name fresh) = k)
    (hrenewed : ∀ preset, Stored preset → Stored (renewed preset)) (hfresh : Stored fresh) :
    Kept toLowerCase name Stored
      (place (fun preset => toLowerCase (name preset)) maxPresets k renewed fresh presets).2 where
  few := length_place k renewed fresh presets
  names := nodup_place hname hfreshName h.names
  stored := forall_place hrenewed hfresh h.stored

theorem Kept.filter (h : Kept toLowerCase name Stored presets) (p : α → Bool) :
    Kept toLowerCase name Stored (presets.filter p) where
  few := (List.length_filter_le p presets).trans h.few
  names := h.names.sublist (List.filter_sublist.map _)
  stored := fun preset hpreset => h.stored preset (List.mem_filter.mp hpreset).1

end Lists

section Upserts

variable {toLowerCase : JsString → JsString}

theorem clamped_clampText {raw : JsString} {maxLen : Nat} (h : (clampText raw maxLen).isEmpty = false) :
    Clamped maxLen (clampText raw maxLen) := by
  refine ⟨?_, raw, rfl⟩
  intro hnil
  rw [hnil] at h
  cases h

theorem clamped_normalizeRunIdSet {runIds : List JsString} :
    ∀ runId ∈ normalizeRunIdSet runIds, Clamped 128 runId ∧ ∃ raw ∈ runIds, clampText raw 128 = runId := by
  intro runId hrunId
  obtain ⟨hmem, hne⟩ := List.mem_filter.mp (List.mem_eraseDups.mp (List.mem_of_mem_take hrunId))
  obtain ⟨raw, hraw, rfl⟩ := List.mem_map.mp hmem
  exact ⟨clamped_clampText (by simpa using hne), raw, hraw, rfl⟩

theorem normalized_presetObjectives {metricObjectives : Option Overrides} :
    ∀ overrides ∈ normalizePresetObjectives localeCompare metricObjectives, Normalized overrides ∧
      overrides ≠ [] ∧
      ∃ raw ∈ metricObjectives, normalizeMetricObjectiveOverrides localeCompare raw = overrides := by
  intro overrides hoverrides
  obtain ⟨raw, hraw, hsome⟩ := Option.bind_eq_some_iff.mp hoverrides
  dsimp only at hsome
  split at hsome
  · cases hsome
  · rename_i hne
    obtain rfl := Option.some.inj hsome
    rw [List.isEmpty_iff, ownEntries_eq_nil] at hne
    exact ⟨normalized_normalize raw, hne, raw, hraw, rfl⟩

/-- What a list keeps of its presets, with settled texts where all texts were. -/
def KeptRunFilters (toLowerCase : JsString → JsString) (S : Prop) : List RunFilterPreset → Prop :=
  Kept toLowerCase RunFilterPreset.name
    (fun preset => StoredRunFilter preset ∧ (S → Unpadded preset.name ∧ Unpadded preset.query))

def KeptCompares (toLowerCase : JsString → JsString) (S : Prop) : List ComparePreset → Prop :=
  Kept toLowerCase ComparePreset.name (fun preset => StoredCompare preset ∧ (S → UnpaddedCompare preset))

/-- No text of the operation ends in space once it is cut. -/
def Settled : Op → Prop
  | .upsertRunFilterPreset name query _ => Unpadded (clampText name maxNameLen) ∧
      Unpadded (clampText query maxQueryLen)
  | .upsertComparePreset name runIds metricObjectives _ => Unpadded (clampText name maxNameLen) ∧
      (∀ runId ∈ runIds, Unpadded (clampText runId 128)) ∧
        ∀ overrides ∈ metricObjectives, MetricObjectives.Settled overrides
  | _ => True

variable {S : Prop} {draw : Draw}

theorem kept_upsertRunFilterPreset {presets presets' : List RunFilterPreset} {n q : JsString}
    {saved : RunFilterPreset}
    (hsettled : S → Settled (.upsertRunFilterPreset n q draw)) (hkept : KeptRunFilters toLowerCase S presets)
    (h : upsertRunFilterPreset toLowerCase presets n q draw = .ok (saved, presets')) :
    KeptRunFilters toLowerCase S presets' ∧ presets'.head? = some saved := by
  simp only [upsertRunFilterPreset] at h
  split at h
  · cases h
  · rename_i hchecked
    rw [Bool.or_eq_true, not_or, Bool.not_eq_true, Bool.not_eq_true] at hchecked
    have hname := clamped_clampText hchecked.1
    have hquery := clamped_clampText hchecked.2
    have hplaced := Except.ok.inj h
    have hsaved := congrArg Prod.fst hplaced
    have hpresets := congrArg Prod.snd hplaced
    dsimp only at hsaved hpresets
    subst hsaved hpresets
    refine ⟨Kept.place hkept (fun _ => rfl) rfl ?_ ?_, head_place (by decide) _ _ _ _⟩
    · exact fun preset hstored => ⟨⟨hstored.1.id, hname, hquery⟩, hsettled⟩
    · exact ⟨⟨lasting_makePresetId (visible_of_all rfl) (by decide) draw, hname, hquery⟩, hsettled⟩

theorem kept_upsertComparePreset {presets presets' : List ComparePreset} {n : JsString} {runIds : List JsString}
    {metricObjectives : Option Overrides} {saved : ComparePreset}
    (hsettled : S → Settled (.upsertComparePreset n runIds metricObjectives draw))
    (hkept : KeptCompares toLowerCase S presets)
    (h : upsertComparePreset localeCompare toLowerCase presets n runIds metricObjectives draw = .ok (saved, presets')) :
    KeptCompares toLowerCase S presets' ∧ presets'.head? = some saved := by
  simp only [upsertComparePreset] at h
  split at h
  · cases h
  · rename_i hchecked
    rw [Bool.or_eq_true, not_or, Bool.not_eq_true, beq_iff_eq, List.length_eq_zero_iff] at hchecked
    have hname := clamped_clampText hchecked.1
    have hruns : ∀ runId ∈ normalizeRunIdSet runIds, Clamped 128 runId :=
      fun runId hrunId => (clamped_normalizeRunIdSet runId hrunId).1
    have hfew : (normalizeRunIdSet runIds).length ≤ maxRunIdsPerPreset := List.length_take_le _ _
    have hobjectives : ∀ overrides ∈ normalizePresetObjectives localeCompare metricObjectives,
        Normalized overrides ∧ overrides ≠ [] :=
      fun overrides hmem => ⟨(normalized_presetObjectives overrides hmem).1,
        (normalized_presetObjectives overrides hmem).2.1⟩
    have hunpadded : ∀ id : JsString, S → UnpaddedCompare ⟨id, clampText n maxNameLen, normalizeRunIdSet runIds,
        normalizePresetObjectives localeCompare metricObjectives, draw.updatedAt⟩ := by
      intro id hS
      obtain ⟨hn, hids, hoverrides⟩ := hsettled hS
      refine ⟨hn, ?_, ?_⟩
      · intro runId hrunId
        obtain ⟨-, raw, hraw, rfl⟩ := clamped_normalizeRunIdSet runId hrunId
        exact hids raw hraw
      · intro overrides hmem
        obtain ⟨-, -, raw, hraw, rfl⟩ := normalized_presetObjectives overrides hmem
        exact settled_iff.mp (hoverrides raw hraw)
    have hplaced := Except.ok.inj h
    have hsaved := congrArg Prod.fst hplaced
    have hpresets := congrArg Prod.snd hplaced
    dsimp only at hsaved hpresets
    subst hsaved hpresets
    refine ⟨Kept.place hkept (fun _ => rfl) rfl ?_ ?_, head_place (by decide) _ _ _ _⟩
    · exact fun preset hstored => ⟨⟨hstored.1.id, hname, hchecked.2, hfew, hruns, hobjectives⟩,
        hunpadded preset.id⟩
    · exact ⟨⟨lasting_makePresetId (visible_of_all rfl) (by decide) draw, hname, hchecked.2, hfew, hruns,
        hobjectives⟩,
        hunpadded _⟩

end Upserts

section Runs

variable {toLowerCase : JsString → JsString} {S : Prop} {s : Lists}

structure Sound (toLowerCase : JsString → JsString) (S : Prop) (s : Lists) : Prop where
  runFilters : KeptRunFilters toLowerCase S s.runFilters
  compares : KeptCompares toLowerCase S s.compares

/-- A preset that was just saved is the first one. -/
def First : Reply → Lists → Prop
  | .runFilter saved, s => s.runFilters.head? = some saved
  | .compare saved, s => s.compares.head? = some saved
  | _, _ => True

theorem sound_step (h : Sound toLowerCase S s) (op : Op) (hop : S → Settled op) :
    Sound toLowerCase S (step localeCompare toLowerCase s op).2 ∧
      First (step localeCompare toLowerCase s op).1 (step localeCompare toLowerCase s op).2 := by
  cases op with
  | upsertRunFilterPreset n q draw =>
      simp only [step]
      cases hupsert : Presets.upsertRunFilterPreset toLowerCase s.runFilters n q draw with
      | error message => exact ⟨h, trivial⟩
      | ok r =>
          obtain ⟨hkept, hfirst⟩ := kept_upsertRunFilterPreset hop h.runFilters hupsert
          exact ⟨⟨hkept, h.compares⟩, hfirst⟩
  | upsertComparePreset n runIds metricObjectives draw =>
      simp only [step]
      cases hupsert : Presets.upsertComparePreset localeCompare toLowerCase s.compares n runIds
        metricObjectives draw with
      | error message => exact ⟨h, trivial⟩
      | ok r =>
          obtain ⟨hkept, hfirst⟩ := kept_upsertComparePreset hop h.compares hupsert
          exact ⟨⟨h.runFilters, hkept⟩, hfirst⟩
  | deleteRunFilterPreset presetId => exact ⟨⟨h.runFilters.filter _, h.compares⟩, trivial⟩
  | deleteComparePreset presetId => exact ⟨⟨h.runFilters, h.compares.filter _⟩, trivial⟩

theorem kept_nil {α : Type} {name : α → JsString} {Stored : α → Prop} : Kept toLowerCase name Stored [] where
  few := Nat.zero_le _
  names := List.nodup_nil
  stored := fun _ h => absurd h List.not_mem_nil

theorem sound_reached (ops : List Op) (hops : S → ∀ op ∈ ops, Settled op) :
    Sound toLowerCase S (reached localeCompare toLowerCase ops) := by
  induction ops using List.reverseRecOn with
  | nil => exact ⟨kept_nil, kept_nil⟩
  | append_singleton ops op ih =>
      rw [reached, after_concat]
      refine (sound_step (ih (fun hS op hop => hops hS op (List.mem_append_left _ hop))) op ?_).1
      exact fun hS => hops hS op (List.mem_append_right _ (List.mem_singleton_self op))

/-- At most twenty presets, whose names differ by more than their case. -/
structure Tidy (toLowerCase : JsString → JsString) (s : Lists) : Prop where
  fewRunFilters : s.runFilters.length ≤ 20
  fewCompares : s.compares.length ≤ 20
  runFilterNames : (s.runFilters.map (fun preset => toLowerCase preset.name)).Nodup
  compareNames : (s.compares.map (fun preset => toLowerCase preset.name)).Nodup

/-- What is loaded after saving is what was saved. -/
def Reloads (localeCompare : JsString → JsString → Int) (s : Lists) : Prop :=
  ∀ storage, loadRunFilterPresets (saveRunFilterPresets s.runFilters storage) = s.runFilters ∧
    List.Forall₂ SamePreset (loadComparePresets localeCompare (saveComparePresets s.compares storage)) s.compares

def UnpaddedLists (s : Lists) : Prop :=
  (∀ preset ∈ s.runFilters, Unpadded preset.name ∧ Unpadded preset.query) ∧
    ∀ preset ∈ s.compares, UnpaddedCompare preset

theorem reloads_iff (h : Sound toLowerCase S s) : Reloads localeCompare s ↔ UnpaddedLists s := by
  have hfilters := fun storage =>
    reload_runFilters h.runFilters.few (fun preset hp => (h.runFilters.stored preset hp).1) storage
  have hcompares := fun storage =>
    @reload_compares localeCompare _ h.compares.few (fun preset hp => (h.compares.stored preset hp).1) storage
  constructor
  · intro hreload
    obtain ⟨hf, hc⟩ := hreload (fun _ => none)
    exact ⟨(hfilters _).mp hf, (hcompares _).mp hc⟩
  · exact fun hunpadded storage => ⟨(hfilters storage).mpr hunpadded.1, (hcompares storage).mpr hunpadded.2⟩

/-- Presets are few, have their own names and begin with the last one saved. They are read as they were written just
when the cuts leave no space at the ends of their texts, and so are objectives. -/
theorem presets_reload (toLowerCase : JsString → JsString) (localeCompare : JsString → JsString → Int)
    (ops : List Op) :
    Tidy toLowerCase (reached localeCompare toLowerCase ops) ∧
    (∀ op, First (step localeCompare toLowerCase (reached localeCompare toLowerCase ops) op).1
      (step localeCompare toLowerCase (reached localeCompare toLowerCase ops) op).2) ∧
    (Reloads localeCompare (reached localeCompare toLowerCase ops) ↔
      UnpaddedLists (reached localeCompare toLowerCase ops)) ∧
    ((∀ op ∈ ops, Settled op) → Reloads localeCompare (reached localeCompare toLowerCase ops)) ∧
    ∀ overrides,
      (SameMap (normalizeMetricObjectiveOverrides localeCompare
        (normalizeMetricObjectiveOverrides localeCompare overrides))
        (normalizeMetricObjectiveOverrides localeCompare overrides) ↔ MetricObjectives.Settled overrides) ∧
      (normalizeMetricObjectiveOverrides localeCompare overrides ≠ [] →
        (Inverts localeCompare (normalizeMetricObjectiveOverrides localeCompare overrides) ↔
          MetricObjectives.Settled overrides)) := by
  have hsound : Sound toLowerCase False (reached localeCompare toLowerCase ops) := sound_reached ops False.elim
  refine ⟨?_, ?_, reloads_iff hsound, ?_, ?_⟩
  · exact ⟨hsound.runFilters.few, hsound.compares.few, hsound.runFilters.names, hsound.compares.names⟩
  · exact fun op => (sound_step hsound op False.elim).2
  · intro hsettled
    have hall : Sound toLowerCase True (reached localeCompare toLowerCase ops) :=
      sound_reached ops (fun _ => hsettled)
    refine (reloads_iff hall).mpr ⟨?_, ?_⟩
    · exact fun preset hp => (hall.runFilters.stored preset hp).2 trivial
    · exact fun preset hp => (hall.compares.stored preset hp).2 trivial
  · intro overrides
    have hnormal := @normalized_normalize localeCompare overrides
    rw [@settled_iff localeCompare]
    exact ⟨sameMap_normalize hnormal (List.Perm.refl _), inverts_iff hnormal⟩

def longName : JsString := List.replicate 63 (codeUnit 97) ++ units " b"

def someDraw : Draw := ⟨0, Nat.zero_le _, [], []⟩

theorem padded_longName : ¬ Unpadded (clampText longName maxNameLen) := by
  have hlast : (clampText longName maxNameLen).getLast? = some (codeUnit 32) := by decide +kernel
  intro h
  exact absurd (h _ hlast) (by decide)

theorem padded_name_lost :
    ¬ ∀ (toLowerCase : JsString → JsString) (localeCompare : JsString → JsString → Int) (ops : List Op),
      Reloads localeCompare (reached localeCompare toLowerCase ops) := by
  intro h
  have hreload := h id (fun _ _ => 0) [.upsertRunFilterPreset longName (units "status:running") someDraw]
  have hsound := @sound_reached (fun _ _ => 0) id False
    [.upsertRunFilterPreset longName (units "status:running") someDraw] False.elim
  have hunpadded := (reloads_iff hsound).mp hreload
  exact padded_longName (hunpadded.1 _ List.mem_cons_self).1

end Runs

end MLRunX.PresetReload
