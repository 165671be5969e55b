import Mathlib.Data.Finset.Card
import MLRunX.Cardinality

namespace MLRunX.TrackedBatches

open Cardinality Commands Text

/-- The sets and the result behind a part of a batch, by the sets before it. -/
structure Tracks (config : LimitsConfig) (tags : List (String × String)) (names : List String) (start p : Progress) :
    Prop where
  tagKeysGrow : start.run.tagKeys ⊆ p.run.tagKeys
  metricNamesGrow : start.run.metricNames ⊆ p.run.metricNames
  acceptedTags : ∀ tag ∈ p.result.acceptedTags, tag ∈ tags ∧ tag.1 ∈ p.run.tagKeys
  acceptedMetrics : ∀ name ∈ p.result.acceptedMetrics, name ∈ names ∧ name ∈ p.run.metricNames
  tagKeys : start.run.tagKeys.card ≤ config.maxTagKeysPerRun → p.run.tagKeys.card ≤ config.maxTagKeysPerRun
  metricNames : start.run.metricNames.card ≤ config.maxMetricNamesPerRun →
    p.run.metricNames.card ≤ config.maxMetricNamesPerRun

variable {config : LimitsConfig} {projectId runId : String} {tags : List (String × String)} {names : List String}
  {start p : Progress}

theorem tracks_start (run : RunCardinality) (project : ProjectCardinality) :
    Tracks config tags names ⟨run, project, {}⟩ ⟨run, project, {}⟩ where
  tagKeysGrow := subset_rfl
  metricNamesGrow := subset_rfl
  acceptedTags := List.forall_mem_nil _
  acceptedMetrics := List.forall_mem_nil _
  tagKeys := id
  metricNames := id

theorem Tracks.dropTag (h : Tracks config tags names start p) (tag : String × String) (warnings : List String) :
    Tracks config tags names start (p.dropTag tag warnings) :=
  ⟨h.tagKeysGrow, h.metricNamesGrow, h.acceptedTags, h.acceptedMetrics, h.tagKeys, h.metricNames⟩

theorem Tracks.dropMetric (h : Tracks config tags names start p) (name : String) (warnings : List String) :
    Tracks config tags names start (p.dropMetric name warnings) :=
  ⟨h.tagKeysGrow, h.metricNamesGrow, h.acceptedTags, h.acceptedMetrics, h.tagKeys, h.metricNames⟩

theorem card_insert_le_of_room {α : Type} [DecidableEq α] {items : Finset α} {item : α} {cap : Nat}
    (hroom : ¬ (item ∉ items ∧ cap ≤ items.card)) (h : items.card ≤ cap) :
      (insert item items).card ≤ cap := by
  by_cases hmem : item ∈ items
  · rwa [Finset.insert_eq_of_mem hmem]
  · rw [Finset.card_insert_of_notMem hmem]
    have hlt : items.card < cap := Nat.lt_of_not_le (fun hfull => hroom ⟨hmem, hfull⟩)
    omega

theorem Tracks.acceptTag (h : Tracks config tags names start p) {tag : String × String} (htag : tag ∈ tags)
    (hroom : ¬ (tag.1 ∉ p.run.tagKeys ∧ config.maxTagKeysPerRun ≤ p.run.tagKeys.card)) :
    Tracks config tags names start (p.acceptTag tag) where
  tagKeysGrow := h.tagKeysGrow.trans (Finset.subset_insert _ _)
  metricNamesGrow := h.metricNamesGrow
  acceptedTags t ht := by
    rcases List.mem_append.mp ht with ht | ht
    · exact ⟨(h.acceptedTags t ht).1, Finset.mem_insert_of_mem (h.acceptedTags t ht).2⟩
    · rw [List.mem_singleton.mp ht]
      exact ⟨htag, Finset.mem_insert_self _ _⟩
  acceptedMetrics := h.acceptedMetrics
  tagKeys hstart := card_insert_le_of_room hroom (h.tagKeys hstart)
  metricNames := h.metricNames

theorem Tracks.acceptMetric (h : Tracks config tags names start p) {name : String} (hname : name ∈ names)
    (hroom : ¬ (name ∉ p.run.metricNames ∧ config.maxMetricNamesPerRun ≤ p.run.metricNames.card)) :
    Tracks config tags names start (p.acceptMetric name) where
  tagKeysGrow := h.tagKeysGrow
  metricNamesGrow := h.metricNamesGrow.trans (Finset.subset_insert _ _)
  acceptedTags := h.acceptedTags
  acceptedMetrics n hn := by
    rcases List.mem_append.mp hn with hn | hn
    · exact ⟨(h.acceptedMetrics n hn).1, Finset.mem_insert_of_mem (h.acceptedMetrics n hn).2⟩
    · rw [List.mem_singleton.mp hn]
      exact ⟨hname, Finset.mem_insert_self _ _⟩
  tagKeys := h.tagKeys
  metricNames hstart := card_insert_le_of_room hroom (h.metricNames hstart)

theorem keeps_validateTag {tag : String × String} (htag : tag ∈ tags) :
    Keeps (Tracks config tags names start) (validateTag config projectId runId tag) := by
  constructor
  intro p h
  simp only [validateTag]
  split
  · cases excerpt tag.1 with
    | none => exact h
    | some text => exact h.dropTag _ _
  split
  · exact h.dropTag _ _
  split
  · exact h.dropTag _ _
  split
  · exact h.dropTag _ _
  · rename_i hroom _
    exact h.acceptTag htag hroom

theorem keeps_validateMetricName {name : String} (hname : name ∈ names) :
    Keeps (Tracks config tags names start) (validateMetricName config runId name) := by
  constructor
  intro p h
  simp only [validateMetricName]
  split
  · cases excerpt name with
    | none => exact h
    | some text => exact h.dropMetric _ _
  split
  · exact h.dropMetric _ _
  · rename_i hroom
    exact h.acceptMetric hname hroom

theorem keeps_validateItems :
    Keeps (Tracks config tags names start) (validateItems config projectId runId tags names) :=
  keeps_bind (triple_forM (fun _ htag => keeps_validateTag htag))
    (fun _ => triple_forM (fun _ hname => keeps_validateMetricName hname))

/-- What the tracker knows of a run. -/
def known (tracker : CardinalityTracker) (runId : String) : RunCardinality := (tracker.runs runId).getD {}

/-- What the tracker knows of a project. -/
def knownPairs (tracker : CardinalityTracker) (projectId : String) : ProjectCardinality :=
  (tracker.projects projectId).getD {}

theorem known_validateBatch (tracker : CardinalityTracker) :
    known (validateBatch config projectId runId tags names tracker).2 runId =
      (validateItems config projectId runId tags names
        ⟨known tracker runId, knownPairs tracker projectId, {}⟩).2.run := by
  simp [known, knownPairs, validateBatch]

theorem known_validateBatch_other (tracker : CardinalityTracker) {other : String} (h : other ≠ runId) :
    known (validateBatch config projectId runId tags names tracker).2 other = known tracker other := by
  simp [known, validateBatch, Function.update_of_ne h]

theorem tracks_validateBatch (tracker : CardinalityTracker) :
    Tracks config tags names ⟨known tracker runId, knownPairs tracker projectId, {}⟩
      (validateItems config projectId runId tags names ⟨known tracker runId, knownPairs tracker projectId, {}⟩).2 :=
  keeps_validateItems.after (fun _ _ h => h) (fun _ h => h) (tracks_start _ _)

theorem result_validateBatch {tracker tracker' : CardinalityTracker} {validation : ValidationResult}
    (h : validateBatch config projectId runId tags names tracker = (.ok validation, tracker')) :
    validation = (validateItems config projectId runId tags names
      ⟨known tracker runId, knownPairs tracker projectId, {}⟩).2.result := by
  have hfirst : (validateItems config projectId runId tags names
      ⟨known tracker runId, knownPairs tracker projectId, {}⟩).1.map
      (fun _ => (validateItems config projectId runId tags names
        ⟨known tracker runId, knownPairs tracker projectId, {}⟩).2.result) = .ok validation := congrArg Prod.fst h
  cases hend : (validateItems config projectId runId tags names
      ⟨known tracker runId, knownPairs tracker projectId, {}⟩).1 with
  | error e =>
      rw [hend] at hfirst
      cases hfirst
  | ok u =>
      rw [hend] at hfirst
      exact (Except.ok.inj hfirst).symm

theorem accepted_mem {tracker tracker' : CardinalityTracker} {validation : ValidationResult}
    (h : validateBatch config projectId runId tags names tracker = (.ok validation, tracker')) :
    (∀ tag ∈ validation.acceptedTags, tag ∈ tags ∧ tag.1 ∈ (known tracker' runId).tagKeys) ∧
      ∀ name ∈ validation.acceptedMetrics, name ∈ names ∧ name ∈ (known tracker' runId).metricNames := by
  have htracks := @tracks_validateBatch config projectId runId tags names tracker
  have hknown := @known_validateBatch config projectId runId tags names tracker
  rw [h] at hknown
  rw [result_validateBatch h, hknown]
  exact ⟨htracks.acceptedTags, htracks.acceptedMetrics⟩

end MLRunX.TrackedBatches
