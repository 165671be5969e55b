import Mathlib.Data.Finset.Card
import Mathlib.Logic.Function.Basic
import MLRunX.Commands
import MLRunX.MetadataKey

namespace MLRunX.Cardinality

open Commands Text

structure LimitsConfig where
  maxTagKeysPerRun : Nat := 100
  maxMetricNamesPerRun : Nat := 1000
  maxTagsPerProject : Nat := 10000
  maxTagKeyLength : Nat := 256
  maxTagValueLength : Nat := 1024
  maxMetricNameLength : Nat := 256
  deriving DecidableEq, Repr

structure ValidationResult where
  acceptedTags : List (String × String) := []
  acceptedMetrics : List String := []
  droppedTags : List (String × String) := []
  droppedMetrics : List String := []
  warnings : List String := []
  deriving DecidableEq, Repr

structure RunCardinality where
  tagKeys : Finset String := ∅
  metricNames : Finset String := ∅
  deriving DecidableEq

structure ProjectCardinality where
  tagPairs : Finset (String × String) := ∅
  deriving DecidableEq

structure CardinalityTracker where
  runs : String → Option RunCardinality
  projects : String → Option ProjectCardinality

def CardinalityTracker.empty : CardinalityTracker := ⟨fun _ => none, fun _ => none⟩

/-- A text was cut inside a character. -/
inductive Panic
  | charBoundary
  deriving DecidableEq, Repr

/-- What a batch is validated against, and the result so far. -/
structure Progress where
  run : RunCardinality
  project : ProjectCardinality
  result : ValidationResult

def Progress.dropTag (p : Progress) (tag : String × String) (warnings : List String) : Progress :=
  { p with result := { p.result with
      droppedTags := p.result.droppedTags ++ [tag]
      warnings := p.result.warnings ++ warnings } }

def Progress.acceptTag (p : Progress) (tag : String × String) : Progress where
  run := { p.run with tagKeys := insert tag.1 p.run.tagKeys }
  project := ⟨insert tag p.project.tagPairs⟩
  result := { p.result with acceptedTags := p.result.acceptedTags ++ [tag] }

def Progress.dropMetric (p : Progress) (name : String) (warnings : List String) : Progress :=
  { p with result := { p.result with
      droppedMetrics := p.result.droppedMetrics ++ [name]
      warnings := p.result.warnings ++ warnings } }

def Progress.acceptMetric (p : Progress) (name : String) : Progress :=
  { p with
    run := { p.run with metricNames := insert name p.run.metricNames }
    result := { p.result with acceptedMetrics := p.result.acceptedMetrics ++ [name] } }

/-- The start of an overlong text that a warning quotes. -/
def excerpt (text : String) : Option String := slicePrefix text (min 32 (byteLength text))

variable (config : LimitsConfig) (projectId runId : String)

def validateTag (tag : String × String) : Command Progress Panic Unit := fun p =>
  if config.maxTagKeyLength < byteLength tag.1 then
    match excerpt tag.1 with
    | none => (.error .charBoundary, p)
    | some start =>
        (.ok (), p.dropTag tag [s!"Tag key '{start}...' exceeds max length {config.maxTagKeyLength}"])
  else if config.maxTagValueLength < byteLength tag.2 then
    (.ok (), p.dropTag tag [s!"Tag value for '{tag.1}' exceeds max length {config.maxTagValueLength}"])
  else if tag.1 ∉ p.run.tagKeys ∧ config.maxTagKeysPerRun ≤ p.run.tagKeys.card then
    (.ok (), p.dropTag tag (if p.result.droppedTags.isEmpty then
      [s!"Run {runId} has reached max tag keys ({config.maxTagKeysPerRun})"] else []))
  else if tag ∉ p.project.tagPairs ∧ config.maxTagsPerProject ≤ p.project.tagPairs.card then
    (.ok (), p.dropTag tag (if p.result.droppedTags.isEmpty then
      [s!"Project {projectId} has reached max tags ({config.maxTagsPerProject})"] else []))
  else
    (.ok (), p.acceptTag tag)

def validateMetricName (name : String) : Command Progress Panic Unit := fun p =>
  if config.maxMetricNameLength < byteLength name then
    match excerpt name with
    | none => (.error .charBoundary, p)
    | some start =>
        (.ok (), p.dropMetric name [s!"Metric name '{start}...' exceeds max length {config.maxMetricNameLength}"])
  else if name ∉ p.run.metricNames ∧ config.maxMetricNamesPerRun ≤ p.run.metricNames.card then
    (.ok (), p.dropMetric name (if p.result.droppedMetrics.isEmpty then
      [s!"Run {runId} has reached max metric names ({config.maxMetricNamesPerRun})"] else []))
  else
    (.ok (), p.acceptMetric name)

def validateItems (tags : List (String × String)) (metricNames : List String) : Command Progress Panic Unit := do
  tags.forM (validateTag config projectId runId)
  metricNames.forM (validateMetricName config runId)

def validateBatch (tags : List (String × String)) (metricNames : List String) :
    Command CardinalityTracker Panic ValidationResult := fun tracker =>
  let start : Progress := ⟨(tracker.runs runId).getD {}, (tracker.projects projectId).getD {}, {}⟩
  let ended := validateItems config projectId runId tags metricNames start
  (ended.1.map (fun _ => ended.2.result), {
    runs := Function.update tracker.runs runId (some ended.2.run)
    projects := Function.update tracker.projects projectId (some ended.2.project) })

def CardinalityTracker.clearRun (runId : String) (tracker : CardinalityTracker) : CardinalityTracker :=
  { tracker with runs := Function.update tracker.runs runId none }

/-- The excerpt of a text ends at a character unless the text is let pass. -/
def Quotable (maxLength : Nat) (text : String) : Prop :=
  maxLength < byteLength text → (excerpt text).isSome = true

instance (maxLength : Nat) (text : String) : Decidable (Quotable maxLength text) :=
  inferInstanceAs (Decidable (_ → _))

theorem quotable_of_ascii (maxLength : Nat) {text : String} (h : ∀ c ∈ text.toList, c.utf8Size = 1) :
    Quotable maxLength text :=
  fun _ => slicePrefix_isSome h (Nat.min_le_right _ _)

variable {config projectId runId}

theorem completes_validateTag {tag : String × String} (h : Quotable config.maxTagKeyLength tag.1) :
    Completes (validateTag config projectId runId tag) := by
  constructor
  intro p _
  simp only [validateTag]
  split
  · rename_i hlong
    obtain ⟨start, hstart⟩ := Option.isSome_iff_exists.mp (h hlong)
    rw [hstart]
    trivial
  · split_ifs <;> trivial

theorem completes_validateMetricName {name : String} (h : Quotable config.maxMetricNameLength name) :
    Completes (validateMetricName config runId name) := by
  constructor
  intro p _
  simp only [validateMetricName]
  split
  · rename_i hlong
    obtain ⟨start, hstart⟩ := Option.isSome_iff_exists.mp (h hlong)
    rw [hstart]
    trivial
  · split_ifs <;> trivial

theorem completes_validateBatch {tags : List (String × String)} {metricNames : List String}
    (htags : ∀ tag ∈ tags, Quotable config.maxTagKeyLength tag.1)
    (hnames : ∀ name ∈ metricNames, Quotable config.maxMetricNameLength name) :
    Completes (validateBatch config projectId runId tags metricNames) := by
  constructor
  intro tracker _
  have hitems : Completes (validateItems config projectId runId tags metricNames) :=
    completes_bind (triple_forM (fun tag htag => completes_validateTag (htags tag htag)))
      (fun _ => triple_forM (fun name hname => completes_validateMetricName (hnames name hname)))
  obtain ⟨u, p, hend⟩ := hitems.exists_ok
    ⟨(tracker.runs runId).getD {}, (tracker.projects projectId).getD {}, {}⟩
  simp only [validateBatch, hend]
  trivial

end MLRunX.Cardinality
