import MLRunX.DroppedItems
import MLRunX.MessageCuts
import MLRunX.StoredRows

namespace MLRunX.SilentDrops

open Cardinality Commands DroppedItems Http Ingest IngestRequest JsonValues MessageCuts PayloadHash ReportedDrops
open RunTables Sanitizer SanitizerBypass Sqlite Text TrackedBatches

inductive MetricDrop
  | name (reason : NameDrop)
  | nonFinite
  deriving DecidableEq, Repr

inductive EventDrop
  | blank
  | timestamp
  | structured (error : String)
  deriving DecidableEq, Repr

section Fates

variable (config : LimitsConfig) (runId : String)

def metricFates : Finset String → List MetricRow → List (MetricRow × Option MetricDrop)
  | _, [] => []
  | names, metric :: metrics =>
      match nameDrop config names metric.name with
      | some reason => (metric, some (.name reason)) :: metricFates names metrics
      | none => (metric, if isFiniteMetric metric then none else some .nonFinite) ::
          metricFates (insert metric.name names) metrics

def nonFinite (fates : List (MetricRow × Option MetricDrop)) : ℕ := (drops fates).count .nonFinite

def metricWarning (nonFinite : ℕ) (metric : MetricRow) : MetricDrop → String
  | .name reason => nameWarning config runId metric.name reason
  | .nonFinite => s!"Dropped {nonFinite} metrics with non-finite values/timestamps"

variable (N : JsonMeaning.Numbers)

/-- Why an event is dropped, by the part of its message that is looked at. -/
def eventDrop (event : LogEventData) : Option EventDrop :=
  match sanitizeRunEventMessage event.message with
  | none => some .blank
  | some message =>
      if event.timestamp.any (fun timestamp => !F64.isFinite timestamp) then some .timestamp
      else match sanitizeStructuredEventMessage N message with
        | .error error => some (.structured error)
        | .ok _ => none

def eventFates (events : List LogEventData) : List (LogEventData × Option EventDrop) :=
  events.map (fun event => (event, eventDrop N event))

def dropWarning (dropped : ℕ) : EventDrop → String
  | .structured error => s!"Dropped unsafe structured event: {error}"
  | .blank | .timestamp => s!"Dropped {dropped} events with empty messages or non-finite timestamps"

def eventWith (event : LogEventData) (message : String) : RunEventInput where
  level := normalizeRunEventLevel event.level
  source := normalizeRunEventSource event.source
  message := settledMessage N message
  step := event.step
  timestamp := event.timestamp

def wholeEvent (event : LogEventData) : RunEventInput := eventWith N event (trim event.message)

end Fates

/-- What a server knows before a batch, and the batch with its items in normal form. -/
structure Batch where
  projectId : String
  runId : String
  run : RunCardinality
  project : ProjectCardinality
  tags : List (String × String)
  metrics : List MetricRow
  events : List LogEventData

section Batches

variable (config : LimitsConfig) (N : JsonMeaning.Numbers) (batch : Batch)

def Batch.tagFates : List ((String × String) × Option TagDrop) :=
  DroppedItems.tagFates config batch.run.tagKeys batch.project.tagPairs batch.tags

def Batch.nameFates : List (String × Option NameDrop) :=
  DroppedItems.nameFates config batch.run.metricNames (batch.metrics.map MetricRow.name)

def Batch.metricFates : List (MetricRow × Option MetricDrop) :=
  SilentDrops.metricFates config batch.run.metricNames batch.metrics

def Batch.eventFates : List (LogEventData × Option EventDrop) := SilentDrops.eventFates N batch.events

/-- Every item is stored whole, or a warning gives the reason why it was dropped. -/
structure Accounted (contents : Contents) (warnings : List String) : Prop where
  tags : ∀ tag, (tag, none) ∈ batch.tagFates config → contents.tags.reverse.lookup tag.1 = some tag.2
  droppedTags : ∀ tag reason, (tag, some reason) ∈ batch.tagFates config →
    tagWarning config batch.projectId batch.runId tag reason ∈ warnings
  metrics : contents.metrics = kept (batch.metricFates config)
  droppedMetrics : ∀ metric reason, (metric, some reason) ∈ batch.metricFates config →
    metricWarning config batch.runId (nonFinite (batch.metricFates config)) metric reason ∈ warnings
  events : contents.events = (kept (batch.eventFates N)).map (wholeEvent N)
  droppedEvents : ∀ event reason, (event, some reason) ∈ batch.eventFates N →
    dropWarning (drops (batch.eventFates N)).length reason ∈ warnings

/-- A full run or project is the first reason why a tag is dropped, a full run the first why a metric
is; the tags that are kept have one value under a key, and the messages are not cut. -/
structure Plain : Prop where
  tags : ∀ reason ∈ drops (batch.tagFates config), reason.isCap = true →
    (drops (batch.tagFates config)).head? = some reason
  keys : ∀ tag ∈ kept (batch.tagFates config), ∀ other ∈ kept (batch.tagFates config),
    tag.1 = other.1 → tag.2 = other.2
  metrics : .runFull ∈ drops (batch.nameFates config) → (drops (batch.nameFates config)).head? = some .runFull
  events : ∀ event ∈ kept (batch.eventFates N), (trim event.message).toList.length ≤ runEventMaxLen

end Batches

variable {config : LimitsConfig} {N : JsonMeaning.Numbers} {batch : Batch}

/-! The metrics that are kept, by the names that are accepted. -/

section Metrics

variable {names : Finset String} {metrics : List MetricRow} {metric : MetricRow} {accepted : List String}

/-- The accepted names are those that are kept. -/
structure Accepts (config : LimitsConfig) (names : Finset String) (metrics : List MetricRow)
    (accepted : List String) : Prop where
  kept : ∀ name, (name, none) ∈ nameFates config names (metrics.map MetricRow.name) → name ∈ accepted
  dropped : ∀ name reason, (name, some reason) ∈ nameFates config names (metrics.map MetricRow.name) →
    name ∉ accepted

theorem accepts_kept (config : LimitsConfig) (names : Finset String) (metrics : List MetricRow) :
    Accepts config names metrics (kept (nameFates config names (metrics.map MetricRow.name))) where
  kept _ h := mem_kept_iff.2 h
  dropped _ _ h hkept := one_fate (mem_kept_iff.1 hkept) h

theorem Accepts.tail_dropped (h : Accepts config names (metric :: metrics) accepted) {reason : NameDrop}
    (hdrop : nameDrop config names metric.name = some reason) : Accepts config names metrics accepted := by
  obtain ⟨hkept, hdropped⟩ := h
  rw [List.map_cons, nameFates, hdrop] at hkept hdropped
  exact ⟨fun name hmem => hkept name (List.mem_cons_of_mem _ hmem),
    fun name r hmem => hdropped name r (List.mem_cons_of_mem _ hmem)⟩

theorem Accepts.tail_kept (h : Accepts config names (metric :: metrics) accepted)
    (hdrop : nameDrop config names metric.name = none) :
    Accepts config (insert metric.name names) metrics accepted := by
  obtain ⟨hkept, hdropped⟩ := h
  rw [List.map_cons, nameFates, hdrop] at hkept hdropped
  exact ⟨fun name hmem => hkept name (List.mem_cons_of_mem _ hmem),
    fun name r hmem => hdropped name r (List.mem_cons_of_mem _ hmem)⟩

theorem Accepts.head_dropped (h : Accepts config names (metric :: metrics) accepted) {reason : NameDrop}
    (hdrop : nameDrop config names metric.name = some reason) : accepted.contains metric.name = false := by
  have hnot := h.dropped metric.name reason
  rw [List.map_cons, nameFates, hdrop] at hnot
  rw [← Bool.not_eq_true, List.contains_iff_mem]
  exact hnot List.mem_cons_self

theorem Accepts.head_kept (h : Accepts config names (metric :: metrics) accepted)
    (hdrop : nameDrop config names metric.name = none) : accepted.contains metric.name = true := by
  have hmem := h.kept metric.name
  rw [List.map_cons, nameFates, hdrop] at hmem
  rw [List.contains_iff_mem]
  exact hmem List.mem_cons_self

theorem kept_metricFates (h : Accepts config names metrics accepted) :
    kept (metricFates config names metrics) =
      (metrics.filter (fun m => accepted.contains m.name)).filter isFiniteMetric := by
  induction metrics generalizing names with
  | nil => rfl
  | cons metric metrics ih =>
      rw [metricFates]
      cases hdrop : nameDrop config names metric.name with
      | some reason =>
          rw [List.filter_cons_of_neg (by rw [h.head_dropped hdrop]; exact Bool.false_ne_true)]
          exact ih (h.tail_dropped hdrop)
      | none =>
          rw [List.filter_cons, if_pos (h.head_kept hdrop)]
          cases hfinite : isFiniteMetric metric with
          | true =>
              rw [List.filter_cons_of_pos hfinite, ← ih (h.tail_kept hdrop)]
              rfl
          | false =>
              rw [List.filter_cons_of_neg (by rw [hfinite]; exact Bool.false_ne_true), ← ih (h.tail_kept hdrop)]
              rfl

theorem nonFinite_metricFates (h : Accepts config names metrics accepted) :
    nonFinite (metricFates config names metrics) =
      (metrics.filter (fun m => accepted.contains m.name)).countP (fun m => !isFiniteMetric m) := by
  induction metrics generalizing names with
  | nil => rfl
  | cons metric metrics ih =>
      rw [metricFates]
      cases hdrop : nameDrop config names metric.name with
      | some reason =>
          rw [List.filter_cons_of_neg (by rw [h.head_dropped hdrop]; exact Bool.false_ne_true),
            ← ih (h.tail_dropped hdrop)]
          rfl
      | none =>
          rw [List.filter_cons, if_pos (h.head_kept hdrop)]
          cases hfinite : isFiniteMetric metric with
          | true =>
              rw [List.countP_cons_of_neg (by rw [hfinite]; decide), ← ih (h.tail_kept hdrop)]
              rfl
          | false =>
              rw [List.countP_cons_of_pos (by rw [hfinite]; rfl), ← ih (h.tail_kept hdrop)]
              exact List.count_cons_self

theorem mem_metricFates_name {reason : NameDrop} {name : String} :
    (∃ metric, (metric, some (.name reason)) ∈ metricFates config names metrics ∧ metric.name = name) ↔
      (name, some reason) ∈ nameFates config names (metrics.map MetricRow.name) := by
  induction metrics generalizing names with
  | nil => simp [metricFates, nameFates]
  | cons metric metrics ih =>
      rw [metricFates, List.map_cons, nameFates]
      cases hdrop : nameDrop config names metric.name with
      | some r =>
          simp only [List.mem_cons, Prod.mk.injEq, Option.some.injEq, MetricDrop.name.injEq, ← ih]
          constructor
          · rintro ⟨m, ⟨rfl, rfl⟩ | hmem, rfl⟩
            · exact .inl ⟨rfl, rfl⟩
            · exact .inr ⟨m, hmem, rfl⟩
          · rintro (⟨rfl, rfl⟩ | ⟨m, hmem, rfl⟩)
            · exact ⟨metric, .inl ⟨rfl, rfl⟩, rfl⟩
            · exact ⟨m, .inr hmem, rfl⟩
      | none =>
          have hhead : ∀ m : MetricRow, (m, some (MetricDrop.name reason)) ≠
              (metric, if isFiniteMetric metric then none else some .nonFinite) := by
            intro m heq
            have hsecond := (Prod.mk.inj heq).2
            split_ifs at hsecond
            cases hsecond
          simp only [List.mem_cons, hhead, false_or, ih, Prod.mk.injEq, reduceCtorEq, and_false]

end Metrics

/-! The events that are kept. -/

section Events

variable {event : LogEventData}

/-- An event as it is stored, with the part of its message that is looked at. -/
def cutEvent (N : JsonMeaning.Numbers) (event : LogEventData) : RunEventInput :=
  eventWith N event (cutMessage (trim event.message))

theorem sanitizeEvent_eq (N : JsonMeaning.Numbers) (event : LogEventData) :
    sanitizeEvent (sanitizeStructuredEventMessage N) event =
      match eventDrop N event with
      | none => .ok (cutEvent N event)
      | some (.structured error) => .error (some s!"Dropped unsafe structured event: {error}")
      | some _ => .error none := by
  rw [sanitizeEvent, eventDrop, sanitizeRunEventMessage_eq]
  by_cases hblank : trim event.message = ""
  · rw [if_pos hblank]
  rw [if_neg hblank]
  dsimp only
  by_cases htime : event.timestamp.any (fun timestamp => !F64.isFinite timestamp) = true
  · rw [if_pos htime, if_pos htime]
  rw [if_neg htime, if_neg htime]
  cases hsanitize : sanitizeStructuredEventMessage N (cutMessage (trim event.message)) with
  | error error => rfl
  | ok r =>
      have hmessage : settledMessage N (cutMessage (trim event.message)) =
        r.getD (cutMessage (trim event.message)) := by
        rw [settledMessage, hsanitize]
        cases r <;> rfl
      rw [cutEvent, eventWith, hmessage]

variable (events : List LogEventData)

theorem stored_events : (events.map (sanitizeEvent (sanitizeStructuredEventMessage N))).filterMap Except.toOption =
    (kept (eventFates N events)).map (cutEvent N) := by
  induction events with
  | nil => rfl
  | cons event events ih =>
      have heq := sanitizeEvent_eq N event
      rw [eventFates, List.map_cons, List.map_cons, List.filterMap_cons, heq, ih]
      cases hdrop : eventDrop N event with
      | none => rfl
      | some reason => cases reason <;> rfl

theorem mem_event_warnings {warning : String} :
    warning ∈ (events.map (sanitizeEvent (sanitizeStructuredEventMessage N))).filterMap eventWarning ↔
      ∃ event error, (event, some (.structured error)) ∈ eventFates N events ∧
        warning = s!"Dropped unsafe structured event: {error}" := by
  simp only [List.mem_filterMap, List.mem_map, eventFates]
  constructor
  · rintro ⟨_, ⟨event, hevent, rfl⟩, hwarning⟩
    rw [sanitizeEvent_eq] at hwarning
    cases hdrop : eventDrop N event with
    | none =>
        rw [hdrop] at hwarning
        cases hwarning
    | some reason =>
        rw [hdrop] at hwarning
        cases reason with
        | blank => cases hwarning
        | timestamp => cases hwarning
        | structured error =>
            exact ⟨event, error, ⟨event, hevent, by rw [hdrop]⟩, (Option.some.inj hwarning).symm⟩
  · rintro ⟨event, error, ⟨event', hevent, heq⟩, rfl⟩
    obtain ⟨rfl, hdrop⟩ := Prod.mk.inj heq
    refine ⟨_, ⟨event', hevent, rfl⟩, ?_⟩
    rw [sanitizeEvent_eq, hdrop]
    rfl

theorem dropped_events :
    (events.map (sanitizeEvent (sanitizeStructuredEventMessage N))).countP (fun event => !event.isOk) =
    (drops (eventFates N events)).length := by
  induction events with
  | nil => rfl
  | cons event events ih =>
      have heq := sanitizeEvent_eq N event
      rw [eventFates, List.map_cons, List.map_cons, List.countP_cons, heq, ih]
      cases hdrop : eventDrop N event with
      | none => rfl
      | some reason => cases reason <;> rfl

theorem eventWith_message (N : JsonMeaning.Numbers) (event : LogEventData) (message : String) :
    (eventWith N event message).message = settledMessage N message := rfl

theorem wholeEvents_iff : (kept (eventFates N events)).map (cutEvent N) =
    (kept (eventFates N events)).map (wholeEvent N) ↔
    ∀ event ∈ kept (eventFates N events), (trim event.message).toList.length ≤ runEventMaxLen := by
  rw [List.map_inj_left]
  refine forall₂_congr (fun event _ => ?_)
  rw [← settled_cut_iff (N := N)]
  constructor
  · intro h
    have hmessage := congrArg RunEventInput.message h
    rwa [cutEvent, wholeEvent, eventWith_message, eventWith_message] at hmessage
  · intro h
    rw [cutEvent, wholeEvent, eventWith, eventWith, h]

end Events

/-! The texts of the warnings differ in their first letter, or behind the name of the run. -/

def initial (s : String) : Option Char := s.toList.head?

theorem initial_append {s : String} {c : Char} (h : initial s = some c) (t : String) :
    initial (s ++ t) = some c := by
  rw [initial] at h
  rw [initial, String.toList_append, List.head?_append, h]
  rfl

section Texts

variable {projectId runId name : String} {tag : String × String}

theorem initial_tagWarning (reason : TagDrop) : initial (tagWarning config projectId runId tag reason) =
    some (match reason with | .keyTooLong | .valueTooLong => 'T' | .runFull => 'R' | .projectFull => 'P') := by
  cases reason with
  | keyTooLong => exact initial_append (initial_append (initial_append rfl _) _) _
  | valueTooLong => exact initial_append (initial_append (initial_append rfl _) _) _
  | runFull => exact initial_append (initial_append (initial_append (initial_append rfl _) _) _) _
  | projectFull => exact initial_append (initial_append (initial_append (initial_append rfl _) _) _) _

theorem initial_nameWarning (reason : NameDrop) : initial (nameWarning config runId name reason) =
    some (match reason with | .tooLong => 'M' | .runFull => 'R') := by
  cases reason with
  | tooLong => exact initial_append (initial_append (initial_append rfl _) _) _
  | runFull => exact initial_append (initial_append (initial_append (initial_append rfl _) _) _) _

theorem runFull_ne : tagWarning config projectId runId tag .runFull ≠ nameWarning config runId name .runFull := by
  intro h
  have hchars : "Run ".toList ++ runId.toList ++ " has reached max tag keys (".toList ++
      (toString config.maxTagKeysPerRun).toList ++ ")".toList =
      "Run ".toList ++ runId.toList ++ " has reached max metric names (".toList ++
        (toString config.maxMetricNamesPerRun).toList ++ ")".toList := by
    simp only [← String.toList_append]
    exact congrArg String.toList h
  simp only [List.append_assoc, List.append_cancel_left_eq] at hchars
  have hletter : some 't' = some 'm' := congrArg (fun cs : List Char => cs[17]?) hchars
  cases hletter

end Texts

section Texts

variable {projectId runId : String}

theorem telling_tags : Telling (tagWarning config projectId runId) TagDrop.isCap where
  same := by
    intro reason hcap a b
    cases reason with
    | keyTooLong | valueTooLong => cases hcap
    | runFull | projectFull => rfl
  own := by
    intro reason hcap a b other h
    have hinitial := congrArg initial h
    rw [initial_tagWarning, initial_tagWarning] at hinitial
    cases reason with
    | keyTooLong | valueTooLong => cases hcap
    | runFull =>
        cases other with
        | runFull => rfl
        | keyTooLong | valueTooLong | projectFull => cases hinitial
    | projectFull =>
        cases other with
        | projectFull => rfl
        | keyTooLong | valueTooLong | runFull => cases hinitial

theorem telling_names : Telling (nameWarning config runId) NameDrop.isCap where
  same := by
    intro reason hcap a b
    cases reason with
    | tooLong => cases hcap
    | runFull => rfl
  own := by
    intro reason hcap a b other h
    have hinitial := congrArg initial h
    rw [initial_nameWarning, initial_nameWarning] at hinitial
    cases reason with
    | tooLong => cases hcap
    | runFull =>
        cases other with
        | runFull => rfl
        | tooLong => cases hinitial

end Texts

/-! The contents of a request. -/

section Contents

variable {env : Env} {p : Pending} {validation : ValidationResult}

/-- A batch for a run of a project, and what the server knows before it. -/
def batchOf (projectId : String) (sent : Sent) (batch : ValidatedBatch) (tracker : CardinalityTracker) :
    Batch where
  projectId := projectId
  runId := sent.request.runId
  run := known tracker sent.request.runId
  project := knownPairs tracker projectId
  tags := batch.tags
  metrics := batch.metrics
  events := sent.request.events

/-- The warnings about other things than tags and metrics that a run or a project has no room for. -/
def Besides (config : LimitsConfig) (N : JsonMeaning.Numbers) (batch : Batch) (before : List String) (w : String) :
    Prop :=
  w ∈ before ∨ (0 < nonFinite (batch.metricFates config) ∧
      w = s!"Dropped {nonFinite (batch.metricFates config)} metrics with non-finite values/timestamps") ∨
    (∃ event error, (event, some (.structured error)) ∈ batch.eventFates N ∧
      w = s!"Dropped unsafe structured event: {error}") ∨
    0 < (drops (batch.eventFates N)).length ∧
      w = s!"Dropped {(drops (batch.eventFates N)).length} events with empty messages or non-finite timestamps"

structure Prepared (config : LimitsConfig) (N : JsonMeaning.Numbers) (batch : Batch) (contents : Contents) :
    Prop where
  tags : contents.tags = kept (batch.tagFates config)
  metrics : contents.metrics = kept (batch.metricFates config)
  events : contents.events = (kept (batch.eventFates N)).map (cutEvent N)
  warnings : ∃ before : List String, (∀ w ∈ before, initial w = some 'B') ∧
    ∀ w : String, w ∈ contents.warnings ↔
    w ∈ reports (tagWarning config batch.projectId batch.runId) TagDrop.isCap false (batch.tagFates config) ∨
      w ∈ reports (nameWarning config batch.runId) NameDrop.isCap false (batch.nameFates config) ∨
      Besides config N batch before w

theorem mem_ite_singleton {c : Prop} [Decidable c] {w text : String} :
    w ∈ (if c then [text] else []) ↔ c ∧ w = text := by
  by_cases h : c <;> simp [h]

theorem prepared (hbefore : ∀ w ∈ p.warnings, initial w = some 'B') {tracker : CardinalityTracker}
    (hvalid : Validated env.limits p.projectId p.sent.request.runId p.batch.tags (p.batch.metrics.map MetricRow.name)
      (known tracker p.sent.request.runId) (knownPairs tracker p.projectId) validation) :
    Prepared env.limits N (batchOf p.projectId p.sent p.batch tracker)
      (prepareContents (sanitizing env N) p validation) := by
  obtain ⟨htags, hmetrics, hwarnings⟩ := hvalid
  have haccepts := accepts_kept env.limits (known tracker p.sent.request.runId).metricNames p.batch.metrics
  rw [← hmetrics] at haccepts
  refine ⟨htags, (kept_metricFates haccepts).symm, stored_events _, p.warnings, hbefore, ?_⟩
  intro w
  have hnonFinite : (p.batch.metrics.filter (fun m => validation.acceptedMetrics.contains m.name)).countP
      (fun m => !isFiniteMetric m) =
        nonFinite ((batchOf p.projectId p.sent p.batch tracker).metricFates env.limits) :=
    (nonFinite_metricFates haccepts).symm
  have hdropped : (p.sent.request.events.map (sanitizeEvent (sanitizing env N).sanitizeStructured)).countP
      (fun event => !event.isOk) =
        (drops ((batchOf p.projectId p.sent p.batch tracker).eventFates N)).length := dropped_events _
  have hevents : w ∈ (p.sent.request.events.map (sanitizeEvent (sanitizing env N).sanitizeStructured)).filterMap
      eventWarning ↔ ∃ event error,
        (event, some (.structured error)) ∈ (batchOf p.projectId p.sent p.batch tracker).eventFates N ∧
        w = s!"Dropped unsafe structured event: {error}" := mem_event_warnings _
  simp only [prepareContents, List.mem_append, mem_ite_singleton, hwarnings, hnonFinite, hdropped, hevents,
    or_assoc]
  rw [or_left_comm, @or_left_comm (w ∈ p.warnings)]
  exact Iff.rfl

theorem tags_iff (tags : List (String × String)) :
    (∀ tag ∈ tags, tags.reverse.lookup tag.1 = some tag.2) ↔
      ∀ tag ∈ tags, ∀ other ∈ tags, tag.1 = other.1 → tag.2 = other.2 := by
  constructor
  · intro h tag htag other hother hkey
    have hfirst := h tag htag
    rw [hkey, h other hother] at hfirst
    exact (Option.some.inj hfirst).symm
  · intro h tag htag
    cases hlookup : tags.reverse.lookup tag.1 with
    | none =>
        have hnone := List.lookup_eq_none_iff.1 hlookup tag (List.mem_reverse.2 htag)
        exact absurd hnone (by simp)
    | some value =>
        obtain ⟨front, rest, heq, -⟩ := List.lookup_eq_some_iff.1 hlookup
        have hmem : (tag.1, value) ∈ tags := by
          rw [← List.mem_reverse, heq]
          exact List.mem_append_right _ List.mem_cons_self
        rw [h tag htag _ hmem rfl]

variable {config : LimitsConfig} {batch : Batch} {contents : Contents} {before : List String} {w : String}

theorem initial_besides (hbefore : ∀ w ∈ before, initial w = some 'B') (h : Besides config N batch before w) :
    initial w = some 'B' ∨ initial w = some 'D' := by
  rcases h with hmem | ⟨-, rfl⟩ | ⟨event, error, -, rfl⟩ | ⟨-, rfl⟩
  · exact .inl (hbefore w hmem)
  · exact .inr (initial_append (initial_append rfl _) _)
  · exact .inr (initial_append rfl _)
  · exact .inr (initial_append (initial_append rfl _) _)

theorem droppedTags_iff (hbefore : ∀ w ∈ before, initial w = some 'B') :
    (∀ tag reason, (tag, some reason) ∈ batch.tagFates config →
        tagWarning config batch.projectId batch.runId tag reason ∈
            reports (tagWarning config batch.projectId batch.runId) TagDrop.isCap false (batch.tagFates config) ∨
          tagWarning config batch.projectId batch.runId tag reason ∈
            reports (nameWarning config batch.runId) NameDrop.isCap false (batch.nameFates config) ∨
          Besides config N batch before (tagWarning config batch.projectId batch.runId tag reason)) ↔
      ∀ reason ∈ drops (batch.tagFates config), reason.isCap = true →
        (drops (batch.tagFates config)).head? = some reason := by
  apply all_reported_iff telling_tags (fun w => w ∈ reports (nameWarning config batch.runId) NameDrop.isCap
    false (batch.nameFates config) ∨ Besides config N batch before w)
  rintro tag reason hcap (hname | hbesides)
  · obtain ⟨name, other, -, heq⟩ := of_mem_reports hname
    have hinitial := congrArg initial heq
    rw [initial_tagWarning, initial_nameWarning] at hinitial
    cases reason with
    | keyTooLong | valueTooLong => cases hcap
    | projectFull => cases other <;> cases hinitial
    | runFull =>
        cases other with
        | tooLong => cases hinitial
        | runFull => exact runFull_ne heq
  · have hinitial := initial_besides hbefore hbesides
    rw [initial_tagWarning] at hinitial
    cases reason with
    | keyTooLong | valueTooLong => cases hcap
    | runFull | projectFull => simp at hinitial

theorem droppedNames_iff (hbefore : ∀ w ∈ before, initial w = some 'B') :
    (∀ name reason, (name, some reason) ∈ batch.nameFates config →
        nameWarning config batch.runId name reason ∈
            reports (nameWarning config batch.runId) NameDrop.isCap false (batch.nameFates config) ∨
          nameWarning config batch.runId name reason ∈
            reports (tagWarning config batch.projectId batch.runId) TagDrop.isCap false (batch.tagFates config) ∨
          Besides config N batch before (nameWarning config batch.runId name reason)) ↔
      (.runFull ∈ drops (batch.nameFates config) → (drops (batch.nameFates config)).head? = some .runFull) := by
  rw [all_reported_iff telling_names (fun w => w ∈ reports (tagWarning config batch.projectId batch.runId)
    TagDrop.isCap false (batch.tagFates config) ∨ Besides config N batch before w)]
  · constructor
    · intro h hmem
      exact h _ hmem rfl
    · intro h reason hmem hcap
      cases reason with
      | tooLong => cases hcap
      | runFull => exact h hmem
  · rintro name reason hcap (htag | hbesides)
    · obtain ⟨tag, other, -, heq⟩ := of_mem_reports htag
      have hinitial := congrArg initial heq
      rw [initial_tagWarning, initial_nameWarning] at hinitial
      cases reason with
      | tooLong => cases hcap
      | runFull =>
          cases other with
          | keyTooLong | valueTooLong | projectFull => cases hinitial
          | runFull => exact runFull_ne heq.symm
    · have hinitial := initial_besides hbefore hbesides
      rw [initial_nameWarning] at hinitial
      cases reason with
      | tooLong => cases hcap
      | runFull => simp at hinitial

theorem nonFinite_pos {metric : MetricRow} (h : (metric, some .nonFinite) ∈ batch.metricFates config) :
    0 < nonFinite (batch.metricFates config) := by
  rw [nonFinite, List.count_pos_iff, drops, List.mem_filterMap]
  exact ⟨_, h, rfl⟩

theorem drops_pos {event : LogEventData} {reason : EventDrop} (h : (event, some reason) ∈ batch.eventFates N) :
    0 < (drops (batch.eventFates N)).length := by
  apply List.length_pos_of_mem (a := reason)
  rw [drops, List.mem_filterMap]
  exact ⟨_, h, rfl⟩

theorem besides_nonFinite {metric : MetricRow} (h : (metric, some .nonFinite) ∈ batch.metricFates config) :
    Besides config N batch before
      (metricWarning config batch.runId (nonFinite (batch.metricFates config)) metric .nonFinite) :=
  .inr (.inl ⟨nonFinite_pos h, rfl⟩)

theorem besides_event {event : LogEventData} {reason : EventDrop} (h : (event, some reason) ∈ batch.eventFates N) :
    Besides config N batch before (dropWarning (drops (batch.eventFates N)).length reason) := by
  cases reason with
  | blank | timestamp => exact .inr (.inr (.inr ⟨drops_pos h, rfl⟩))
  | structured error => exact .inr (.inr (.inl ⟨event, error, h, rfl⟩))

theorem accounted_iff (h : Prepared config N batch contents) :
    Accounted config N batch contents contents.warnings ↔ Plain config N batch := by
  obtain ⟨before, hbefore, hwarnings⟩ := h.warnings
  have htags := @droppedTags_iff N config batch before hbefore
  have hnames := @droppedNames_iff N config batch before hbefore
  have hkeys := tags_iff (kept (batch.tagFates config))
  have hevents := @wholeEvents_iff N batch.events
  constructor
  · intro hall
    refine ⟨htags.1 ?_, hkeys.1 ?_, hnames.1 ?_, hevents.1 ?_⟩
    · intro tag reason hfate
      exact (hwarnings _).1 (hall.droppedTags tag reason hfate)
    · intro tag htag
      have hlast := hall.tags tag (mem_kept_iff.1 htag)
      rwa [h.tags] at hlast
    · intro name reason hfate
      obtain ⟨metric, hmetric, rfl⟩ := mem_metricFates_name.2 hfate
      exact or_left_comm.1 ((hwarnings _).1 (hall.droppedMetrics metric _ hmetric))
    · exact h.events.symm.trans hall.events
  · intro hplain
    refine ⟨?_, ?_, h.metrics, ?_, h.events.trans (hevents.2 hplain.events), ?_⟩
    · intro tag hfate
      rw [h.tags]
      exact hkeys.2 hplain.keys tag (mem_kept_iff.2 hfate)
    · intro tag reason hfate
      exact (hwarnings _).2 (htags.2 hplain.tags tag reason hfate)
    · intro metric reason hfate
      cases reason with
      | name reason =>
          have hfate : (metric.name, some reason) ∈ batch.nameFates config :=
            mem_metricFates_name.1 ⟨metric, hfate, rfl⟩
          exact (hwarnings _).2 (or_left_comm.1 (hnames.2 hplain.metrics metric.name reason hfate))
      | nonFinite => exact (hwarnings _).2 (.inr (.inr (besides_nonFinite hfate)))
    · intro event reason hfate
      exact (hwarnings _).2 (.inr (.inr (besides_event hfate)))

end Contents

section Handler

variable {env : Env} {sent : Sent} {fault : Option String} {faults : Faults} {s s' : ServerState} {p : Pending}
  {answer : Ingested}

theorem receive_pending (h : receive env sent fault s = (.ok (.process p), s')) :
    ∃ run, s.db.findRun sent.request.runId = some run ∧ p.projectId = run.projectId ∧
      ∀ w ∈ p.warnings, initial w = some 'B' := by
  obtain ⟨run, s₁, hread, h⟩ := bind_eq_ok h
  obtain ⟨_, s₂, -, h⟩ := bind_eq_ok h
  obtain ⟨batch, s₃, -, h⟩ := bind_eq_ok h
  obtain ⟨result, s₄, -, h⟩ := bind_eq_ok h
  obtain ⟨db, hrun, -⟩ := zoom_eq_ok (mapError_eq_ok hread)
  have hadmitted : admission (prepare env sent run batch) result = .ok (.process p) := congrArg Prod.fst h
  refine ⟨run, (getRun_ok hrun).1, ?_⟩
  cases result with
  | new =>
      obtain rfl := Admission.process.inj (Except.ok.inj hadmitted)
      refine ⟨rfl, ?_⟩
      intro w hw
      cases hw
  | outOfOrder expectedSeq actualSeq =>
      obtain rfl := Admission.process.inj (Except.ok.inj hadmitted)
      refine ⟨rfl, ?_⟩
      intro w hw
      obtain rfl := List.mem_singleton.1 hw
      exact initial_append (initial_append (initial_append (initial_append rfl _) _) _) _
  | duplicate => cases hadmitted
  | conflict => cases hadmitted

theorem settle_prepared (h : settle env faults p s = (.ok answer, s')) : ∃ validation tracker,
    validateBatch env.limits p.projectId p.sent.request.runId p.batch.tags (p.batch.metrics.map MetricRow.name)
        s.cardinality = (.ok validation, tracker) ∧
      answer.contents = some (prepareContents env p validation) ∧
      answer.response.warnings = (prepareContents env p validation).warnings := by
  obtain ⟨validation, s₁, hvalidate, h⟩ := bind_eq_ok h
  obtain ⟨run, s₂, -, h⟩ := bind_eq_ok h
  obtain ⟨_, s₃, -, h⟩ := bind_eq_ok h
  obtain ⟨persisted, s₄, -, h⟩ := bind_eq_ok h
  obtain ⟨rfl, -⟩ := pure_eq_ok h
  obtain ⟨tracker, htracker, -⟩ := zoom_eq_ok (mapError_eq_ok hvalidate)
  exact ⟨validation, tracker, htracker, rfl, rfl⟩

/-- A request that is answered with success, and not as a duplicate, has all its items stored as they
were given or reported just when its batch is plain. -/
theorem ingest_accounted_iff
    (hok : httpIngestBatch (sanitizing env N) sent fault faults s = (.ok answer, s'))
    (hnew : answer.response.duplicate = false) :
    ∃ run batch contents, s.db.findRun sent.request.runId = some run ∧
      validateRequest env.limits.maxTagValueLength sent.request.toPayload = .ok batch ∧
      answer.contents = some contents ∧ Stored (sanitizing env N) sent contents s s' ∧
      (Accounted env.limits N (batchOf run.projectId sent batch s.cardinality) contents answer.response.warnings ↔
        Plain env.limits N (batchOf run.projectId sent batch s.cardinality)) := by
  obtain ⟨admitted, s₁, hreceive, h⟩ := bind_eq_ok hok
  have hreceive := mapError_eq_ok hreceive
  cases admitted with
  | duplicate =>
      obtain ⟨rfl, -⟩ := pure_eq_ok h
      cases hnew
  | process p =>
      obtain ⟨rfl, hbatch⟩ := StoredRows.receive_process hreceive
      obtain ⟨run, hrun, hproject, hbefore⟩ := receive_pending hreceive
      have hbesides := (StoredRows.leaves_receive (sanitizing env N) p.sent fault).shows s
      rw [hreceive] at hbesides
      obtain ⟨hdb, hbesides⟩ := Prod.mk.inj hbesides
      obtain ⟨hstream, htracker⟩ := Prod.mk.inj hbesides
      obtain ⟨validation, tracker, hvalidate, hcontents, hwarnings⟩ := settle_prepared h
      obtain ⟨contents, hsame, -, -, hstored⟩ := settle_ok h
      obtain rfl := Option.some.inj (hcontents.symm.trans hsame)
      refine ⟨run, p.batch, _, hrun, hbatch, hcontents, ?_, ?_⟩
      · rw [Stored] at hstored ⊢
        rwa [hdb, hstream] at hstored
      · rw [hwarnings, ← hproject, ← htracker]
        exact accounted_iff (prepared hbefore (validated hvalidate))

end Handler

theorem exists_answer {env : Env} {sent : Sent} {s : ServerState} {warnings : List String}
    (h : (httpIngestBatch env sent none {} s).1.toOption.map (fun a =>
      (a.response.duplicate, a.response.warnings, a.contents.isSome)) =
      some (false, warnings, true)) :
    ∃ answer s' contents, httpIngestBatch env sent none {} s = (.ok answer, s') ∧
      answer.response.duplicate = false ∧ answer.response.warnings = warnings ∧
        answer.contents = some contents := by
  obtain ⟨answer, hanswer, heq⟩ := Option.map_eq_some_iff.1 h
  obtain ⟨hduplicate, hrest⟩ := Prod.mk.inj heq
  obtain ⟨hwarnings, hsome⟩ := Prod.mk.inj hrest
  obtain ⟨contents, hcontents⟩ := Option.isSome_iff_exists.mp hsome
  exact ⟨answer, _, contents, Prod.ext (Fallible.toOption_eq_some hanswer) rfl, hduplicate, hwarnings, hcontents⟩

theorem saved_accounted_iff : ∃ answer s',
    httpIngestBatch (sanitizing RetrySafety.devServer literalNumbers) (logging "saved") none {} start =
        (.ok answer, s') ∧
      ∃ run batch contents, start.db.findRun "r" = some run ∧
        validateRequest 1024 (logging "saved").request.toPayload = .ok batch ∧ answer.contents = some contents ∧
        Stored (sanitizing RetrySafety.devServer literalNumbers) (logging "saved") contents start s' ∧
        (Accounted {} literalNumbers (batchOf run.projectId (logging "saved") batch .empty) contents
            answer.response.warnings ↔
          Plain {} literalNumbers (batchOf run.projectId (logging "saved") batch .empty)) := by
  have hrun : (httpIngestBatch (sanitizing RetrySafety.devServer literalNumbers) (logging "saved") none {}
      start).1.toOption.map
      (fun a => (a.response.duplicate, a.response.warnings, a.contents.isSome)) = some (false, [], true) := by
    decide +kernel
  obtain ⟨answer, s', -, hok, hnew, -⟩ := exists_answer hrun
  exact ⟨answer, s', hok, ingest_accounted_iff hok hnew⟩

/-- A server whose runs have one tag key, and whose projects one tag. -/
def narrowServer : Env :=
  { RetrySafety.devServer with limits := { maxTagKeysPerRun := 1, maxTagsPerProject := 1 } }

def threeTags : Sent :=
  { RetrySafety.lossBatch with
    request := { RetrySafety.lossBatch.request with
      metrics := [], tags := [⟨"a", "1"⟩, ⟨"a", "2"⟩, ⟨"b", "1"⟩] } }

def threeTagsValidated : ValidatedBatch := ⟨[], [("tags.a", "1"), ("tags.a", "2"), ("tags.b", "1")], []⟩

theorem full_run_untold :
    validateRequest narrowServer.limits.maxTagValueLength threeTags.request.toPayload = .ok threeTagsValidated ∧
      ∃ answer s' contents, httpIngestBatch (sanitizing narrowServer literalNumbers) threeTags none {} start =
          (.ok answer, s') ∧
        answer.response.duplicate = false ∧ answer.contents = some contents ∧
        ¬ Accounted narrowServer.limits literalNumbers (batchOf "p" threeTags threeTagsValidated start.cardinality)
          contents answer.response.warnings := by
  have hrun : (httpIngestBatch (sanitizing narrowServer literalNumbers) threeTags none {} start).1.toOption.map
      (fun a => (a.response.duplicate, a.response.warnings, a.contents.isSome)) =
        some (false, ["Project p has reached max tags (1)"], true) := by decide +kernel
  obtain ⟨answer, s', contents, hok, hnew, hwarnings, hcontents⟩ := exists_answer hrun
  refine ⟨by decide +kernel, answer, s', contents, hok, hnew, hcontents, fun h => ?_⟩
  have htold := h.droppedTags ("tags.b", "1") .runFull (by decide +kernel)
  rw [hwarnings] at htold
  exact absurd htold (by decide +kernel)

end MLRunX.SilentDrops
