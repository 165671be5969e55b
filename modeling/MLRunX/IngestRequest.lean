import MLRunX.Fallible
import MLRunX.Http
import MLRunX.MetadataKey
import MLRunX.PayloadHash
import MLRunX.RunTables

namespace MLRunX.IngestRequest

open Http MetadataKey PayloadHash RunTables Text

inductive MetricValue
  | scalar (value : F64)
  | array (values : List F64)
  deriving DecidableEq, Repr

structure MetricData where
  name : String
  value : MetricValue
  step : Int64
  timestamp : Option F64
  deriving DecidableEq, Repr

structure ParamData where
  name : String
  value : String
  deriving DecidableEq, Repr

structure TagData where
  key : String
  value : String
  deriving DecidableEq, Repr

structure LogEventData where
  level : Option String
  source : Option String
  message : String
  step : Option Int64
  timestamp : Option F64
  deriving DecidableEq, Repr

/-- What a client asks to be stored. -/
structure Payload where
  metrics : List MetricData := []
  params : List ParamData := []
  tags : List TagData := []
  events : List LogEventData := []
  deriving DecidableEq, Repr

structure IngestBatchHttpRequest extends Payload where
  runId : String
  batchId : Option String
  seq : Option Int
  deriving DecidableEq, Repr

structure IngestBatchHttpResponse where
  status : String
  accepted : Int
  duplicate : Bool
  warnings : List String
  deriving DecidableEq, Repr

def metricArrayMaxLen : Nat := 1024

def runEventMaxLen : Nat := 16000

def badRequest (message : String) : HttpError := ⟨.badRequest, message⟩

def validateParam (param : ParamData) : Answer (String × String) :=
  match canonicalizeMetadataKey param.name "parameters" with
  | .error err => .error (badRequest s!"Invalid param key '{param.name}': {err}")
  | .ok name => match validateParamValue param.value with
    | .error err => .error (badRequest s!"Invalid param value for '{param.name}': {err}")
    | .ok () => .ok (name, param.value)

def validateTag (maxTagValueLen : Nat) (tag : TagData) : Answer (String × String) :=
  match canonicalizeMetadataKey tag.key "tags" with
  | .error err => .error (badRequest s!"Invalid tag key '{tag.key}': {err}")
  | .ok key => match validateTagValue tag.value maxTagValueLen with
    | .error err => .error (badRequest s!"Invalid tag value for '{tag.key}': {err}")
    | .ok () => .ok (key, tag.value)

abbrev ExpandedMetricData := MetricRow

/-- An array is one metric for each of its values. -/
def expandMetric (metric : MetricData) : Answer (List ExpandedMetricData) :=
  let baseName := trim metric.name
  if baseName = "" then
    .error (badRequest "metric name cannot be empty")
  else match metric.value with
    | .scalar value => .ok [⟨baseName, metric.step, value, metric.timestamp⟩]
    | .array values =>
        if metricArrayMaxLen < values.length then
          .error (badRequest s!"metric array '{baseName}' exceeds max length {metricArrayMaxLen}")
        else
          .ok (values.zipIdx.map (fun v => ⟨s!"{baseName}[{v.2}]", metric.step, v.1, metric.timestamp⟩))

structure ValidatedBatch where
  params : List (String × String)
  tags : List (String × String)
  metrics : List ExpandedMetricData
  deriving DecidableEq, Repr

def validateRequest (maxTagValueLen : Nat) (payload : Payload) : Answer ValidatedBatch := do
  let params ← payload.params.mapM validateParam
  let tags ← payload.tags.mapM (validateTag maxTagValueLen)
  let metrics ← payload.metrics.mapM expandMetric
  pure ⟨params, tags, metrics.flatten⟩

/-- A text that is given and not blank, trimmed. -/
def present (raw : Option String) : Option String := (raw.map trim).filter (fun value => value ≠ "")

def normalizeRunEventLevel (raw : Option String) : String :=
  let level := toAsciiLowercase ((present raw).getD "info")
  if level = "debug" then "debug"
  else if level = "warn" ∨ level = "warning" then "warn"
  else if level = "error" then "error"
  else "info"

def normalizeRunEventSource (raw : Option String) : String :=
  let normalized := (present raw).getD "sdk"
  if byteLength normalized ≤ 64 then normalized else String.ofList (normalized.toList.take 64)

def sanitizeRunEventMessage (raw : String) : Option String :=
  let trimmed := trim raw
  if trimmed = "" then none
  else if byteLength trimmed ≤ runEventMaxLen then some trimmed
  else some (String.ofList (trimmed.toList.take runEventMaxLen))

def eventPayload (event : LogEventData) : EventPayload where
  level := normalizeRunEventLevel event.level
  source := normalizeRunEventSource event.source
  message := event.message
  step := event.step
  timestamp := event.timestamp

/-- The hash a payload is recorded under. Metrics enter it without their
timestamps. -/
def hashBatch (sha256 : List UInt8 → List UInt8) (batch : ValidatedBatch) (events : List LogEventData) : String :=
  computePayloadHash sha256 (batch.metrics.map (fun m => ⟨m.name, m.value, m.step⟩))
    (batch.params.map (fun p => ⟨p.1, p.2⟩)) (batch.tags.map (fun t => ⟨t.1, t.2⟩)) (events.map eventPayload)

def payloadHash (sha256 : List UInt8 → List UInt8) (maxTagValueLen : Nat) (payload : Payload) : Option String :=
  (validateRequest maxTagValueLen payload).toOption.map (fun batch => hashBatch sha256 batch payload.events)

/-- An event to store, or the warning about it when one is given. -/
def sanitizeEvent (sanitizeStructured : String → Except String (Option String)) (event : LogEventData) :
    Except (Option String) RunEventInput :=
  match sanitizeRunEventMessage event.message with
  | none => .error none
  | some message =>
      if event.timestamp.any (fun timestamp => !F64.isFinite timestamp) then
        .error none
      else match sanitizeStructured message with
        | .error err => .error (some s!"Dropped unsafe structured event: {err}")
        | .ok sanitized => .ok {
            level := normalizeRunEventLevel event.level
            source := normalizeRunEventSource event.source
            message := sanitized.getD message
            step := event.step
            timestamp := event.timestamp }

def isFiniteMetric (metric : ExpandedMetricData) : Bool :=
  F64.isFinite metric.value && metric.timestamp.all F64.isFinite

theorem validateTag_ascii {maxTagValueLen : Nat} {tag : TagData} {validated : String × String}
    (h : validateTag maxTagValueLen tag = .ok validated) : ∀ c ∈ validated.1.toList, c.utf8Size = 1 := by
  simp only [validateTag] at h
  split at h
  · cases h
  · rename_i key hkey
    split at h
    · cases h
    · obtain rfl := Except.ok.inj h
      exact canonicalizeMetadataKey_utf8Size hkey

theorem validateRequest_tags_ascii {maxTagValueLen : Nat} {payload : Payload} {batch : ValidatedBatch}
    (h : validateRequest maxTagValueLen payload = .ok batch) :
    ∀ tag ∈ batch.tags, ∀ c ∈ tag.1.toList, c.utf8Size = 1 := by
  obtain ⟨params, -, h⟩ := Fallible.bind_eq_ok.mp h
  obtain ⟨tags, htags, h⟩ := Fallible.bind_eq_ok.mp h
  obtain ⟨metrics, -, h⟩ := Fallible.bind_eq_ok.mp h
  obtain rfl := Except.ok.inj h
  intro tag htag
  obtain ⟨raw, -, hraw⟩ := Fallible.exists_of_mapM htags tag htag
  exact validateTag_ascii hraw

end MLRunX.IngestRequest
