import MLRunX.Auth
import MLRunX.Cardinality
import MLRunX.Idempotency
import MLRunX.IngestRequest

namespace MLRunX.Ingest

open Auth Cardinality Commands Http Idempotency IngestRequest PayloadHash RunTables Sqlite Statements

structure QueuedIngestBatch where
  projectId : String
  runId : String
  batchId : String
  payloadHash : String
  seq : Int
  queuedAtUnixMs : Int
  metrics : List MetricRow
  params : List (String × String)
  tags : List (String × String)
  events : List RunEventInput
  warnings : List String
  deriving DecidableEq, Repr

structure ServerState where
  db : Database
  idempotency : IdempotencyStore
  cardinality : CardinalityTracker
  stream : List QueuedIngestBatch

/-- The configuration of a server, and the functions of other modules and
libraries that nothing here depends on. -/
structure Env where
  scopeFlags : EndpointRbacTier → Bool
  limits : LimitsConfig
  queued : Bool
  sha256 : List UInt8 → List UInt8
  sanitizeStructured : String → Except String (Option String)

/-- A request with what the environment adds to it: the caller, the id that is
generated when the request names no batch, the answer of the rate limiter and
the time. -/
structure Sent where
  auth : AuthContext
  request : IngestBatchHttpRequest
  generatedId : String
  retryAfter : Option Nat
  receivedAt : Nat

def Sent.batchId (sent : Sent) : String := sent.request.batchId.getD sent.generatedId

def Sent.key (sent : Sent) : String × String := (sent.request.runId, sent.batchId)

/-- A request between its entry into the idempotency store and its answer. -/
structure Pending where
  sent : Sent
  projectId : String
  payloadHash : String
  batch : ValidatedBatch
  warnings : List String

/-- What a request adds to the tables or the stream. -/
structure Contents where
  metrics : List MetricRow
  params : List (String × String)
  tags : List (String × String)
  events : List RunEventInput
  warnings : List String
  deriving DecidableEq, Repr

structure PersistedIngestBatch where
  acceptedMetricCount : Nat
  acceptedTagCount : Nat
  acceptedEventCount : Nat
  deriving DecidableEq, Repr

/-- A response with the contents it counts, none for a duplicate. -/
structure Ingested where
  response : IngestBatchHttpResponse
  contents : Option Contents
  deriving DecidableEq, Repr

inductive Admission
  | duplicate
  | process (pending : Pending)

inductive Failure
  | http (error : HttpError)
  | panic
  deriving DecidableEq, Repr

structure PersistFaults where
  metrics : Nat → Option String := fun _ => none
  metricsCount : Option String := none
  tags : Nat → Option String := fun _ => none
  params : Nat → Option String := fun _ => none
  events : Nat → Option String := fun _ => none
  warnings : Nat → Option String := fun _ => none

/-- An append that fails may have reached the stream. -/
structure EnqueueFault where
  text : String
  delivered : Bool
  deriving DecidableEq, Repr

structure Faults where
  getRun : Option String := none
  enqueue : Option EnqueueFault := none
  persist : PersistFaults := {}
  queuedAt : Int := 0

def saturate (bound n : Nat) : Nat := min n bound

theorem saturate_eq_zero {bound n : Nat} (hbound : 0 < bound) : saturate bound n = 0 ↔ n = 0 := by
  rw [saturate]
  omega

def onDb {ε α : Type} (x : Command Database ε α) : Command ServerState ε α :=
  zoom ServerState.db (fun db s => { s with db }) x

def onTracker {ε α : Type} (x : Command CardinalityTracker ε α) : Command ServerState ε α :=
  zoom ServerState.cardinality (fun cardinality s => { s with cardinality }) x

def onStream {ε α : Type} (x : Command (List QueuedIngestBatch) ε α) : Command ServerState ε α :=
  zoom ServerState.stream (fun stream s => { s with stream }) x

def runError : SqliteError → HttpError
  | .notFound what => ⟨.notFound, what⟩
  | .database _ => internalError

def requireUiRunOwner (auth : AuthContext) (run : RunRow) : Answer Unit :=
  if auth.isDevMode || auth.isPlatformAdmin || !auth.isUiJwt then .ok ()
  else match authUserId auth with
    | none => .error ⟨.forbidden, "Unable to resolve user identity for run authorization."⟩
    | some userId =>
        if run.createdByUserId.any (fun owner => owner ≠ userId) then
          .error ⟨.forbidden, "Access denied: this user cannot access that run."⟩
        else
          .ok ()

def requireApiKeyRunOwnerForMutation (auth : AuthContext) (run : RunRow) (action : String) : Answer Unit :=
  if auth.isDevMode || auth.isUiJwt || (auth.requireScope "admin").isOk then .ok ()
  else if run.createdByKeyId.any (fun owner => owner ≠ auth.apiKey.id) then
    .error ⟨.forbidden, s!"Access denied: this API key can only {action} runs it created."⟩
  else
    .ok ()

def checkRateLimit : Option Nat → Answer Unit
  | some retryAfter => .error ⟨.tooManyRequests, s!"Rate limit exceeded. Retry after {retryAfter}s."⟩
  | none => .ok ()

variable (env : Env)

def authorizeIngest (sent : Sent) (run : RunRow) : Answer Unit := do
  requireEndpointAccess sent.auth env.scopeFlags .write (some run.projectId)
  requireUiRunOwner sent.auth run
  requireApiKeyRunOwnerForMutation sent.auth run "ingest to"
  checkRateLimit sent.retryAfter

def readRun (fault : Option String) (runId : String) : Command ServerState HttpError RunRow :=
  mapError runError (onDb (getRun fault runId))

def Pending.record (p : Pending) : BatchRecord where
  projectId := p.projectId
  runId := p.sent.request.runId
  batchId := p.sent.batchId
  seq := p.sent.request.seq.getD 0
  payloadHash := p.payloadHash
  metricCount := saturate (2 ^ 31 - 1) p.batch.metrics.length
  paramCount := saturate (2 ^ 31 - 1) p.batch.params.length
  tagCount := saturate (2 ^ 31 - 1) p.batch.tags.length
  eventCount := saturate (2 ^ 31 - 1) p.sent.request.events.length
  createdAt := p.sent.receivedAt

def prepare (sent : Sent) (run : RunRow) (batch : ValidatedBatch) : Pending where
  sent := sent
  projectId := run.projectId
  payloadHash := hashBatch env.sha256 batch sent.request.events
  batch := batch
  warnings := []

def checkBatch (p : Pending) : Command ServerState HttpError IdempotencyResult := fun s =>
  (.ok (checkAndRecord p.record s.idempotency).1,
    { s with idempotency := (checkAndRecord p.record s.idempotency).2 })

def admission (p : Pending) : IdempotencyResult → Answer Admission
  | .duplicate => .ok .duplicate
  | .conflict expectedHash actualHash => .error ⟨.conflict,
      s!"Batch {p.sent.batchId} conflicts with existing batch (expected hash {expectedHash}, got {actualHash})"⟩
  | .outOfOrder expectedSeq actualSeq => .ok (.process { p with
      warnings := [s!"Batch received out of order (expected seq >= {expectedSeq}, got {actualSeq})"] })
  | .new => .ok (.process p)

/-- The handler up to the idempotency check, which records the batch. -/
def receive (sent : Sent) (fault : Option String) : Command ServerState HttpError Admission := do
  let run ← readRun fault sent.request.runId
  ofExcept (authorizeIngest env sent run)
  let batch ← ofExcept (validateRequest env.limits.maxTagValueLength sent.request.toPayload)
  let p := prepare env sent run batch
  let result ← checkBatch p
  ofExcept (admission p result)

def requireRunning (run : RunRow) (runId : String) : Answer Unit :=
  if Text.eqIgnoreAsciiCase run.status "running" then .ok ()
  else .error ⟨.preconditionFailed, s!"Run {runId} is not running"⟩

def eventWarning : Except (Option String) RunEventInput → Option String
  | .ok _ => none
  | .error warning => warning

def prepareContents (p : Pending) (validation : ValidationResult) : Contents :=
  let candidates := p.batch.metrics.filter (fun m => validation.acceptedMetrics.contains m.name)
  let nonFinite := candidates.countP (fun m => !isFiniteMetric m)
  let sanitized := p.sent.request.events.map (sanitizeEvent env.sanitizeStructured)
  let dropped := sanitized.countP (fun event => !event.isOk)
  { metrics := candidates.filter isFiniteMetric
    params := p.batch.params
    tags := validation.acceptedTags
    events := sanitized.filterMap Except.toOption
    warnings := p.warnings ++ validation.warnings ++
      (if 0 < nonFinite then [s!"Dropped {nonFinite} metrics with non-finite values/timestamps"] else []) ++
      sanitized.filterMap eventWarning ++
      (if 0 < dropped then [s!"Dropped {dropped} events with empty messages or non-finite timestamps"] else []) }

def warningEvent (warning : String) : RunEventInput := ⟨"warn", "ingest", warning, none, none⟩

def persistFailed (what : String) (e : SqliteError) : HttpError :=
  ⟨.internalServerError, s!"Failed to {what} SQLite: {e.message}"⟩

section

variable (faults : PersistFaults) (runId : String)

def persistMetrics (metrics : List MetricRow) : Command Database HttpError Unit :=
  if metrics = [] then pure () else do
    let _ ← mapError (persistFailed "persist metrics to") (insertMetrics faults.metrics runId metrics)
    mapError (persistFailed "update metrics count in")
      (incrementMetricsCount faults.metricsCount runId (saturate (2 ^ 63 - 1) metrics.length))

def persistTags (tags : List (String × String)) : Command Database HttpError Unit :=
  if tags = [] then pure ()
  else mapError (persistFailed "persist tags to") (setTags faults.tags runId tags)

def persistParams (params : List (String × String)) : Command Database HttpError Unit :=
  if params = [] then pure () else do
    let _ ← mapError (persistFailed "persist params to") (insertParams faults.params runId params)
    pure ()

def persistEvents (events : List RunEventInput) : Command Database HttpError Nat :=
  if events = [] then pure 0
  else mapError (persistFailed "persist run events to") (insertRunEvents faults.events runId events)

def persistWarnings (warnings : List String) : Command Database HttpError Nat :=
  if warnings = [] then pure 0 else do
    let inserted ← attempt (insertRunEvents faults.warnings runId (warnings.map warningEvent))
    pure (inserted.getD 0)

def persistIngestBatchToSqlite (contents : Contents) : Command Database HttpError PersistedIngestBatch := do
  persistMetrics faults runId contents.metrics
  persistTags faults runId contents.tags
  persistParams faults runId contents.params
  let acceptedEventCount ← persistEvents faults runId contents.events
  let warningCount ← persistWarnings faults runId contents.warnings
  pure ⟨contents.metrics.length, contents.tags.length, acceptedEventCount + warningCount⟩

end

def buildQueuedIngestBatch (p : Pending) (contents : Contents) (queuedAt : Int) : QueuedIngestBatch where
  projectId := p.projectId
  runId := p.sent.request.runId
  batchId := p.sent.batchId
  payloadHash := p.payloadHash
  seq := p.sent.request.seq.getD 0
  queuedAtUnixMs := queuedAt
  metrics := contents.metrics
  params := contents.params
  tags := contents.tags
  events := contents.events
  warnings := contents.warnings

def enqueue (fault : Option EnqueueFault) (batch : QueuedIngestBatch) :
    Command (List QueuedIngestBatch) String Unit := fun stream =>
  match fault with
  | none => (.ok (), stream ++ [batch])
  | some fault => (.error fault.text, if fault.delivered then stream ++ [batch] else stream)

def deliver (faults : Faults) (p : Pending) (contents : Contents) :
    Command ServerState HttpError PersistedIngestBatch :=
  if env.queued then do
    mapError (fun e => ⟨.serviceUnavailable, s!"Failed to enqueue ingest batch: {e}"⟩)
      (onStream (enqueue faults.enqueue (buildQueuedIngestBatch p contents faults.queuedAt)))
    pure ⟨contents.metrics.length, contents.tags.length, contents.events.length + contents.warnings.length⟩
  else
    onDb (persistIngestBatchToSqlite faults.persist p.sent.request.runId contents)

def ingested (contents : Contents) (persisted : PersistedIngestBatch) : Ingested where
  response :=
    { status := "ok"
      accepted := saturate (2 ^ 63 - 1) (persisted.acceptedMetricCount + contents.params.length +
        persisted.acceptedTagCount + persisted.acceptedEventCount)
      duplicate := false
      warnings := contents.warnings }
  contents := some contents

def duplicateAnswer : Ingested := ⟨⟨"ok", 0, true, []⟩, none⟩

def settle (faults : Faults) (p : Pending) : Command ServerState Failure Ingested := do
  let validation ← mapError (fun _ => Failure.panic) (onTracker (validateBatch env.limits p.projectId
    p.sent.request.runId p.batch.tags (p.batch.metrics.map MetricRow.name)))
  let run ← mapError Failure.http (readRun faults.getRun p.sent.request.runId)
  mapError Failure.http (ofExcept (requireRunning run p.sent.request.runId))
  let contents := prepareContents env p validation
  let persisted ← mapError Failure.http (deliver env faults p contents)
  pure (ingested contents persisted)

def httpIngestBatch (sent : Sent) (fault : Option String) (faults : Faults) : Command ServerState Failure Ingested := do
  let admitted ← mapError Failure.http (receive env sent fault)
  match admitted with
  | .duplicate => pure duplicateAnswer
  | .process p => settle env faults p

def Database.ingestMetrics (runId : String) (metrics : List MetricRow) (db : Database) : Database :=
  if metrics = [] then db
  else (db.addMetrics runId metrics).countMetrics runId (saturate (2 ^ 63 - 1) metrics.length)

def Database.ingestParams (runId : String) (params : List (String × String)) (db : Database) : Database :=
  if params = [] then db else (db.setParams runId params).countParams runId

def Database.ingest (runId : String) (contents : Contents) (db : Database) : Database :=
  (ingestParams runId contents.params
    ((ingestMetrics runId contents.metrics db).setTags runId contents.tags)).addEvents runId contents.events

section

variable {faults : PersistFaults} {runId : String} {db db' : Database}

theorem persistMetrics_ok {metrics : List MetricRow} {u : Unit}
    (h : persistMetrics faults runId metrics db = (.ok u, db')) :
    db' = Database.ingestMetrics runId metrics db := by
  simp only [persistMetrics, Database.ingestMetrics] at h ⊢
  split
  · rename_i hnil
    rw [if_pos hnil] at h
    exact (pure_eq_ok h).2
  · rename_i hnil
    rw [if_neg hnil] at h
    obtain ⟨n, db₁, hrows, hcount⟩ := bind_eq_ok h
    obtain ⟨-, rfl⟩ := insertMetrics_ok (mapError_eq_ok hrows)
    exact incrementMetricsCount_ok (mapError_eq_ok hcount)

theorem persistTags_ok {tags : List (String × String)} {u : Unit}
    (h : persistTags faults runId tags db = (.ok u, db')) : db' = db.setTags runId tags := by
  simp only [persistTags] at h
  split at h
  · rename_i hnil
    rw [hnil]
    exact (pure_eq_ok h).2
  · exact setTags_ok (mapError_eq_ok h)

theorem persistParams_ok {params : List (String × String)} {u : Unit}
    (h : persistParams faults runId params db = (.ok u, db')) : db' = Database.ingestParams runId params db := by
  simp only [persistParams, Database.ingestParams] at h ⊢
  split
  · rename_i hnil
    rw [if_pos hnil] at h
    exact (pure_eq_ok h).2
  · rename_i hnil
    rw [if_neg hnil] at h
    obtain ⟨n, db₁, hrows, hlast⟩ := bind_eq_ok h
    obtain ⟨-, rfl⟩ := insertParams_ok (mapError_eq_ok hrows)
    exact (pure_eq_ok hlast).2

theorem persistEvents_ok {events : List RunEventInput} {n : Nat}
    (h : persistEvents faults runId events db = (.ok n, db')) : db' = db.addEvents runId events := by
  simp only [persistEvents] at h
  split at h
  · rename_i hnil
    rw [hnil, (pure_eq_ok h).2]
    simp [Database.addEvents]
  · exact (insertRunEvents_ok (mapError_eq_ok h)).2

theorem persistWarnings_ok {warnings : List String} {n : Nat}
    (h : persistWarnings faults runId warnings db = (.ok n, db')) :
    ∃ k, db' = db.addEvents runId ((warnings.map warningEvent).take k) := by
  simp only [persistWarnings] at h
  split at h
  · refine ⟨0, ?_⟩
    rw [(pure_eq_ok h).2]
    simp [Database.addEvents]
  · obtain ⟨inserted, db₁, hrows, hlast⟩ := bind_eq_ok h
    obtain ⟨k, hk⟩ := insertRunEvents_prefix faults.warnings runId (warnings.map warningEvent) db
    refine ⟨k, ?_⟩
    rw [← hk, (pure_eq_ok hlast).2]
    exact (congrArg Prod.snd hrows).symm

theorem persistIngestBatchToSqlite_ok {contents : Contents} {persisted : PersistedIngestBatch}
    (h : persistIngestBatchToSqlite faults runId contents db = (.ok persisted, db')) :
    ∃ k, db' = (Database.ingest runId contents db).addEvents runId ((contents.warnings.map warningEvent).take k) := by
  obtain ⟨_, db₁, hmetrics, h⟩ := bind_eq_ok h
  obtain ⟨_, db₂, htags, h⟩ := bind_eq_ok h
  obtain ⟨_, db₃, hparams, h⟩ := bind_eq_ok h
  obtain ⟨_, db₄, hevents, h⟩ := bind_eq_ok h
  obtain ⟨_, db₅, hwarnings, h⟩ := bind_eq_ok h
  obtain ⟨k, hk⟩ := persistWarnings_ok hwarnings
  refine ⟨k, ?_⟩
  rw [(pure_eq_ok h).2, hk, persistEvents_ok hevents, persistParams_ok hparams, persistTags_ok htags,
    persistMetrics_ok hmetrics]
  rfl

end

/-- No statement that a request depends on is refused. -/
structure PersistFaults.Absent (faults : PersistFaults) : Prop where
  metrics : faults.metrics = fun _ => none
  metricsCount : faults.metricsCount = none
  tags : faults.tags = fun _ => none
  params : faults.params = fun _ => none
  events : faults.events = fun _ => none

theorem completes_persist {faults : PersistFaults} (h : faults.Absent) (runId : String) (contents : Contents) :
    Completes (persistIngestBatchToSqlite faults runId contents) := by
  obtain ⟨hmetrics, hcount, htags, hparams, hevents⟩ := h
  refine completes_bind ?_ (fun _ => completes_bind ?_ (fun _ => completes_bind ?_ (fun _ => completes_bind ?_
    (fun _ => completes_bind ?_ (fun _ => completes_pure _)))))
  · rw [persistMetrics, hmetrics, hcount]
    split
    · exact completes_pure ()
    · exact completes_bind (completes_mapError (completes_insertMetrics runId (fun _ _ => rfl)))
        (fun _ => completes_mapError (completes_execute _))
  · rw [persistTags, htags]
    split
    · exact completes_pure ()
    · exact completes_mapError (completes_executeEach _ (fun _ _ => rfl))
  · rw [persistParams, hparams]
    split
    · exact completes_pure ()
    · exact completes_bind (completes_mapError (completes_insertParams runId (fun _ _ => rfl)))
        (fun _ => completes_pure ())
  · rw [persistEvents, hevents]
    split
    · exact completes_pure 0
    · exact completes_mapError (completes_insertRunEvents runId (fun _ _ => rfl))
  · rw [persistWarnings]
    split
    · exact completes_pure 0
    · exact completes_bind (completes_attempt _) (fun _ => completes_pure _)

/-- The contents of a request have reached the stream or the tables. -/
def Stored (p : Sent) (contents : Contents) (before after : ServerState) : Prop :=
  if env.queued then
    ∃ batch : QueuedIngestBatch, after.stream = before.stream ++ [batch] ∧ batch.runId = p.request.runId ∧
      batch.batchId = p.batchId ∧ batch.metrics = contents.metrics ∧ batch.params = contents.params ∧
      batch.tags = contents.tags ∧ batch.events = contents.events ∧ batch.warnings = contents.warnings
  else
    ∃ k, after.db = (Database.ingest p.request.runId contents before.db).addEvents p.request.runId
      ((contents.warnings.map warningEvent).take k)

variable {env}

theorem deliver_ok {faults : Faults} {p : Pending} {contents : Contents} {persisted : PersistedIngestBatch}
    {s s' : ServerState} (h : deliver env faults p contents s = (.ok persisted, s')) :
    Stored env p.sent contents s s' := by
  simp only [deliver, Stored] at h ⊢
  split at h
  · rename_i hqueued
    rw [if_pos hqueued]
    obtain ⟨_, s₁, henqueue, hlast⟩ := bind_eq_ok h
    obtain ⟨-, rfl⟩ := pure_eq_ok hlast
    obtain ⟨stream, hstream, rfl⟩ := zoom_eq_ok (mapError_eq_ok henqueue)
    refine ⟨buildQueuedIngestBatch p contents faults.queuedAt, ?_, rfl, rfl, rfl, rfl, rfl, rfl, rfl⟩
    simp only [enqueue] at hstream
    split at hstream
    · exact (congrArg Prod.snd hstream).symm
    · cases hstream
  · rename_i hqueued
    rw [if_neg hqueued]
    obtain ⟨db, hdb, rfl⟩ := zoom_eq_ok h
    exact persistIngestBatchToSqlite_ok hdb

theorem settle_ok {faults : Faults} {p : Pending} {i : Ingested} {s s' : ServerState}
    (h : settle env faults p s = (.ok i, s')) :
    ∃ contents, i.contents = some contents ∧ i.response.status = "ok" ∧ i.response.duplicate = false ∧
      Stored env p.sent contents s s' := by
  obtain ⟨validation, s₁, hvalidate, h⟩ := bind_eq_ok h
  obtain ⟨run, s₂, hrun, h⟩ := bind_eq_ok h
  obtain ⟨_, s₃, hrunning, h⟩ := bind_eq_ok h
  obtain ⟨persisted, s₄, hdeliver, h⟩ := bind_eq_ok h
  obtain ⟨rfl, rfl⟩ := pure_eq_ok h
  refine ⟨prepareContents env p validation, rfl, rfl, rfl, ?_⟩
  have hstored := deliver_ok (mapError_eq_ok hdeliver)
  have h₃ : s₃ = s₂ := (congrArg Prod.snd hrunning).symm
  obtain ⟨db, hdb, h₂⟩ := zoom_eq_ok (mapError_eq_ok (mapError_eq_ok hrun))
  obtain ⟨-, rfl⟩ := getRun_ok hdb
  obtain ⟨tracker, -, h₁⟩ := zoom_eq_ok (mapError_eq_ok hvalidate)
  simp only [h₃, h₂, h₁] at hstored
  exact hstored

/-- What lets the second part of the handler through. -/
structure Settles (env : Env) (faults : Faults) (p : Pending) (s : ServerState) : Prop where
  running : ∃ run, s.db.findRun p.sent.request.runId = some run ∧
    Text.eqIgnoreAsciiCase run.status "running" = true
  getRun : faults.getRun = none
  enqueue : env.queued = true → faults.enqueue = none
  persist : env.queued = false → faults.persist.Absent
  names : ∀ metric ∈ p.batch.metrics, Quotable env.limits.maxMetricNameLength metric.name

theorem completes_deliver {faults : Faults} {p : Pending} (contents : Contents)
    (henqueue : env.queued = true → faults.enqueue = none)
    (hpersist : env.queued = false → faults.persist.Absent) :
    Completes (deliver env faults p contents) := by
  simp only [deliver]
  split
  · rename_i hqueued
    refine completes_bind (completes_mapError (completes_zoom ⟨fun stream _ => ?_⟩)) (fun _ => completes_pure _)
    simp only [enqueue, henqueue hqueued]
    trivial
  · rename_i hqueued
    exact completes_zoom (completes_persist (hpersist (by simpa using hqueued)) _ contents)

theorem settle_validated {faults : Faults} {p : Pending} {s : ServerState} {run : RunRow}
    {validation : ValidationResult} {tracker : CardinalityTracker}
    (hvalidate : validateBatch env.limits p.projectId p.sent.request.runId p.batch.tags
      (p.batch.metrics.map MetricRow.name) s.cardinality = (.ok validation, tracker))
    (hrun : s.db.findRun p.sent.request.runId = some run)
    (hstatus : Text.eqIgnoreAsciiCase run.status "running" = true)
    (hgetRun : faults.getRun = none) (henqueue : env.queued = true → faults.enqueue = none)
    (hpersist : env.queued = false → faults.persist.Absent) : ∃ i s', settle env faults p s = (.ok i, s') := by
  have hvalid : onTracker (validateBatch env.limits p.projectId p.sent.request.runId p.batch.tags
      (p.batch.metrics.map MetricRow.name)) s = (.ok validation, { s with cardinality := tracker }) := by
    rw [onTracker, zoom, hvalidate]
  have hread : readRun faults.getRun p.sent.request.runId { s with cardinality := tracker } =
      (.ok run, { s with cardinality := tracker }) := by
    simp only [readRun, onDb, mapError, zoom, hgetRun, getRun_found hrun]
    rfl
  obtain ⟨persisted, s₂, hdeliver⟩ := (completes_deliver (p := p) (prepareContents env p validation) henqueue
    hpersist).exists_ok { s with cardinality := tracker }
  refine ⟨ingested (prepareContents env p validation) persisted, s₂, ?_⟩
  rw [settle, bind_ok (mapError_ok hvalid), bind_ok (mapError_ok hread), bind_ok (mapError_ok ?_),
    bind_ok (mapError_ok hdeliver)]
  · rfl
  · exact ()
  · rw [requireRunning, if_pos hstatus]
    rfl

theorem settle_completes {faults : Faults} {p : Pending} {s : ServerState}
    (hbatch : validateRequest env.limits.maxTagValueLength p.sent.request.toPayload = .ok p.batch)
    (h : Settles env faults p s) : ∃ i s', settle env faults p s = (.ok i, s') := by
  obtain ⟨⟨run, hrun, hstatus⟩, hgetRun, henqueue, hpersist, hnames⟩ := h
  have htags : ∀ tag ∈ p.batch.tags, Quotable env.limits.maxTagKeyLength tag.1 :=
    fun tag htag => quotable_of_ascii _ (validateRequest_tags_ascii hbatch tag htag)
  have hvalid : Completes (validateBatch env.limits p.projectId p.sent.request.runId p.batch.tags
      (p.batch.metrics.map MetricRow.name)) := completes_validateBatch htags (by simpa using hnames)
  obtain ⟨validation, tracker, hvalidate⟩ := hvalid.exists_ok s.cardinality
  exact settle_validated hvalidate hrun hstatus hgetRun henqueue hpersist

theorem leaves_onDb {ε α : Type} (x : Command Database ε α) : Leaves ServerState.idempotency (onDb x) :=
  ⟨fun _ => rfl⟩

theorem leaves_onTracker {ε α : Type} (x : Command CardinalityTracker ε α) :
    Leaves ServerState.idempotency (onTracker x) :=
  ⟨fun _ => rfl⟩

theorem leaves_onStream {ε α : Type} (x : Command (List QueuedIngestBatch) ε α) :
    Leaves ServerState.idempotency (onStream x) :=
  ⟨fun _ => rfl⟩

theorem settle_leaves (env : Env) (faults : Faults) (p : Pending) :
    Leaves ServerState.idempotency (settle env faults p) := by
  refine leaves_bind (leaves_mapError (leaves_onTracker _)) (fun validation => ?_)
  refine leaves_bind (leaves_mapError (leaves_mapError (leaves_onDb _))) (fun run => ?_)
  refine leaves_bind (leaves_mapError (leaves_ofExcept _)) (fun _ => ?_)
  refine leaves_bind (leaves_mapError ?_) (fun persisted => leaves_pure _)
  simp only [deliver]
  split
  · exact leaves_bind (leaves_mapError (leaves_onStream _)) (fun _ => leaves_pure _)
  · exact leaves_onDb _

def Sent.hash (env : Env) (sent : Sent) : Option String :=
  payloadHash env.sha256 env.limits.maxTagValueLength sent.request.toPayload

/-- What the first part of the handler does to the batches: it records a batch
that was not known and goes on, or finds it recorded under the same hash. -/
def Admitted (env : Env) (sent : Sent) (batches batches' : String × String → Option BatchRecord) : Admission → Prop
  | .duplicate => batches' = batches ∧ ∃ existing, batches sent.key = some existing ∧
      sent.hash env = some existing.payloadHash
  | .process p => p.sent = sent ∧ validateRequest env.limits.maxTagValueLength sent.request.toPayload =
      .ok p.batch ∧
      sent.hash env = some p.payloadHash ∧ batches sent.key = none ∧
      batches' = Function.update batches sent.key (some p.record)

theorem admission_admitted {p : Pending} {sent : Sent} (store : IdempotencyStore) (hsent : p.sent = sent)
    (hbatch : validateRequest env.limits.maxTagValueLength sent.request.toPayload = .ok p.batch)
    (hhash : sent.hash env = some p.payloadHash) :
    match admission p (checkAndRecord p.record store).1 with
    | .ok a => Admitted env sent store.batches (checkAndRecord p.record store).2.batches a
    | .error _ => (checkAndRecord p.record store).2.batches = store.batches := by
  have hkey : p.record.key = sent.key := by rw [← hsent]; rfl
  cases hb : store.batches p.record.key with
  | some existing =>
      rw [checkAndRecord_recorded hb]
      cases ha : answerTo existing p.record with
      | duplicate =>
          refine ⟨rfl, existing, hkey ▸ hb, ?_⟩
          rw [hhash, (answerTo_eq_duplicate_iff existing p.record).mp ha]
          rfl
      | conflict expectedHash actualHash => rfl
      | new | outOfOrder =>
          have := answerTo_shouldProcess existing p.record
          simp [ha, IdempotencyResult.shouldProcess] at this
  | none =>
      obtain ⟨hprocess, hbatches⟩ := checkAndRecord_unrecorded hb
      rw [hbatches, hkey]
      rw [hkey] at hb
      cases hr : (checkAndRecord p.record store).1 with
      | new => exact ⟨hsent, hbatch, hhash, hb, rfl⟩
      | outOfOrder expectedSeq actualSeq => exact ⟨hsent, hbatch, hhash, hb, rfl⟩
      | duplicate | conflict => simp [hr, IdempotencyResult.shouldProcess] at hprocess

theorem receive_cases (env : Env) (sent : Sent) (fault : Option String) (s : ServerState) :
    Ends (fun a s' => Admitted env sent s.idempotency.batches s'.idempotency.batches a)
      (fun s' => s'.idempotency.batches = s.idempotency.batches) (receive env sent fault s) := by
  have herr : ∀ s' : ServerState, s'.idempotency = s.idempotency → s'.idempotency.batches = s.idempotency.batches :=
    fun _ h => congrArg _ h
  have hread : Keeps (fun s' : ServerState => s'.idempotency = s.idempotency) (readRun fault sent.request.runId) :=
    (leaves_mapError (leaves_onDb _)).keeps (fun _ _ h hs => h.symm.trans hs)
  have hreceive : Triple (fun s' => s'.idempotency = s.idempotency) (receive env sent fault)
      (fun a s' => Admitted env sent s.idempotency.batches s'.idempotency.batches a)
      (fun s' => s'.idempotency.batches = s.idempotency.batches) := by
    refine triple_bind (triple_weaken hread (fun _ h => h) (fun _ _ h => h) herr) (fun run => ?_)
    refine triple_bind (triple_ofExcept (fun _ s' _ h => h) herr) (fun _ => ?_)
    refine triple_bind (triple_ofExcept (Q := fun batch s' => s'.idempotency = s.idempotency ∧
      validateRequest env.limits.maxTagValueLength sent.request.toPayload = .ok batch)
      (fun batch s' hbatch h => ⟨h, hbatch⟩) herr) (fun batch => triple_assume (fun hbatch => ?_))
    have hhash : sent.hash env = some (prepare env sent run batch).payloadHash := by
      simp [Sent.hash, payloadHash, hbatch, Except.toOption, prepare]
    constructor
    intro s' hs'
    have h := admission_admitted (p := prepare env sent run batch) s'.idempotency rfl hbatch hhash
    simp only [bind, checkBatch, Commands.ofExcept]
    generalize admission (prepare env sent run batch)
      (checkAndRecord (prepare env sent run batch).record s'.idempotency).1 = answer at h ⊢
    rw [hs'] at h ⊢
    cases answer with
    | error e => exact h
    | ok a => exact h
  exact hreceive.ends s rfl

end MLRunX.Ingest
