import MLRunX.Commands
import MLRunX.Ingest
import MLRunX.Runs

namespace MLRunX.GrpcIngest

open Commands PayloadHash Runs
open Ingest (saturate)

inductive RunStatus
  | unspecified
  | running
  | finished
  | failed
  | crashed
  | killed
  deriving DecidableEq, Repr

def RunStatus.debug : RunStatus → String
  | .unspecified => "Unspecified"
  | .running => "Running"
  | .finished => "Finished"
  | .failed => "Failed"
  | .crashed => "Crashed"
  | .killed => "Killed"

/-- A number that stands for no status is read as the unspecified one. -/
def RunStatus.ofWire (n : Int) : RunStatus :=
  if n = 1 then .running else if n = 2 then .finished else if n = 3 then .failed
  else if n = 4 then .crashed else if n = 5 then .killed else .unspecified

inductive Code
  | invalidArgument
  | notFound
  | failedPrecondition
  deriving DecidableEq, Repr

structure Status where
  code : Code
  message : String
  deriving DecidableEq, Repr

structure Timestamp where
  seconds : Int
  nanos : Int
  deriving DecidableEq, Repr

structure MetricPoint where
  name : String
  step : Int64
  value : F64
  timestamp : Option F64
  deriving DecidableEq, Repr

abbrev RunMetrics := List (String × List MetricPoint)

def addPoint (point : MetricPoint) : RunMetrics → RunMetrics
  | [] => [(point.name, [point])]
  | (name, points) :: rest =>
      if name = point.name then (name, points ++ [point]) :: rest else (name, points) :: addPoint point rest

structure RunState where
  runId : String
  projectId : String
  name : Option String
  status : RunStatus
  metricsCount : Nat
  paramsCount : Nat
  tags : String → Option String

structure InMemoryStore where
  runs : String → Option RunState
  seenBatches : List String
  metrics : String → Option RunMetrics

def InMemoryStore.empty : InMemoryStore := ⟨fun _ => none, [], fun _ => none⟩

structure InitRunRequest where
  projectId : Option String
  runId : Option String
  name : Option String
  tags : List (String × String)

structure InitRunResponse where
  runId : String
  resumeToken : String
  resumed : Bool
  deriving DecidableEq, Repr

structure PointMessage where
  name : String
  step : Int64
  value : F64
  timestamp : Option Timestamp
  deriving DecidableEq, Repr

structure LogMetricsRequest where
  runId : Option String
  batchId : String
  metrics : Option (List PointMessage)
  deriving DecidableEq, Repr

structure LogMetricsResponse where
  acceptedCount : Nat
  deduplicatedCount : Nat
  deriving DecidableEq, Repr

structure LogParamsRequest where
  runId : Option String
  params : List (String × String)
  deriving DecidableEq, Repr

structure ErrorDetail where
  code : String
  message : String
  field : String
  deriving DecidableEq, Repr

structure LogParamsResponse where
  acceptedCount : Nat
  existingCount : Nat
  warnings : List ErrorDetail
  deriving DecidableEq, Repr

structure LogTagsRequest where
  runId : Option String
  tags : List (String × String)
  removeKeys : List String
  deriving DecidableEq, Repr

structure LogTagsResponse where
  updatedCount : Nat
  removedCount : Nat
  deriving DecidableEq, Repr

structure FinishRunRequest where
  runId : Option String
  status : Int
  deriving DecidableEq, Repr

structure FinishRunResponse where
  totalMetrics : Nat
  totalArtifacts : Nat
  deriving DecidableEq, Repr

/-- What becomes of the shadow write of the parameters: it is off, the run id is
no UUID, or it succeeds or fails. -/
inductive ShadowWrite
  | off
  | skipped
  | written
  | failed
  deriving DecidableEq, Repr

abbrev Call (α : Type) := Command InMemoryStore Status α

def requireRunId : Option String → Except Status String
  | some runId => .ok runId
  | none => .error ⟨.invalidArgument, "run_id is required"⟩

/-- Works on a run under the lock of the runs. -/
def withRun {α : Type} (runId : String) (x : Command RunState Status α) : Call α := fun s =>
  match s.runs runId with
  | none => (.error ⟨.notFound, s!"Run not found: {runId}"⟩, s)
  | some run => ((x run).1, { s with runs := Function.update s.runs runId (some (x run).2) })

def insertTag (tags : String → Option String) (tag : String × String) : String → Option String :=
  Function.update tags tag.1 (some tag.2)

/-- A run that is there is answered for as it is. -/
def initRun (generatedId : String) (req : InitRunRequest) : Call InitRunResponse := fun s =>
  match req.projectId with
  | none => (.error ⟨.invalidArgument, "project_id is required"⟩, s)
  | some projectId =>
      let runId := req.runId.getD generatedId
      match s.runs runId with
      | some existing => (.ok ⟨existing.runId, s!"resume-{runId}", true⟩, s)
      | none => (.ok ⟨runId, s!"resume-{runId}", false⟩, { s with runs := Function.update s.runs runId (some
          { runId, projectId, name := req.name, status := .running, metricsCount := 0, paramsCount := 0
            tags := req.tags.foldl insertTag (fun _ => none) }) })

def batchKey (runId batchId : String) : String := s!"{runId}:{batchId}"

/-- Whether a batch was seen, which it is from now on. -/
def see (key : String) : Call Bool := fun s =>
  if key ∈ s.seenBatches then (.ok true, s) else (.ok false, { s with seenBatches := key :: s.seenBatches })

def countPoints (runId : String) (count : Nat) : Command RunState Status Unit := fun run =>
  if run.status ≠ .running then
    (.error ⟨.failedPrecondition, s!"Run {runId} is not running (status: {run.status.debug})"⟩, run)
  else (.ok (), { run with metricsCount := run.metricsCount + count })

variable (toSeconds : Timestamp → F64)

def PointMessage.toPoint (point : PointMessage) : MetricPoint :=
  ⟨point.name, point.step, point.value, point.timestamp.map toSeconds⟩

def addPoints (points : List PointMessage) (metrics : RunMetrics) : RunMetrics :=
  points.foldl (fun metrics point => addPoint (point.toPoint toSeconds) metrics) metrics

def storePoints (runId : String) : Option (List PointMessage) → Call Unit
  | none => pure ()
  | some points => fun s =>
      let metrics := addPoints toSeconds points ((s.metrics runId).getD [])
      (.ok (), { s with metrics := Function.update s.metrics runId (some metrics) })

/-- The batch is seen before the run is looked up. -/
def logMetrics (req : LogMetricsRequest) : Call LogMetricsResponse := do
  let runId ← ofExcept (requireRunId req.runId)
  let count := (req.metrics.getD []).length
  let seen ← see (batchKey runId req.batchId)
  if seen then pure ⟨0, saturate (2 ^ 63 - 1) count⟩
  else do
    withRun runId (countPoints runId count)
    storePoints toSeconds runId req.metrics
    pure ⟨saturate (2 ^ 63 - 1) count, 0⟩

def countParams (count : Nat) : Command RunState Status Unit := fun run =>
  (.ok (), { run with paramsCount := run.paramsCount + count })

def shadowWarnings (runId : String) : ShadowWrite → List ErrorDetail
  | .off | .written => []
  | .skipped => [⟨"POSTGRES_SHADOW_WRITE_SKIPPED",
      s!"run_id '{runId}' is not a UUID; skipping PostgreSQL parameter shadow write", "run_id"⟩]
  | .failed => [⟨"POSTGRES_SHADOW_WRITE_FAILED",
      "PostgreSQL parameter shadow write failed; in-memory ingest path remains active.", "params"⟩]

/-- The status of the run is not looked at. -/
def logParams (shadow : ShadowWrite) (req : LogParamsRequest) : Call LogParamsResponse := do
  let runId ← ofExcept (requireRunId req.runId)
  withRun runId (countParams req.params.length)
  pure ⟨saturate (2 ^ 63 - 1) req.params.length, 0, shadowWarnings runId shadow⟩

def removeTag (acc : (String → Option String) × Nat) (key : String) : (String → Option String) × Nat :=
  if (acc.1 key).isSome then (Function.update acc.1 key none, acc.2 + 1) else acc

def changeTags (tags : List (String × String)) (removeKeys : List String) : Command RunState Status LogTagsResponse :=
  fun run =>
    let removed := removeKeys.foldl removeTag (tags.foldl insertTag run.tags, 0)
    (.ok ⟨tags.length, removed.2⟩, { run with tags := removed.1 })

/-- The status of the run is not looked at. -/
def logTags (req : LogTagsRequest) : Call LogTagsResponse := do
  let runId ← ofExcept (requireRunId req.runId)
  withRun runId (changeTags req.tags req.removeKeys)

def setStatus (status : RunStatus) : Command RunState Status Nat := fun run =>
  (.ok run.metricsCount, { run with status })

/-- The status is written over whatever it was. -/
def finishRun (req : FinishRunRequest) : Call FinishRunResponse := do
  let runId ← ofExcept (requireRunId req.runId)
  let count ← withRun runId (setStatus (.ofWire req.status))
  pure ⟨saturate (2 ^ 63 - 1) count, 0⟩

inductive Op
  | initRun (generatedId : String) (req : InitRunRequest)
  | logMetrics (req : LogMetricsRequest)
  | logParams (shadow : ShadowWrite) (req : LogParamsRequest)
  | logTags (req : LogTagsRequest)
  | finishRun (req : FinishRunRequest)

inductive Reply
  | initRun (answer : Except Status InitRunResponse)
  | logMetrics (answer : Except Status LogMetricsResponse)
  | logParams (answer : Except Status LogParamsResponse)
  | logTags (answer : Except Status LogTagsResponse)
  | finishRun (answer : Except Status FinishRunResponse)

def step : Machine InMemoryStore Op Reply
  | s, .initRun generatedId req => (.initRun (initRun generatedId req s).1, (initRun generatedId req s).2)
  | s, .logMetrics req => (.logMetrics (logMetrics toSeconds req s).1, (logMetrics toSeconds req s).2)
  | s, .logParams shadow req => (.logParams (logParams shadow req s).1, (logParams shadow req s).2)
  | s, .logTags req => (.logTags (logTags req s).1, (logTags req s).2)
  | s, .finishRun req => (.finishRun (finishRun req s).1, (finishRun req s).2)

def statusOf (runId : String) (s : InMemoryStore) : Option RunStatus := (s.runs runId).map RunState.status

variable {toSeconds} {runId : String} {s : InMemoryStore} {run : RunState}

theorem requireRunId_some : requireRunId (some runId) = .ok runId := rfl

theorem withRun_some {α : Type} (x : Command RunState Status α) (h : s.runs runId = some run) :
    withRun runId x s = ((x run).1, { s with runs := Function.update s.runs runId (some (x run).2) }) := by
  simp only [withRun, h]

theorem withRun_none {α : Type} (x : Command RunState Status α) (h : s.runs runId = none) :
    withRun runId x s = (.error ⟨.notFound, s!"Run not found: {runId}"⟩, s) := by
  simp only [withRun, h]

theorem leaves_withRun {α β : Type} {f : RunState → β} {x : Command RunState Status α} (hx : Leaves f x)
    (id : String) :
    Leaves (fun s => (s.runs id).map f) (withRun runId x) := by
  constructor
  intro s
  cases hrun : s.runs runId with
  | none => rw [withRun_none x hrun]
  | some run =>
      rw [withRun_some x hrun]
      by_cases hid : id = runId
      · subst hid
        simp only [Function.update_self, hrun, Option.map_some, hx.shows run]
      · simp only [Function.update_of_ne hid]

theorem leaves_logMetrics (req : LogMetricsRequest) (id : String) :
    Leaves (statusOf id) (logMetrics toSeconds req) := by
  have hsee : ∀ key, Leaves (statusOf id) (see key) := by
    intro key
    constructor
    intro s
    rw [see]
    split <;> rfl
  have hcount : ∀ (runId : String) (count : Nat), Leaves RunState.status (countPoints runId count) := by
    intro runId count
    constructor
    intro run
    rw [countPoints]
    split <;> rfl
  have hstore : ∀ runId points, Leaves (statusOf id) (storePoints toSeconds runId points) := by
    intro runId points
    cases points with
    | none => exact leaves_pure ()
    | some points => exact ⟨fun _ => rfl⟩
  apply leaves_bind (leaves_ofExcept _)
  intro runId
  apply leaves_bind (hsee _)
  intro seen
  split
  · exact leaves_pure _
  · apply leaves_bind (leaves_withRun (hcount _ _) id)
    intro _
    exact leaves_bind (hstore _ _) (fun _ => leaves_pure _)

theorem leaves_logParams (shadow : ShadowWrite) (req : LogParamsRequest) (id : String) :
    Leaves (statusOf id) (logParams shadow req) := by
  apply leaves_bind (leaves_ofExcept _)
  intro runId
  exact leaves_bind (leaves_withRun ⟨fun _ => rfl⟩ id) (fun _ => leaves_pure _)

theorem leaves_logTags (req : LogTagsRequest) (id : String) : Leaves (statusOf id) (logTags req) := by
  apply leaves_bind (leaves_ofExcept _)
  intro runId
  exact leaves_withRun ⟨fun _ => rfl⟩ id

theorem statusOf_initRun (generatedId : String) (req : InitRunRequest) {id : String} {status : RunStatus}
    (h : statusOf id s = some status) : statusOf id (initRun generatedId req s).2 = some status := by
  obtain ⟨run, hrun, rfl⟩ := Option.map_eq_some_iff.mp h
  cases hproject : req.projectId with
  | none => simpa only [initRun, hproject] using h
  | some projectId =>
      cases hexisting : s.runs (req.runId.getD generatedId) with
      | some existing => simpa only [initRun, hproject, hexisting] using h
      | none =>
          have hne : id ≠ req.runId.getD generatedId := by
            rintro rfl
            rw [hexisting] at hrun
            cases hrun
          simpa only [initRun, hproject, hexisting, statusOf, Function.update_of_ne hne] using h

theorem statusOf_setStatus (new : RunStatus) (hrun : s.runs runId = some run) (id : String) :
    statusOf id (withRun runId (setStatus new) s).2 = if runId = id then some new else statusOf id s := by
  rw [withRun_some _ hrun]
  by_cases hid : runId = id
  · subst hid
    simp only [statusOf, setStatus, Function.update_self, Option.map_some, if_true]
  · simp only [statusOf, setStatus, Function.update_of_ne (Ne.symm hid), if_neg hid]

theorem statusOf_finishRun (req : FinishRunRequest) {id : String} {status : RunStatus}
    (h : statusOf id s = some status) :
    statusOf id (finishRun req s).2 = some (if req.runId = some id then .ofWire req.status else status) := by
  cases hreq : req.runId with
  | none =>
      rw [if_neg (by simp), finishRun, hreq]
      exact h
  | some runId =>
      have hstep : statusOf id (finishRun req s).2 =
          statusOf id (withRun runId (setStatus (.ofWire req.status)) s).2 := by
        rw [finishRun, hreq]
        exact bind_leaves (statusOf id) (fun _ => leaves_pure _) s
      rw [hstep]
      cases hrun : s.runs runId with
      | none =>
          have hne : runId ≠ id := by
            rintro rfl
            simp only [statusOf, hrun, Option.map_none, reduceCtorEq] at h
          rw [withRun_none _ hrun, if_neg (by simpa using hne)]
          exact h
      | some run =>
          rw [statusOf_setStatus _ hrun, h]
          simp only [Option.some.injEq, apply_ite some]

theorem see_unseen {key : String} (h : key ∉ s.seenBatches) :
    see key s = (.ok false, { s with seenBatches := key :: s.seenBatches }) := if_neg h

theorem logMetrics_seen {req : LogMetricsRequest} (hreq : req.runId = some runId)
    (hseen : batchKey runId req.batchId ∈ s.seenBatches) :
    logMetrics toSeconds req s = (.ok ⟨0, saturate (2 ^ 63 - 1) (req.metrics.getD []).length⟩, s) := by
  have hsee : see (batchKey runId req.batchId) s = (.ok true, s) := if_pos hseen
  rw [logMetrics, hreq, bind_ofExcept_ok requireRunId_some, bind_ok hsee]
  rfl

theorem logMetrics_stopped {req : LogMetricsRequest} (hreq : req.runId = some runId)
    (hunseen : batchKey runId req.batchId ∉ s.seenBatches) (hrun : s.runs runId = some run)
    (hstatus : run.status ≠ .running) :
    logMetrics toSeconds req s =
      (.error ⟨.failedPrecondition, s!"Run {runId} is not running (status: {run.status.debug})"⟩,
        { s with seenBatches := batchKey runId req.batchId :: s.seenBatches }) := by
  have hcount : countPoints runId (req.metrics.getD []).length run = (.error ⟨.failedPrecondition,
      s!"Run {runId} is not running (status: {run.status.debug})"⟩, run) := if_pos hstatus
  have hwith := withRun_some (s := { s with seenBatches := batchKey runId req.batchId :: s.seenBatches })
    (countPoints runId (req.metrics.getD []).length) hrun
  rw [hcount, ← hrun, Function.update_eq_self] at hwith
  rw [logMetrics, hreq, bind_ofExcept_ok requireRunId_some, bind_ok (see_unseen hunseen),
    if_neg Bool.false_ne_true]
  exact bind_error hwith

end MLRunX.GrpcIngest
