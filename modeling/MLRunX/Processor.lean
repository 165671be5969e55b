import MLRunX.Ingest

namespace MLRunX.Processor

open Commands Ingest PayloadHash RunTables Sqlite Statements Tables

structure BatchRow where
  id : String
  runId : String
  seq : Int
  payloadHash : String
  deriving DecidableEq, Repr

def BatchRow.clash (a b : BatchRow) : Prop := a.id = b.id

instance : DecidableRel BatchRow.clash := fun a b => by unfold BatchRow.clash; infer_instance

structure MetricPoint where
  runId : String
  projectId : String
  name : String
  step : Int64
  value : F64
  timestamp : Option F64
  batchId : String
  deriving DecidableEq, Repr

/-- The SQLite tables that the processor writes, and the table of ClickHouse. -/
structure ProcessorStore where
  db : Database
  batches : Table BatchRow BatchRow.clash
  points : List MetricPoint

structure ProcessFaults where
  batchExists : Option String := none
  metrics : Nat → Option String := fun _ => none
  metricsCount : Option String := none
  points : Option String := none
  tags : Nat → Option String := fun _ => none
  params : Nat → Option String := fun _ => none
  events : Nat → Option String := fun _ => none
  recordBatch : Option String := none
  ack : Option String := none

abbrev Program (α : Type) := Command ProcessorStore String α

def sqlite {α : Type} (x : Command Database SqliteError α) : Program α :=
  mapError SqliteError.message (zoom ProcessorStore.db (fun db s => { s with db }) x)

def batchExists (fault : Option String) (batchId : String) : Command ProcessorStore SqliteError Bool :=
  query fault (fun s => s.batches.rows.any (fun row => row.id == batchId))

def recordBatch (fault : Option String) (row : BatchRow) : Command ProcessorStore SqliteError Unit :=
  execute fault (fun s => match s.batches.insert row with
    | some batches => .ok ((), { s with batches })
    | none => .error (uniqueViolation "batches.id"))

def insertBatch (fault : Option String) (points : List MetricPoint) : Program Unit := fun s =>
  match fault with
  | some text => (.error text, s)
  | none => (.ok (), { s with points := s.points ++ points })

variable (faults : ProcessFaults) (batch : QueuedIngestBatch)

def storeMetrics : Program Unit :=
  if batch.metrics = [] then pure () else do
    let _ ← sqlite (insertMetrics faults.metrics batch.runId batch.metrics)
    sqlite (incrementMetricsCount faults.metricsCount batch.runId (saturate (2 ^ 63 - 1) batch.metrics.length))

def metricPoints : List MetricPoint :=
  batch.metrics.map (fun metric =>
    ⟨batch.runId, batch.projectId, metric.name, metric.step, metric.value, metric.timestamp, batch.batchId⟩)

def storePoints : Program Unit :=
  if batch.metrics = [] then pure () else insertBatch faults.points (metricPoints batch)

def storeTags : Program Unit :=
  if batch.tags = [] then pure () else sqlite (setTags faults.tags batch.runId batch.tags)

def storeParams : Program Unit :=
  if batch.params = [] then pure () else do
    let _ ← sqlite (insertParams faults.params batch.runId batch.params)
    pure ()

/-- The events of a batch, with its warnings behind them. -/
def batchEvents : List RunEventInput := batch.events ++ batch.warnings.map warningEvent

def storeEvents : Program Unit :=
  if batchEvents batch = [] then pure () else do
    let _ ← sqlite (insertRunEvents faults.events batch.runId (batchEvents batch))
    pure ()

def storeRest : Program Unit := do
  storePoints faults batch
  storeTags faults batch
  storeParams faults batch
  storeEvents faults batch

def applyBatch : Program Unit := do
  storeMetrics faults batch
  storeRest faults batch
  mapError SqliteError.message
    (recordBatch faults.recordBatch ⟨batch.batchId, batch.runId, batch.seq, batch.payloadHash⟩)

/-- The processing of an entry up to its acknowledgement. A batch whose record
cannot be read counts as new. The copies for PostgreSQL, which never fail the
entry, are left out. -/
def processBatch : Program Unit := do
  let found ← attempt (batchExists faults.batchExists batch.batchId)
  if found.getD false then pure () else applyBatch faults batch

/-- The processing of an entry in a system that has a store and a queue. -/
def processEntry {σ : Type} (onStore : Program Unit → Command σ String Unit)
    (ack : Option String → Command σ String Unit) : Command σ String Unit := do
  onStore (processBatch faults batch)
  ack faults.ack

end MLRunX.Processor
