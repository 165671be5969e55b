import MLRunX.Mutators
import MLRunX.RunInit
import MLRunX.Runs

namespace MLRunX.RunServer

open Auth Cardinality Commands Http Idempotency Ingest Mutators Processor RunInit RunTables Runs Sqlite
  Statements Tables
open IngestRequest (badRequest)

/-- A server process with its database, the stream and the table of ClickHouse. -/
structure Server where
  store : SqliteStore
  times : String → RunTimes
  idempotency : IdempotencyStore
  cardinality : CardinalityTracker
  stream : List QueuedIngestBatch
  points : List MetricPoint

def Server.db (s : Server) : Database := s.store.runTables

def Server.setDb (db : Database) (s : Server) : Server := { s with store := { s.store with runTables := db } }

def onMetadata {ε α : Type} (x : Command MetadataStore ε α) : Command Server ε α :=
  zoom (fun s => ⟨s.store.ui, s.store.runTables, s.times⟩)
    (fun m s => { s with store := { s.store with ui := m.ui, runTables := m.db }, times := m.times }) x

def onIngest {ε α : Type} (x : Command ServerState ε α) : Command Server ε α :=
  zoom (fun s => ⟨s.store.runTables, s.idempotency, s.cardinality, s.stream⟩)
    (fun i s => { s with
      store := { s.store with runTables := i.db }
      idempotency := i.idempotency
      cardinality := i.cardinality
      stream := i.stream }) x

def onProcessor {ε α : Type} (x : Command ProcessorStore ε α) : Command Server ε α :=
  zoom (fun s => ⟨s.store.runTables, s.store.batches, s.points⟩)
    (fun p s => { s with store := { s.store with runTables := p.db, batches := p.batches }, points := p.points }) x

def onStore {ε α : Type} (x : Command SqliteStore ε α) : Command Server ε α :=
  zoom Server.store (fun store s => { s with store }) x

def onDb {ε α : Type} (x : Command Database ε α) : Command Server ε α := zoom Server.db Server.setDb x

def isPathIdChar (c : Char) : Bool := c.isAlphanum || c == '-' || c == '_'

def validatePathId (id name : String) : Answer Unit :=
  if id.isEmpty || 128 < id.utf8ByteSize then .error (badRequest s!"Invalid {name}: must be 1-128 characters")
  else if !(id.toList.all isPathIdChar) then
    .error (badRequest s!"Invalid {name}: only alphanumeric, dash, and underscore allowed")
  else .ok ()

structure FinishFaults where
  getRun : Option String := none
  finishRun : Option String := none
  event : Nat → Option String := fun _ => none

structure FinishEnv where
  retryAfter : Option Nat := none
  now : String := ""
  faults : FinishFaults := {}

structure DeleteFaults where
  getRun : Option String := none
  deleteRun : Nat → Option String := fun _ => none

def finishEvent (status : String) : RunEventInput where
  level := if Text.eqIgnoreAsciiCase status "failed" then "error" else "info"
  source := "system"
  message := s!"Run marked as {status}"
  step := none
  timestamp := none

def stampFinish (now runId : String) : Command Server HttpError Unit := fun s =>
  let times := { s.times runId with updatedAt := now, finishedAt := some now }
  (.ok (), { s with times := Function.update s.times runId times })

variable (flags : EndpointRbacTier → Bool) (auth : AuthContext)

def httpFinishRun (env : FinishEnv) (runId status : String) : Command Server HttpError Unit := do
  ofExcept (validatePathId runId "run_id")
  let run ← mapError runError (onDb (getRun env.faults.getRun runId))
  ofExcept (requireEndpointAccess auth flags .write (some run.projectId))
  ofExcept (requireUiRunOwner auth run)
  ofExcept (requireApiKeyRunOwnerForMutation auth run "finish")
  ofExcept (checkRateLimit env.retryAfter)
  mapError (fun _ => internalError) (onDb (finishRun env.faults.finishRun runId status))
  stampFinish env.now runId
  let _ ← attempt (onDb (RunTables.insertRunEvents env.faults.event runId [finishEvent status]))
  pure ()

/-- The tables are cleared of the run, and what the process remembers of it stays. -/
def httpDeleteRun (faults : DeleteFaults) (runId : String) : Command Server HttpError Unit := do
  ofExcept (validatePathId runId "run_id")
  let run ← mapError runError (onDb (getRun faults.getRun runId))
  ofExcept (requireEndpointAccess auth flags .write (some run.projectId))
  ofExcept (requireUiRunOwner auth run)
  ofExcept (requireApiKeyRunOwnerForMutation auth run "delete")
  mapError runError (onStore (Mutators.deleteRun runId faults.deleteRun))

def foreignKeyFailed : Option String := some "FOREIGN KEY constraint failed"

def refuseInserts (faults : ProcessFaults) : ProcessFaults :=
  { faults with
    metrics := fun _ => foreignKeyFailed
    tags := fun _ => foreignKeyFailed
    params := fun _ => foreignKeyFailed
    events := fun _ => foreignKeyFailed
    recordBatch := foreignKeyFailed }

/-- The foreign keys refuse the inserts of a batch when its run is not there. -/
def ownedFaults (db : Database) (batch : QueuedIngestBatch) (faults : ProcessFaults) : ProcessFaults :=
  if (db.findRun batch.runId).isSome then faults else refuseInserts faults

def processQueued (faults : ProcessFaults) (index : Nat) : Command Server String Unit := fun s =>
  match s.stream[index]? with
  | some batch => onProcessor (processBatch (ownedFaults s.db batch faults) batch) s
  | none => (.ok (), s)

/-- A request to the server, or the processor going through an entry of the stream. -/
inductive Op
  | init (auth : AuthContext) (env : InitEnv) (req : InitRunHttpRequest)
  | ingest (sent : Sent) (fault : Option String) (faults : Faults)
  | process (faults : ProcessFaults) (index : Nat)
  | finish (auth : AuthContext) (env : FinishEnv) (runId status : String)
  | delete (auth : AuthContext) (faults : DeleteFaults) (runId : String)

inductive Reply
  | init (answer : Except HttpError InitRunHttpResponse)
  | ingest (answer : Except Failure Ingested)
  | process (answer : Except String Unit)
  | finish (answer : Except HttpError Unit)
  | delete (answer : Except HttpError Unit)

variable (env : Env)

def step : Machine Server Op Reply
  | s, .init auth initEnv req =>
      let r := onMetadata (httpInitRun env.scopeFlags env.limits.maxTagValueLength auth initEnv req) s
      (.init r.1, r.2)
  | s, .ingest sent fault faults =>
      let r := onIngest (httpIngestBatch env sent fault faults) s
      (.ingest r.1, r.2)
  | s, .process faults index =>
      let r := processQueued faults index s
      (.process r.1, r.2)
  | s, .finish auth finishEnv runId status =>
      let r := httpFinishRun env.scopeFlags auth finishEnv runId status s
      (.finish r.1, r.2)
  | s, .delete auth faults runId =>
      let r := httpDeleteRun env.scopeFlags auth faults runId s
      (.delete r.1, r.2)

section

variable {flags : EndpointRbacTier → Bool} {auth : AuthContext} {γ : Type} (view : Server → γ)

theorem leaves_httpFinishRun (hview : ∀ s store times, view { s with store, times } = view s) (env : FinishEnv)
    (runId status : String) : Leaves view (httpFinishRun flags auth env runId status) := by
  apply leaves_bind (leaves_ofExcept _)
  intro _
  apply leaves_bind (leaves_mapError ⟨fun s => hview s _ s.times⟩)
  intro run
  refine leaves_bind (leaves_ofExcept _) (fun _ => leaves_bind (leaves_ofExcept _) (fun _ => ?_))
  refine leaves_bind (leaves_ofExcept _) (fun _ => leaves_bind (leaves_ofExcept _) (fun _ => ?_))
  refine leaves_bind (leaves_mapError ⟨fun s => hview s _ s.times⟩) (fun _ => ?_)
  refine leaves_bind ⟨fun s => hview s s.store _⟩ (fun _ => ?_)
  exact leaves_bind (leaves_attempt ⟨fun s => hview s _ s.times⟩) (fun _ => leaves_pure _)

theorem leaves_httpDeleteRun (hview : ∀ s store times, view { s with store, times } = view s)
    (faults : DeleteFaults)
    (runId : String) : Leaves view (httpDeleteRun flags auth faults runId) := by
  apply leaves_bind (leaves_ofExcept _)
  intro _
  apply leaves_bind (leaves_mapError ⟨fun s => hview s _ s.times⟩)
  intro run
  refine leaves_bind (leaves_ofExcept _) (fun _ => leaves_bind (leaves_ofExcept _) (fun _ => ?_))
  exact leaves_bind (leaves_ofExcept _) (fun _ => leaves_mapError ⟨fun s => hview s _ s.times⟩)

theorem processQueued_view (hview : ∀ s store points, view { s with store, points } = view s)
    (faults : ProcessFaults)
    (index : Nat) (s : Server) : view (processQueued faults index s).2 = view s := by
  rw [processQueued]
  split
  · exact hview s _ _
  · rfl

end

/-- A process that has just started, with the users and the projects there are and no runs. -/
def Server.start (store : SqliteStore) : Server where
  store := { store with runTables := .empty, batches := .empty }
  times := fun _ => ⟨"", "", none⟩
  idempotency := .empty
  cardinality := .empty
  stream := []
  points := []

def projectStore : SqliteStore where
  runTables := .empty
  ui := (UiTables.createProject { now := 0, projectId := "p" } "p" none .empty).2
  apiKeys := .empty
  batches := .empty
  auditEvents := []
  shareTokens := []
  metricAliases := []
  sequences := {}

def initRun (runId : String) : Op :=
  .init (.devMode 0) { generatedId := "g", now := "t" } ⟨some runId, some "p", none, none, [], []⟩

end MLRunX.RunServer
