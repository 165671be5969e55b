import MLRunX.Atomicity
import MLRunX.KeyStore
import MLRunX.Processor
import MLRunX.UiTables

namespace MLRunX.Mutators

open Atomicity Auth Commands Http Ingest KeyStore Memberships Processor RunTables Sqlite Statements Tables

structure AuditEventRow where
  actorKeyId : Option String
  projectId : Option String
  runId : Option String
  deriving DecidableEq, Repr

structure ShareTokenRow where
  token : String
  runId : String
  deriving DecidableEq, Repr

structure MetricAliasRow where
  projectId : String
  metricName : String
  deriving DecidableEq, Repr

/-- The last ids that the tables with AUTOINCREMENT have handed out. -/
structure Sequences where
  tags : Nat := 0
  metrics : Nat := 0
  params : Nat := 0
  events : Nat := 0
  deriving DecidableEq, Repr

/-- All the tables that the store's mutators write. -/
structure SqliteStore where
  runTables : Database
  ui : UiTables.UiStore
  apiKeys : ApiKeys
  batches : Table BatchRow BatchRow.clash
  auditEvents : List AuditEventRow
  shareTokens : List ShareTokenRow
  metricAliases : List MetricAliasRow
  sequences : Sequences

abbrev Mutation (α : Type) := Command SqliteStore SqliteError α

section RunData

variable (runId : String)

def setTag (tag : String × String) (s : SqliteStore) : SqliteStore :=
  { s with
    runTables := s.runTables.setTag runId tag
    sequences := { s.sequences with tags := s.sequences.tags + 1 } }

def addMetric (metric : MetricRow) (s : SqliteStore) : SqliteStore :=
  { s with
    runTables := s.runTables.addMetric runId metric
    sequences := { s.sequences with metrics := s.sequences.metrics + 1 } }

def setParam (param : String × String) (s : SqliteStore) : SqliteStore :=
  { s with
    runTables := s.runTables.setParam runId param
    sequences := { s.sequences with params := s.sequences.params + 1 } }

def addEvent (event : RunEventInput) (s : SqliteStore) : SqliteStore :=
  { s with
    runTables := s.runTables.addEvent runId event
    sequences := { s.sequences with events := s.sequences.events + 1 } }

def countParams (s : SqliteStore) : SqliteStore := { s with runTables := s.runTables.countParams runId }

def countMetrics (count : Int) (s : SqliteStore) : SqliteStore :=
  { s with runTables := s.runTables.countMetrics runId count }

variable (faults : Nat → Option String)

def setTags (tags : List (String × String)) : Mutation Unit := executeEach (setTag runId) faults tags

def insertMetrics (metrics : List MetricRow) : Mutation Nat := do
  executeEach (addMetric runId) faults metrics
  pure metrics.length

def incrementMetricsCount (fault : Option String) (count : Int) : Mutation Unit :=
  execute fault (fun s => .ok ((), countMetrics runId count s))

def insertParams (params : List (String × String)) : Mutation Nat := do
  executeEach (setParam runId) faults params
  execute (faults params.length) (fun s => .ok ((), countParams runId s))
  pure params.length

def stampRun (fault : Option String) (count : Nat) : Mutation Unit :=
  if 0 < count then execute fault (fun s => .ok ((), s)) else pure ()

def insertRunEvents (events : List RunEventInput) : Mutation Nat := do
  executeEach (addEvent runId) faults events
  stampRun (faults events.length) events.length
  pure events.length

end RunData

section Persist

variable (faults : PersistFaults) (runId : String)

def persistMetrics (metrics : List MetricRow) : Command SqliteStore HttpError Unit :=
  if metrics = [] then pure () else do
    let _ ← mapError (persistFailed "persist metrics to") (insertMetrics runId faults.metrics metrics)
    mapError (persistFailed "update metrics count in")
      (incrementMetricsCount runId faults.metricsCount (saturate (2 ^ 63 - 1) metrics.length))

def persistTags (tags : List (String × String)) : Command SqliteStore HttpError Unit :=
  if tags = [] then pure ()
  else mapError (persistFailed "persist tags to") (setTags runId faults.tags tags)

def persistParams (params : List (String × String)) : Command SqliteStore HttpError Unit :=
  if params = [] then pure () else do
    let _ ← mapError (persistFailed "persist params to") (insertParams runId faults.params params)
    pure ()

def persistEvents (events : List RunEventInput) : Command SqliteStore HttpError Nat :=
  if events = [] then pure 0
  else mapError (persistFailed "persist run events to") (insertRunEvents runId faults.events events)

def persistWarnings (warnings : List String) : Command SqliteStore HttpError Nat :=
  if warnings = [] then pure 0 else do
    let inserted ← attempt (insertRunEvents runId faults.warnings (warnings.map warningEvent))
    pure (inserted.getD 0)

def persistIngestBatchToSqlite (contents : Contents) : Command SqliteStore HttpError PersistedIngestBatch := do
  persistMetrics faults runId contents.metrics
  persistTags faults runId contents.tags
  persistParams faults runId contents.params
  let acceptedEventCount ← persistEvents faults runId contents.events
  let warningCount ← persistWarnings faults runId contents.warnings
  pure ⟨contents.metrics.length, contents.tags.length, acceptedEventCount + warningCount⟩

end Persist

def grantProjectMembership (env : UiTables.Env) (projectId userId : String) (role : Role)
    (grantedByUserId : Option String) : Mutation Unit :=
  zoom SqliteStore.ui (fun ui s => { s with ui })
    (UiTables.grantProjectMembership env projectId userId role grantedByUserId)

section DeleteRun

variable (runId : String)

def clearAuditRun (s : SqliteStore) : SqliteStore :=
  { s with
    auditEvents := s.auditEvents.map (setWhere (fun r => r.runId == some runId) (fun r => { r with runId := none })) }

def deleteShareTokens (s : SqliteStore) : SqliteStore :=
  { s with shareTokens := s.shareTokens.filter (fun r => !(r.runId == runId)) }

def deleteMetrics (s : SqliteStore) : SqliteStore :=
  { s with runTables := { s.runTables with metrics := s.runTables.metrics.filter (fun m => !(m.1 == runId)) } }

def deleteEvents (s : SqliteStore) : SqliteStore :=
  { s with runTables := { s.runTables with events := s.runTables.events.filter (fun e => !(e.1 == runId)) } }

def deleteTags (s : SqliteStore) : SqliteStore :=
  { s with runTables := { s.runTables with tags := s.runTables.tags.deleteWhere (fun t => t.runId == runId) } }

def deleteParams (s : SqliteStore) : SqliteStore :=
  { s with runTables := { s.runTables with params := s.runTables.params.deleteWhere (fun p => p.runId == runId) } }

def deleteBatches (s : SqliteStore) : SqliteStore :=
  { s with batches := s.batches.deleteWhere (fun b => b.runId == runId) }

def deleteRunRow (s : SqliteStore) : SqliteStore :=
  { s with runTables := { s.runTables with runs := s.runTables.runs.deleteWhere (fun r => r.id == runId) } }

/-- The rows that refer to a run. -/
def deleteRunData (faults : Nat → Option String) : Mutation Unit := do
  execute (faults 0) (fun s => .ok ((), clearAuditRun runId s))
  execute (faults 1) (fun s => .ok ((), deleteShareTokens runId s))
  execute (faults 2) (fun s => .ok ((), deleteMetrics runId s))
  execute (faults 3) (fun s => .ok ((), deleteEvents runId s))
  execute (faults 4) (fun s => .ok ((), deleteTags runId s))
  execute (faults 5) (fun s => .ok ((), deleteParams runId s))
  execute (faults 6) (fun s => .ok ((), deleteBatches runId s))

def deleteRunRows (faults : Nat → Option String) : Mutation Nat := do
  deleteRunData runId faults
  execute (faults 7) (fun s => .ok ((s.runTables.runs.select (fun r => r.id == runId)).length, deleteRunRow runId s))

def deleteRun (faults : Nat → Option String) : Mutation Unit := do
  let changes ← deleteRunRows runId faults
  if changes = 0 then fail (.notFound s!"Run not found: {runId}") else pure ()

end DeleteRun

structure DeleteProjectFaults where
  begin : Option String := none
  findProject : Option String := none
  listRuns : Option String := none
  run : Nat → Nat → Option String := fun _ _ => none
  auditKeys : Option String := none
  auditProject : Option String := none
  apiKeys : Option String := none
  memberships : Option String := none
  metricAliases : Option String := none
  project : Option String := none
  commit : Option String := none

def deleteRuns : (faults : Nat → Nat → Option String) → List String → Mutation Unit
  | _, [] => pure ()
  | faults, runId :: runIds => do
      let _ ← deleteRunRows runId (faults 0)
      deleteRuns (fun i => faults (i + 1)) runIds

section DeleteProject

variable (faults : DeleteProjectFaults) (projectId : String)

def ownedKeyIds (s : SqliteStore) : List String :=
  (s.apiKeys.select (fun k => k.projectId == some projectId)).map (fun k => k.id)

def clearAuditKeys (s : SqliteStore) : SqliteStore :=
  { s with auditEvents := s.auditEvents.map (setWhere
      (fun r => r.actorKeyId.any (fun id => (ownedKeyIds projectId s).contains id))
      (fun r => { r with actorKeyId := none })) }

def clearAuditProject (s : SqliteStore) : SqliteStore :=
  { s with auditEvents := s.auditEvents.map (setWhere (fun r => r.projectId == some projectId)
      (fun r => { r with projectId := none })) }

def deleteApiKeys (s : SqliteStore) : SqliteStore :=
  { s with apiKeys := s.apiKeys.deleteWhere (fun k => k.projectId == some projectId) }

def deleteMemberships (s : SqliteStore) : SqliteStore :=
  { s with ui := { s.ui with memberships := s.ui.memberships.deleteWhere (fun r => r.projectId == projectId) } }

def deleteMetricAliases (s : SqliteStore) : SqliteStore :=
  { s with metricAliases := s.metricAliases.filter (fun a => !(a.projectId == projectId)) }

def deleteProjectRow (s : SqliteStore) : SqliteStore :=
  { s with ui := { s.ui with projects := s.ui.projects.deleteWhere (fun r => r.id == projectId) } }

def deleteProjectRows : Mutation Unit := do
  execute faults.auditKeys (fun s => .ok ((), clearAuditKeys projectId s))
  execute faults.auditProject (fun s => .ok ((), clearAuditProject projectId s))
  execute faults.apiKeys (fun s => .ok ((), deleteApiKeys projectId s))
  execute faults.memberships (fun s => .ok ((), deleteMemberships projectId s))
  execute faults.metricAliases (fun s => .ok ((), deleteMetricAliases projectId s))
  execute faults.project (fun s => .ok ((), deleteProjectRow projectId s))

def deleteProjectData : Mutation Unit := do
  let project ← query faults.findProject (fun s => s.ui.projects.find (fun r => r.id == projectId))
  match project with
  | none => fail (.notFound s!"Project not found: '{projectId}'")
  | some _ => do
      let runIds ← query faults.listRuns (fun s =>
        (s.runTables.runs.select (fun r => r.projectId == projectId)).map RunRow.id)
      deleteRuns faults.run runIds
      deleteProjectRows faults projectId

def deleteProject : Mutation Unit := transaction faults.begin faults.commit (deleteProjectData faults projectId)

end DeleteProject

section Refinement

variable (runId : String) (faults : Nat → Option String)

theorem setTags_refines (tags : List (String × String)) :
    Refines SqliteStore.runTables (setTags runId faults tags) (RunTables.setTags faults runId tags) := by
  apply refines_executeEach
  exact fun _ _ => rfl

theorem insertMetrics_refines (metrics : List MetricRow) :
    Refines SqliteStore.runTables (insertMetrics runId faults metrics)
      (RunTables.insertMetrics faults runId metrics) := by
  refine refines_bind ?_ (fun _ => refines_pure _)
  apply refines_executeEach
  exact fun _ _ => rfl

theorem insertParams_refines (params : List (String × String)) :
    Refines SqliteStore.runTables (insertParams runId faults params) (RunTables.insertParams faults runId params) := by
  refine refines_bind ?_ (fun _ =>
    refines_bind (refines_execute (fun _ => rfl) (fun _ => rfl)) (fun _ => refines_pure _))
  apply refines_executeEach
  exact fun _ _ => rfl

theorem stampRun_refines (fault : Option String) (count : Nat) :
    Refines SqliteStore.runTables (stampRun fault count) (RunTables.stampRun fault count) := by
  simp only [stampRun, RunTables.stampRun]
  split
  · exact refines_execute (fun _ => rfl) (fun _ => rfl)
  · exact refines_pure ()

theorem insertRunEvents_refines (events : List RunEventInput) :
    Refines SqliteStore.runTables (insertRunEvents runId faults events)
      (RunTables.insertRunEvents faults runId events) := by
  refine refines_bind ?_ (fun _ => refines_bind (stampRun_refines _ _) (fun _ => refines_pure _))
  apply refines_executeEach
  exact fun _ _ => rfl

/-- On the tables of the runs the composite is the one of the ingest handler. -/
theorem persistIngestBatchToSqlite_refines (faults : PersistFaults) (contents : Contents) :
    Refines SqliteStore.runTables (persistIngestBatchToSqlite faults runId contents)
      (Ingest.persistIngestBatchToSqlite faults runId contents) := by
  refine refines_bind ?_ (fun _ => refines_bind ?_ (fun _ => refines_bind ?_ (fun _ => refines_bind ?_
    (fun _ => refines_bind ?_ (fun _ => refines_pure _)))))
  · simp only [persistMetrics, Ingest.persistMetrics]
    split
    · exact refines_pure ()
    · exact refines_bind (refines_mapError (insertMetrics_refines runId _ _))
        (fun _ => refines_mapError (refines_execute (fun _ => rfl) (fun _ => rfl)))
  · simp only [persistTags, Ingest.persistTags]
    split
    · exact refines_pure ()
    · exact refines_mapError (setTags_refines runId _ _)
  · simp only [persistParams, Ingest.persistParams]
    split
    · exact refines_pure ()
    · exact refines_bind (refines_mapError (insertParams_refines runId _ _)) (fun _ => refines_pure ())
  · simp only [persistEvents, Ingest.persistEvents]
    split
    · exact refines_pure 0
    · exact refines_mapError (insertRunEvents_refines runId _ _)
  · simp only [persistWarnings, Ingest.persistWarnings]
    split
    · exact refines_pure 0
    · exact refines_bind (refines_attempt (insertRunEvents_refines runId _ _)) (fun _ => refines_pure _)

theorem deleteRun_refines :
    Refines SqliteStore.runTables (deleteRun runId faults) (RunTables.deleteRun faults runId) := by
  have hfilter : ∀ {β : Type} (l : List (String × β)),
      l.filter (fun r => decide (r.1 ≠ runId)) = l.filter (fun r => !(r.1 == runId)) := by
    intro β l
    apply List.filter_congr
    intro r _
    by_cases hr : r.1 = runId <;> simp [hr]
  simp only [deleteRun, deleteRunRows, deleteRunData, bind_assoc, RunTables.deleteRun, hfilter]
  refine refines_bind (refines_execute (fun _ => rfl) (fun _ => rfl)) (fun _ => ?_)
  refine refines_bind (refines_execute (fun _ => rfl) (fun _ => rfl)) (fun _ => ?_)
  refine refines_bind (refines_execute (fun _ => rfl) (fun _ => rfl)) (fun _ => ?_)
  refine refines_bind (refines_execute (fun _ => rfl) (fun _ => rfl)) (fun _ => ?_)
  refine refines_bind (refines_execute (fun _ => rfl) (fun _ => rfl)) (fun _ => ?_)
  refine refines_bind (refines_execute (fun _ => rfl) (fun _ => rfl)) (fun _ => ?_)
  refine refines_bind (refines_execute (fun _ => rfl) (fun _ => rfl)) (fun _ => ?_)
  refine refines_bind (refines_execute (fun _ => rfl) (fun _ => rfl)) (fun changes => ?_)
  split
  · exact refines_fail _
  · exact refines_pure ()

end Refinement

/-- What the statements on the rows that refer to a run do. -/
def dataDeletes (runId : String) : List (SqliteStore → SqliteStore) :=
  [clearAuditRun runId, deleteShareTokens runId, deleteMetrics runId, deleteEvents runId, deleteTags runId,
    deleteParams runId, deleteBatches runId]

theorem runs_deleteRunData (runId : String) (faults : Nat → Option String) :
    Runs (writes id faults (dataDeletes runId)) (deleteRunData runId faults) := by
  refine runs_bind (runs_execute _ _ (clearAuditRun runId)) (fun _ => ?_)
  refine runs_bind (runs_execute _ _ (deleteShareTokens runId)) (fun _ => ?_)
  refine runs_bind (runs_execute _ _ (deleteMetrics runId)) (fun _ => ?_)
  refine runs_bind (runs_execute _ _ (deleteEvents runId)) (fun _ => ?_)
  refine runs_bind (runs_execute _ _ (deleteTags runId)) (fun _ => ?_)
  refine runs_bind (runs_execute _ _ (deleteParams runId)) (fun _ => ?_)
  exact runs_execute _ _ (deleteBatches runId)

theorem leaves_deleteRunData {γ : Type} {view : SqliteStore → γ} {runId : String} (faults : Nat → Option String)
    (h : ∀ write ∈ dataDeletes runId, ∀ s, view (write s) = view s) :
    Leaves view (deleteRunData runId faults) := by
  apply (runs_deleteRunData runId faults).leaves
  intro w hw s
  obtain ⟨write, hwrite, heq⟩ := mem_writes hw
  rw [heq]
  exact h write hwrite s

theorem leaves_deleteRunRows {γ : Type} {view : SqliteStore → γ} {runId : String} (faults : Nat → Option String)
    (hdata : ∀ write ∈ dataDeletes runId, ∀ s, view (write s) = view s)
    (hrow : ∀ s, view (deleteRunRow runId s) = view s) : Leaves view (deleteRunRows runId faults) := by
  refine leaves_bind (leaves_deleteRunData faults hdata) (fun _ => ?_)
  apply leaves_execute
  intro s a s' hs
  obtain ⟨-, rfl⟩ := Prod.mk.inj (Except.ok.inj hs)
  exact hrow s

/-- The rows of the runs and what refers to them are apart from the other tables. -/
theorem leaves_deleteRuns (faults : Nat → Nat → Option String) (runIds : List String) :
    Leaves (fun s : SqliteStore => (s.ui, s.apiKeys)) (deleteRuns faults runIds) := by
  induction runIds generalizing faults with
  | nil => exact leaves_pure ()
  | cons runId runIds ih =>
      refine leaves_bind (leaves_deleteRunRows (faults 0) ?_ (fun _ => rfl)) (fun _ => ih _)
      simp only [dataDeletes, List.forall_mem_cons]
      exact ⟨fun _ => rfl, fun _ => rfl, fun _ => rfl, fun _ => rfl, fun _ => rfl, fun _ => rfl, fun _ => rfl,
        fun _ h => absurd h List.not_mem_nil⟩

/-- What the statements behind the runs make of the tables. -/
def clearProject (projectId : String) (s : SqliteStore) : SqliteStore :=
  deleteProjectRow projectId (deleteMetricAliases projectId (deleteMemberships projectId (deleteApiKeys projectId
    (clearAuditProject projectId (clearAuditKeys projectId s)))))

theorem deleteProjectRows_ok {faults : DeleteProjectFaults} {projectId : String} {s s' : SqliteStore} {u : Unit}
    (h : deleteProjectRows faults projectId s = (.ok u, s')) : s' = clearProject projectId s := by
  obtain ⟨_, s₁, h₁, h⟩ := bind_eq_ok h
  obtain ⟨_, s₂, h₂, h⟩ := bind_eq_ok h
  obtain ⟨_, s₃, h₃, h⟩ := bind_eq_ok h
  obtain ⟨_, s₄, h₄, h⟩ := bind_eq_ok h
  obtain ⟨_, s₅, h₅, h⟩ := bind_eq_ok h
  obtain ⟨-, rfl⟩ := Prod.mk.inj (Except.ok.inj (execute_ok h₁))
  obtain ⟨-, rfl⟩ := Prod.mk.inj (Except.ok.inj (execute_ok h₂))
  obtain ⟨-, rfl⟩ := Prod.mk.inj (Except.ok.inj (execute_ok h₃))
  obtain ⟨-, rfl⟩ := Prod.mk.inj (Except.ok.inj (execute_ok h₄))
  obtain ⟨-, rfl⟩ := Prod.mk.inj (Except.ok.inj (execute_ok h₅))
  obtain ⟨-, rfl⟩ := Prod.mk.inj (Except.ok.inj (execute_ok h))
  rfl

/-- A deletion that succeeds found its project and deleted the runs first. -/
theorem deleteProject_committed {faults : DeleteProjectFaults} {projectId : String} {s s' : SqliteStore} {u : Unit}
    (h : deleteProject faults projectId s = (.ok u, s')) :
    ∃ project runIds s₁ v, s.ui.projects.find (fun r => r.id == projectId) = some project ∧
      deleteRuns faults.run runIds s = (.ok v, s₁) ∧ s' = clearProject projectId s₁ := by
  obtain ⟨-, -, hdata⟩ := transaction_eq_ok.mp h
  obtain ⟨project, s₁, hquery, hrest⟩ := bind_eq_ok hdata
  obtain ⟨rfl, rfl⟩ := query_eq_ok hquery
  cases hproject : s₁.ui.projects.find (fun r => r.id == projectId) with
  | none =>
      rw [hproject] at hrest
      cases hrest
  | some project =>
      rw [hproject] at hrest
      obtain ⟨runIds, s₂, hruns, hdeletes⟩ := bind_eq_ok hrest
      obtain ⟨-, rfl⟩ := query_eq_ok hruns
      obtain ⟨_, s₃, hdeleted, hrows⟩ := bind_eq_ok hdeletes
      exact ⟨project, runIds, s₃, _, rfl, hdeleted, deleteProjectRows_ok hrows⟩

/-- A project that is deleted is deleted from the tables of the UI as well. -/
theorem deleteProject_ok {faults : DeleteProjectFaults} {projectId : String} {s s' : SqliteStore} {u : Unit}
    (h : deleteProject faults projectId s = (.ok u, s')) (env : UiTables.Env)
    (hfault : env.faults.deleteProject = none) :
    UiTables.deleteProject env projectId s.ui = (.ok (), s'.ui) := by
  obtain ⟨project, runIds, s₁, _, hproject, hdeleted, rfl⟩ := deleteProject_committed h
  have hui : s₁.ui = s.ui := congrArg Prod.fst
    ((congrArg (fun r => (r.2.ui, r.2.apiKeys)) hdeleted).symm.trans ((leaves_deleteRuns faults.run runIds).shows s))
  have hexists : s.ui.projects.rows.any (fun r => r.id == projectId) = true :=
    List.any_eq_true.mpr ⟨project, find_some hproject⟩
  simp only [UiTables.deleteProject, hfault, execute, statement_none, hexists, if_true, clearProject,
    deleteProjectRow,
    deleteMetricAliases, deleteMemberships, deleteApiKeys, clearAuditProject, clearAuditKeys, hui]

/-- A deletion takes the keys of its project along, or leaves the keys as they are. -/
theorem apiKeys_deleteProject (faults : DeleteProjectFaults) (projectId : String) (s : SqliteStore) :
    (deleteProject faults projectId s).2.apiKeys = if (deleteProject faults projectId s).1.isOk then
      s.apiKeys.deleteWhere (fun k => k.projectId == some projectId) else s.apiKeys := by
  cases hrun : deleteProject faults projectId s with
  | mk answer s' =>
      cases answer with
      | error e => rw [allOrNothing_transaction _ _ _ _ e s' hrun]; rfl
      | ok u =>
          obtain ⟨project, runIds, s₁, _, -, hdeleted, rfl⟩ := deleteProject_committed hrun
          have hkeys : s₁.apiKeys = s.apiKeys :=
            congrArg Prod.snd ((congrArg (fun r => (r.2.ui, r.2.apiKeys)) hdeleted).symm.trans
            ((leaves_deleteRuns faults.run runIds).shows s))
          rw [← hkeys]
          rfl

end MLRunX.Mutators
