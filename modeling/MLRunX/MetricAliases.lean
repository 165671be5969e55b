import MLRunX.Interleaving
import MLRunX.KeyedTables
import MLRunX.UiRequests

namespace MLRunX.MetricAliases

open Auth Commands Http Interleaving KeyedTables Memberships Sqlite Statements Tables Text UiAuth UiRequests UiTables

structure MetricAliasRow where
  projectId : String
  metricName : String
  displayName : String
  unit : Option String
  description : Option String
  isActive : Bool
  createdAt : Nat
  updatedAt : Nat
  deriving DecidableEq, Repr

/-- A project has one alias for a metric, and no two active ones that show the
same name up to the case of ASCII letters. -/
def MetricAliasRow.clash (a b : MetricAliasRow) : Prop :=
  a.projectId = b.projectId ∧ (a.metricName = b.metricName ∨
    (a.isActive = true ∧ b.isActive = true ∧ toAsciiLowercase a.displayName = toAsciiLowercase b.displayName))

instance : DecidableRel MetricAliasRow.clash := fun a b => by unfold MetricAliasRow.clash; infer_instance

structure AliasStore where
  ui : UiStore
  aliases : Table MetricAliasRow MetricAliasRow.clash

def AliasStore.empty : AliasStore := ⟨.empty, .empty⟩

def AliasStore.withUi (ui : UiStore) (s : AliasStore) : AliasStore := { s with ui := ui }

structure AliasEnv where
  ui : Env
  listAliases : Option String := none
  writeAlias : Option String := none
  readAlias : Option String := none
  deleteAlias : Option String := none

structure UpsertMetricAliasRequest where
  rawName : String := ""
  displayName : String
  unit : Option String := none
  description : Option String := none
  isActive : Bool := true

abbrev Statement (α : Type) := Command AliasStore SqliteError α

def MetricAliasRow.key (r : MetricAliasRow) : String × String := (r.projectId, r.metricName)

/-- The table as a partial function of the project and the metric. -/
def AliasStore.find (s : AliasStore) : String × String → Option MetricAliasRow := lookup MetricAliasRow.key s.aliases

def AliasStore.ofProject (s : AliasStore) (projectId : String) : List MetricAliasRow :=
  (s.aliases.select (fun r => r.projectId == projectId)).insertionSort (fun a b => a.metricName ≤ b.metricName)

def AliasStore.aliasMap (s : AliasStore) (projectId : String) : List (String × String) :=
  ((s.ofProject projectId).filter MetricAliasRow.isActive).map (fun r => (r.metricName, r.displayName))

def displayActive : SqliteError := uniqueViolation "index 'idx_metric_aliases_project_display_active'"

section Store

variable (env : AliasEnv) (projectId metricName displayName : String) (unit description : Option String)
  (isActive : Bool)

def listMetricAliases : Statement (List MetricAliasRow) := query env.listAliases (·.ofProject projectId)

def getMetricAliasMap : Statement (List (String × String)) := query env.listAliases (·.aliasMap projectId)

def newRow : MetricAliasRow :=
  ⟨projectId, metricName, displayName, unit, description, isActive, env.ui.now, env.ui.now⟩

def renewed (r : MetricAliasRow) : MetricAliasRow :=
  { r with displayName, unit, description, isActive, updatedAt := env.ui.now }

/-- A conflict on the project and the metric is looked for first and turns the
insertion into an update. Foreign keys are checked at the end of an insertion. -/
def writeMetricAlias (s : AliasStore) : Sql (Unit × AliasStore) :=
  match upsert MetricAliasRow.key s.aliases (newRow env projectId metricName displayName unit description isActive)
      (renewed env displayName unit description isActive) with
  | none => .error displayActive
  | some aliases =>
      if (s.find (projectId, metricName)).isSome || s.ui.projects.rows.any (fun p => p.id == projectId) then
        .ok ((), { s with aliases := aliases })
      else
        .error (.database "FOREIGN KEY constraint failed")

def upsertMetricAlias : Statement MetricAliasRow := do
  execute env.writeAlias (writeMetricAlias env projectId metricName displayName unit description isActive)
  let row ← query env.readAlias (·.find (projectId, metricName))
  match row with
  | some row => pure row
  | none => fail (.database "Query returned no rows")

def deleteMetricAlias : Statement Bool :=
  execute env.deleteAlias (fun s => .ok ((s.find (projectId, metricName)).isSome,
    { s with aliases := s.aliases.deleteWhere (fun r => decide (r.key = (projectId, metricName))) }))

def deleteProject : Statement Unit := fun s =>
  match UiTables.deleteProject env.ui projectId s.ui with
  | (.ok (), ui) => (.ok (), ⟨ui, s.aliases.deleteWhere (fun r => r.projectId == projectId)⟩)
  | (.error e, ui) => (.error e, s.withUi ui)

end Store

abbrev AliasThread (α : Type) := Thread AliasEnv AliasStore HttpError α

variable (setup : Setup) (auth : AuthContext)

def onUi {α : Type} (x : Env → Handler α) : AliasThread α :=
  atomic (fun env => zoom AliasStore.ui AliasStore.withUi (x env.ui))

def onAliases {α : Type} (f : SqliteError → HttpError) (x : AliasEnv → Statement α) : AliasThread α :=
  atomic (fun env => mapError f (x env))

def requireProject (projectId : String) : AliasThread Unit := do
  let project ← onUi (fun env => internal (getProjectById env projectId))
  match project with
  | some _ => pure ()
  | none => .done (.error (projectNotFound projectId))

def requireUiProjectEditorOrOwner (projectId : String) : AliasThread Unit :=
  if auth.isDevMode || !auth.isUiJwt then
    pure ()
  else match authUserId auth with
    | none => .done (.error ⟨.forbidden, "Unable to resolve user identity for project authorization."⟩)
    | some userId => do
        let memberships ← onUi (fun env =>
          internal (listActiveProjectMemberships env.faults.relistMemberships userId))
        .done (if memberships.any (fun m => m.projectId == projectId && (m.role == .owner || m.role == .editor)) then
          .ok ()
        else
          .error ⟨.forbidden, "Access denied: only project owners or editors can update metric aliases."⟩)

/-- A name that is kept without the blanks around it. -/
def requiredName (field : String) (limit : Nat) (raw : String) : Answer String :=
  let name := trim raw
  if name.isEmpty then .error ⟨.badRequest, s!"{field} is required."⟩
  else if limit < byteLength name then .error ⟨.badRequest, s!"{field} must be <= {limit} characters."⟩
  else .ok name

def optionalText (raw : Option String) : Option String := (raw.map trim).filter (fun value => !value.isEmpty)

def nameTaken : HttpError :=
  ⟨.conflict, "display_name must be unique among active metric aliases in the project."⟩

def upsertError (e : SqliteError) : HttpError :=
  if containsText "idx_metric_aliases_project_display_active" e.message ||
      containsText "metric_aliases.project_id, lower(display_name)" e.message then nameTaken
  else internalError

def httpListProjectMetricAliases (projectId : String) : AliasThread (List MetricAliasRow) := do
  .done (validatePathId projectId "project_id")
  requireProject projectId
  .done (requireEndpointAccess auth setup.uiJwt.rbac .read (some projectId))
  onAliases (fun _ => internalError) (fun env => listMetricAliases env projectId)

/-- What is asked before the alias is written, with the two names to write. -/
def admitUpsert (projectId : String) (req : UpsertMetricAliasRequest) : AliasThread (String × String) := do
  .done (validatePathId projectId "project_id")
  requireProject projectId
  .done (requireEndpointAccess auth setup.uiJwt.rbac .write (some projectId))
  requireUiProjectEditorOrOwner auth projectId
  let rawName ← .done (requiredName "raw_name" 256 req.rawName)
  let displayName ← .done (requiredName "display_name" 128 req.displayName)
  pure (rawName, displayName)

def httpUpsertProjectMetricAlias (projectId : String) (req : UpsertMetricAliasRequest) :
    AliasThread MetricAliasRow := do
  let (rawName, displayName) ← admitUpsert setup auth projectId req
  onAliases upsertError (fun env => upsertMetricAlias env projectId rawName displayName (optionalText req.unit)
    (optionalText req.description) req.isActive)

def httpDeleteProjectMetricAlias (projectId metricName : String) : AliasThread Unit := do
  .done (validatePathId projectId "project_id")
  requireProject projectId
  .done (if (trim metricName).isEmpty then .error ⟨.badRequest, "metric_name is required."⟩ else .ok ())
  .done (requireEndpointAccess auth setup.uiJwt.rbac .write (some projectId))
  requireUiProjectEditorOrOwner auth projectId
  let deleted ← onAliases (fun _ => internalError) (fun env => deleteMetricAlias env projectId (trim metricName))
  .done (if deleted then .ok () else
    .error ⟨.notFound, s!"Metric alias '{trim metricName}' not found in project '{projectId}'."⟩)

def httpDeleteProject (projectId : String) : AliasThread Unit := do
  .done (validatePathId projectId "project_id")
  requireProject projectId
  .done (requireEndpointAccess auth setup.uiJwt.rbac .admin (some projectId))
  onUi (fun env => requireDeletionAccess env auth projectId)
  onAliases (fun e => match e with
    | .notFound what => ⟨.notFound, what⟩
    | .database _ => internalError) (fun env => deleteProject env projectId)

/-- The insertion of a project and the grant of its membership are apart. -/
def httpCreateProject (rawName : String) (description : Option String) : AliasThread ProjectRow :=
  let name := trim rawName
  if name.isEmpty then
    .done (.error ⟨.badRequest, "Project name is required."⟩)
  else if auth.isUiJwt then do
    .done (auth.requireScope "write")
    match authUserId auth with
    | none => .done (.error ⟨.forbidden, "Unable to resolve user identity for project creation."⟩)
    | some userId => do
        let row ← onUi (fun env => createNamedProject env name description)
        onUi (fun env => internal (grantProjectMembership env row.id userId .owner (some userId)))
        pure row
  else do
    .done (requireEndpointAccess auth setup.uiJwt.rbac .admin none)
    .done (if auth.isGlobal then .ok () else
      .error ⟨.forbidden, "Project creation requires a global admin key or UI session."⟩)
    onUi (fun env => createNamedProject env name description)

inductive Call
  | list (auth : AuthContext) (projectId : String)
  | upsert (auth : AuthContext) (projectId : String) (req : UpsertMetricAliasRequest)
  | delete (auth : AuthContext) (projectId metricName : String)
  | createProject (auth : AuthContext) (name : String) (description : Option String)
  | deleteProject (auth : AuthContext) (projectId : String)

inductive Reply
  | aliases (rows : List MetricAliasRow)
  | upserted (row : MetricAliasRow)
  | project (row : ProjectRow)
  | done

def body : Call → AliasThread Reply
  | .list auth projectId => do pure (.aliases (← httpListProjectMetricAliases setup auth projectId))
  | .upsert auth projectId req => do pure (.upserted (← httpUpsertProjectMetricAlias setup auth projectId req))
  | .delete auth projectId metricName => do
      httpDeleteProjectMetricAlias setup auth projectId metricName
      pure .done
  | .createProject auth name description => do pure (.project (← httpCreateProject setup auth name description))
  | .deleteProject auth projectId => do
      httpDeleteProject setup auth projectId
      pure .done

end MLRunX.MetricAliases
