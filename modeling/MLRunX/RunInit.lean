import MLRunX.Ingest
import MLRunX.UiRequests

namespace MLRunX.RunInit

open Auth Commands Http Ingest IngestRequest MetadataKey RunTables Sqlite Statements Tables UiTables

/-- The columns of a run that hold times, as the database writes them. -/
structure RunTimes where
  createdAt : String
  updatedAt : String
  finishedAt : Option String
  deriving DecidableEq, Repr

/-- The users and projects, the runs, and the times of each run. -/
structure MetadataStore where
  ui : UiStore
  db : Database
  times : String → RunTimes

def MetadataStore.empty : MetadataStore := ⟨.empty, .empty, fun _ => ⟨"", "", none⟩⟩

abbrev Handler (α : Type) := Command MetadataStore HttpError α

def onUi {ε α : Type} (x : Command UiStore ε α) : Command MetadataStore ε α :=
  zoom MetadataStore.ui (fun ui s => { s with ui }) x

def onDb {ε α : Type} (x : Command Database ε α) : Command MetadataStore ε α :=
  zoom MetadataStore.db (fun db s => { s with db }) x

/-- A JSON value by its depth and its encoding, which for a text is the text itself. -/
structure ConfigValue where
  depth : Nat
  encoded : String
  deriving DecidableEq, Repr

/-- The tags and the configuration stand in the order in which their maps are
iterated over. -/
structure InitRunHttpRequest where
  runId : Option String
  projectId : Option String
  project : Option String
  name : Option String
  tags : List (String × String)
  config : List (String × ConfigValue)
  deriving DecidableEq, Repr

structure InitRunHttpResponse where
  runId : String
  offline : Bool
  deriving DecidableEq, Repr

structure InitFaults where
  runExists : Option String := none
  getRun : Option String := none
  readProject : Option String := none
  createRun : Option String := none
  tags : Nat → Option String := fun _ => none
  params : Nat → Option String := fun _ => none
  event : Nat → Option String := fun _ => none

/-- What the environment adds to a request: the generated id, the wait that the
rate limiter imposes, the owner that the table of keys names for the caller's
key, the time, and the failures of the database. -/
structure InitEnv where
  generatedId : String
  retryAfter : Option Nat := none
  keyOwner : Option String := none
  now : String
  faults : InitFaults := {}

def stringifyConfigParamValue (value : ConfigValue) : Except String String :=
  if metadataMaxDepth < value.depth then .error s!"config value exceeds max depth {metadataMaxDepth}"
  else match validateParamValue value.encoded with
    | .error err => .error err
    | .ok () => .ok value.encoded

def validateInitTag (maxTagValueLen : Nat) (tag : String × String) : Answer (String × String) :=
  match canonicalizeMetadataKey tag.1 "tags" with
  | .error err => .error (badRequest s!"Invalid initial tag '{tag.1}': {err}")
  | .ok key => match validateTagValue tag.2 maxTagValueLen with
      | .error err => .error (badRequest s!"Invalid initial tag '{tag.1}': {err}")
      | .ok () => .ok (key, tag.2)

def validateInitParam (param : String × ConfigValue) : Answer (String × String) :=
  match canonicalizeMetadataKey param.1 "parameters" with
  | .error err => .error (badRequest s!"Invalid config key '{param.1}': {err}")
  | .ok key => match stringifyConfigParamValue param.2 with
      | .error err => .error (badRequest s!"Invalid config value for '{param.1}': {err}")
      | .ok text => .ok (key, text)

def runCreator (auth : AuthContext) (keyOwner : Option String) : Option String × Option String :=
  if auth.isUiJwt then (none, authUserId auth)
  else if auth.isDevMode then (none, none)
  else (some auth.apiKey.id, keyOwner)

def runExists (fault : Option String) (runId : String) : Command MetadataStore SqliteError Bool :=
  onDb (query fault (fun db => (db.findRun runId).isSome))

def internal {α : Type} (x : Command MetadataStore SqliteError α) : Handler α := mapError (fun _ => internalError) x

variable (flags : EndpointRbacTier → Bool) (maxTagValueLen : Nat) (auth : AuthContext) (env : InitEnv)

def reinitialize (runId : String) : Handler InitRunHttpResponse := do
  let existing ← attempt (onDb (getRun env.faults.getRun runId))
  match existing with
  | none => pure ⟨runId, false⟩
  | some run => do
      ofExcept (requireEndpointAccess auth flags .write (some run.projectId))
      ofExcept (requireUiRunOwner auth run)
      ofExcept (requireApiKeyRunOwnerForMutation auth run "reinitialize")
      pure ⟨runId, false⟩

def getProjectNameById (projectId : String) : Command MetadataStore SqliteError (Option String) :=
  onUi (query env.faults.readProject (fun s => (s.projects.find (fun r => r.id == projectId)).map ProjectRow.name))

def resolveProject (req : InitRunHttpRequest) : Handler String :=
  match req.projectId with
  | none => fail (badRequest "project_id is required. Create a project first via POST /api/v1/projects.")
  | some projectId => do
      let name ← internal (getProjectNameById env projectId)
      match name with
      | none => fail ⟨.notFound, s!"Project not found: '{projectId}'"⟩
      | some name =>
          if req.project.all (fun project => project == name) then
            pure projectId
          else
            fail (badRequest
              s!"project_id '{projectId}' does not match project name '{req.project.getD default}'")

def stampRun (runId : String) : Handler Unit :=
  fun s => (.ok (), { s with times := Function.update s.times runId ⟨env.now, env.now, none⟩ })

def insertInitEvent (runId : String) : Handler (Option Nat) :=
  attempt (onDb (insertRunEvents env.faults.event runId [⟨"info", "system", "Run initialized", some 0, none⟩]))

def insertRun (runId projectId : String) (name : Option String) (tags params : List (String × String)) :
    Handler InitRunHttpResponse := do
  internal (onDb (createRun env.faults.createRun runId projectId name
    (runCreator auth env.keyOwner).1 (runCreator auth env.keyOwner).2))
  stampRun env runId
  internal (onDb (if tags.isEmpty then pure () else setTags env.faults.tags runId tags))
  let _ ← internal (onDb (if params.isEmpty then pure 0 else insertParams env.faults.params runId params))
  let _ ← insertInitEvent env runId
  pure ⟨runId, false⟩

def startRun (req : InitRunHttpRequest) (runId : String) : Handler InitRunHttpResponse := do
  let projectId ← resolveProject env req
  ofExcept (requireEndpointAccess auth flags .write (some projectId))
  ofExcept (checkRateLimit env.retryAfter)
  let tags ← ofExcept (req.tags.mapM (validateInitTag maxTagValueLen))
  let params ← ofExcept (req.config.mapM validateInitParam)
  insertRun auth env runId projectId req.name tags params

def httpInitRun (req : InitRunHttpRequest) : Handler InitRunHttpResponse := do
  let runId := req.runId.getD env.generatedId
  let found ← attempt (runExists env.faults.runExists runId)
  if found.getD false then reinitialize flags auth env runId
  else startRun flags maxTagValueLen auth env req runId

theorem leaves_existing (runId : String) : Leaves MetadataStore.db ( reinitialize flags auth env runId) := by
  have hget : Leaves MetadataStore.db (onDb (getRun env.faults.getRun runId)) :=
    ⟨fun s => (leaves_getRun env.faults.getRun runId).shows s.db⟩
  apply leaves_bind (leaves_attempt hget)
  intro existing
  cases existing with
  | none => exact leaves_pure _
  | some run =>
      refine leaves_bind (leaves_ofExcept _) (fun _ => leaves_bind (leaves_ofExcept _) (fun _ => ?_))
      exact leaves_bind (leaves_ofExcept _) (fun _ => leaves_pure _)

theorem leaves_resolveProject (req : InitRunHttpRequest) : Leaves MetadataStore.db (resolveProject env req) := by
  rw [resolveProject]
  split
  · exact leaves_fail _
  · apply leaves_bind (leaves_mapError ⟨fun _ => rfl⟩)
    intro name
    split
    · exact leaves_fail _
    · split
      · exact leaves_pure _
      · exact leaves_fail _

theorem httpInitRun_absent (req : InitRunHttpRequest) {s : MetadataStore}
    (h : s.db.findRun (req.runId.getD env.generatedId) = none) :
    httpInitRun flags maxTagValueLen auth env req s =
      startRun flags maxTagValueLen auth env req (req.runId.getD env.generatedId) s := by
  have hfound : ∃ found, (attempt (runExists env.faults.runExists (req.runId.getD env.generatedId)) :
      Handler (Option Bool)) s = (.ok found, s) ∧ found.getD false = false := by
    cases env.faults.runExists with
    | some text => exact ⟨none, rfl, rfl⟩
    | none =>
        refine ⟨some false, ?_, rfl⟩
        simp only [attempt, runExists, onDb, zoom, query, statement_none, h, Option.isSome_none]
        rfl
  obtain ⟨found, hattempt, hfalse⟩ := hfound
  rw [httpInitRun, bind_ok hattempt, hfalse, if_neg Bool.false_ne_true]

end MLRunX.RunInit
