import MLRunX.Runs
import MLRunX.UiAuth

namespace MLRunX.UiRequests

open Auth Commands Http KeyStore Memberships Runs Sqlite Statements Tables Text UiAuth UiTables

inductive RequestCredential
  | missing
  | apiKey
  | bearer (token : String)
  | uiSession (sessionToken : String) (csrfHeaderToken : Option String) (requireCsrf : Bool)
  deriving DecidableEq, Repr

/-- The endpoints that write users, sessions, projects or memberships. All
others leave this store alone. -/
inductive Action
  | createProject (name : String) (description : Option String)
  | deleteProject (projectId : String)
  | disableUser (userId : String)
  | enableUser (userId : String)
  | revokeSession (sessionId : String)
  | logout (sessionToken csrfToken : Option String)
  | other
  deriving DecidableEq, Repr

inductive Op
  | login (jwt bearer : Option String) (env : Env)
  | request (credential : RequestCredential) (action : Action) (env : Env)
  deriving DecidableEq, Repr

/-- The token by which a request asks to be taken for its subject. -/
def presentedJwt : Op → Option String
  | .login jwt bearer _ => ((jwt.map trim).filter (fun v => !v.isEmpty)).orElse (fun _ => bearer)
  | .request (.bearer token) _ _ => some token
  | .request _ _ _ => none

def Op.env : Op → Env
  | .login _ _ env => env
  | .request _ _ env => env

inductive Response
  | done
  | project (row : ProjectRow)
  | user (row : UserRow)
  deriving DecidableEq, Repr

inductive Reply
  | login (answer : Answer UiSessionIssue)
  | refused (error : HttpError)
  | served (auth : AuthContext) (answer : Answer Response)

/-- The user that a request was served for. -/
def Reply.actor : Reply → Option String
  | .served auth _ => authUserId auth
  | _ => none

abbrev Handler (α : Type) := Command UiStore HttpError α

variable (setup : Setup) (env : Env) (auth : AuthContext)

def missingKey : HttpError :=
  ⟨.unauthorized,
    "Authentication required. Use X-API-Key, Authorization: Bearer <token>, or a valid UI session cookie."⟩

def invalidKey : HttpError := ⟨.unauthorized, "Invalid API key, JWT token, or UI session."⟩

def rateLimited (retryAfter : Nat) : HttpError :=
  ⟨.tooManyRequests, s!"Too many failed authentication attempts. Retry in {retryAfter}s."⟩

def authMiddleware (credential : RequestCredential) : Handler AuthContext :=
  if setup.authDisabled then
    pure (.devMode env.now)
  else match env.retryAfter, credential with
    | some retryAfter, _ => fail (rateLimited retryAfter)
    | none, .missing => fail missingKey
    | none, .apiKey => match env.apiKey with
        | some key => pure (.ofApiKey key)
        | none => fail invalidKey
    | none, .bearer token => match env.apiKey with
        | some key => pure (.ofApiKey key)
        | none =>
            if setup.uiJwt.enabled then do
              let (key, projects, admin) ← mapError (fun _ => invalidKey) (authenticateUiJwt setup env token)
              pure (.ofUi key projects admin)
            else
              fail invalidKey
    | none, .uiSession sessionToken csrfHeaderToken requireCsrf => do
        let (key, projects, admin) ← mapError
          (fun e => if containsText "CSRF" e then ⟨.forbidden, "Invalid CSRF token."⟩ else invalidKey)
          (authenticateUiSession setup env sessionToken csrfHeaderToken requireCsrf)
        pure (.ofUi key projects admin)

def internal {α : Type} (x : Statement α) : Handler α := mapError (fun _ => internalError) x

def validatePathId (id name : String) : Answer Unit :=
  if id.isEmpty || 128 < byteLength id then
    .error ⟨.badRequest, s!"Invalid {name}: must be 1-128 characters"⟩
  else if !id.toList.all (fun c => c.isAlphanum || c == '-' || c == '_') then
    .error ⟨.badRequest, s!"Invalid {name}: only alphanumeric, dash, and underscore allowed"⟩
  else
    .ok ()

def requirePlatformAdminAccess : Answer Unit := do
  requireEndpointAccess auth setup.uiJwt.rbac .admin none
  if auth.isGlobal then .ok () else .error ⟨.forbidden, "Platform admin access required."⟩

def userNotFound (userId : String) : HttpError := ⟨.notFound, s!"User not found: '{userId}'"⟩

def projectNotFound (projectId : String) : HttpError := ⟨.notFound, s!"Project not found: '{projectId}'"⟩

def isUniqueProjectNameError : SqliteError → Bool
  | .database text => containsText "UNIQUE constraint failed: projects.name" text
  | .notFound _ => false

def createNamedProject (name : String) (description : Option String) : Handler ProjectRow :=
  mapError (fun e =>
    if isUniqueProjectNameError e then ⟨.conflict, s!"Project '{name}' already exists."⟩ else internalError)
    (createProject env name description)

def httpCreateProject (rawName : String) (description : Option String) : Handler Response := do
  let name := trim rawName
  if name.isEmpty then
    fail ⟨.badRequest, "Project name is required."⟩
  else if auth.isUiJwt then do
    ofExcept (auth.requireScope "write")
    match authUserId auth with
    | none => fail ⟨.forbidden, "Unable to resolve user identity for project creation."⟩
    | some userId => do
        let row ← createNamedProject env name description
        internal (grantProjectMembership env row.id userId .owner (some userId))
        pure (.project row)
  else do
    ofExcept (requireEndpointAccess auth setup.uiJwt.rbac .admin none)
    if !auth.isGlobal then
      fail ⟨.forbidden, "Project creation requires a global admin key or UI session."⟩
    else do
      let row ← createNamedProject env name description
      pure (.project row)

def requireUiProjectOwner (projectId : String) : Handler Unit :=
  if auth.isDevMode || !auth.isUiJwt then
    pure ()
  else match authUserId auth with
    | none => fail ⟨.forbidden, "Unable to resolve user identity for project authorization."⟩
    | some userId => do
        let memberships ← internal (listActiveProjectMemberships env.faults.relistMemberships userId)
        if memberships.any (fun m => m.projectId == projectId && m.role == .owner) then
          pure ()
        else
          fail ⟨.forbidden, "Access denied: only project owners can delete this project."⟩

def requireDeletionAccess (projectId : String) : Handler Unit :=
  if auth.isUiJwt then
    requireUiProjectOwner env auth projectId
  else if !auth.isGlobal then
    fail ⟨.forbidden, "Project deletion requires a global admin key or owner UI session."⟩
  else
    pure ()

def httpDeleteProject (projectId : String) : Handler Response := do
  ofExcept (validatePathId projectId "project_id")
  let project ← internal (getProjectById env projectId)
  match project with
  | none => fail (projectNotFound projectId)
  | some _ => do
      ofExcept (requireEndpointAccess auth setup.uiJwt.rbac .admin (some projectId))
      requireDeletionAccess env auth projectId
      mapError (fun e => match e with
        | .notFound what => ⟨.notFound, what⟩
        | .database _ => internalError) (deleteProject env projectId)
      pure .done

def rereadUser (userId : String) : Handler Response := do
  let user ← internal (getUserById env.faults.rereadUser userId)
  match user with
  | some user => pure (.user user)
  | none => fail (userNotFound userId)

/-- Disabling and enabling share the checks before the row is written. -/
def requireAdminAndUser (userId : String) : Handler Unit := do
  ofExcept (validatePathId userId "user_id")
  ofExcept (requirePlatformAdminAccess setup auth)
  let user ← internal (getUserById env.faults.userExists userId)
  match user with
  | some _ => pure ()
  | none => fail (userNotFound userId)

def httpAdminDisableUser (userId : String) : Handler Response := do
  requireAdminAndUser setup env auth userId
  let _ ← internal (setUserDisabled env userId true)
  let _ ← internal (revokeAllSessionsForUser env userId)
  rereadUser env userId

def httpAdminEnableUser (userId : String) : Handler Response := do
  requireAdminAndUser setup env auth userId
  let _ ← internal (setUserDisabled env userId false)
  rereadUser env userId

def httpAdminRevokeSession (sessionId : String) : Handler Response := do
  ofExcept (validatePathId sessionId "session_id")
  ofExcept (requirePlatformAdminAccess setup auth)
  let revoked ← internal (revokeAuthSessionById env sessionId)
  if revoked then
    pure .done
  else
    fail ⟨.notFound, s!"Session not found or already revoked: '{sessionId}'"⟩

def httpUiAuthLogout (sessionToken csrfToken : Option String) : Handler Response := do
  match sessionToken with
  | none => pure .done
  | some token => do
      mapError (fun e => ⟨if containsText "CSRF" e then .forbidden else .unauthorized, e⟩)
        (revokeUiSession setup env token csrfToken)
      pure .done

def httpUiAuthLogin (jwt bearer : Option String) : Handler UiSessionIssue :=
  match env.retryAfter with
  | some retryAfter => fail (rateLimited retryAfter)
  | none =>
      match ((jwt.map trim).filter (fun v => !v.isEmpty)).orElse (fun _ => bearer) with
      | none => fail ⟨.badRequest, "JWT is required (body `jwt` or Authorization: Bearer <token>)."⟩
      | some rawJwt => mapError (⟨.unauthorized, ·⟩) (createUiSessionFromJwt setup env rawJwt)

def handle : Action → Handler Response
  | .createProject name description => httpCreateProject setup env auth name description
  | .deleteProject projectId => httpDeleteProject setup env auth projectId
  | .disableUser userId => httpAdminDisableUser setup env auth userId
  | .enableUser userId => httpAdminEnableUser setup env auth userId
  | .revokeSession sessionId => httpAdminRevokeSession setup env auth sessionId
  | .logout sessionToken csrfToken => httpUiAuthLogout setup env sessionToken csrfToken
  | .other => pure .done

def step : Machine UiStore Op Reply
  | store, .login jwt bearer env =>
      (.login (httpUiAuthLogin setup env jwt bearer store).1, (httpUiAuthLogin setup env jwt bearer store).2)
  | store, .request credential action env =>
      match authMiddleware setup env credential store with
      | (.error e, store') => (.refused e, store')
      | (.ok auth, store') => (.served auth (handle setup env auth action store').1,
          (handle setup env auth action store').2)

variable {setup}

theorem authUserId_ofApiKey (key : ApiKey) : authUserId (.ofApiKey key) = none := rfl

theorem leaves_requireAdminAndUser {γ : Type} {view : UiStore → γ} (userId : String) :
    Leaves view (requireAdminAndUser setup env auth userId) := by
  refine leaves_bind (leaves_ofExcept _) (fun _ => leaves_bind (leaves_ofExcept _) (fun _ => ?_))
  refine leaves_bind (leaves_mapError (leaves_query _ _)) (fun user => ?_)
  cases user with
  | some user => exact leaves_pure _
  | none => exact leaves_fail _

theorem leaves_rereadUser {γ : Type} {view : UiStore → γ} (userId : String) :
    Leaves view (rereadUser env userId) := by
  refine leaves_bind (leaves_mapError (leaves_query _ _)) (fun user => ?_)
  cases user with
  | some user => exact leaves_pure _
  | none => exact leaves_fail _

theorem leaves_httpCreateProject (name : String) (description : Option String) :
    Leaves UiStore.besides (httpCreateProject setup env auth name description) := by
  have hcreate : Leaves UiStore.besides (createNamedProject env (trim name) description) :=
    leaves_mapError (leaves_createProject env _ _)
  simp only [httpCreateProject]
  split
  · exact leaves_fail _
  split
  · refine leaves_bind (leaves_ofExcept _) (fun _ => ?_)
    cases authUserId auth with
    | none => exact leaves_fail _
    | some userId =>
        refine leaves_bind hcreate (fun row => ?_)
        refine leaves_bind (leaves_mapError (leaves_grantProjectMembership env _ _ _ _)) (fun _ => ?_)
        exact leaves_pure _
  · refine leaves_bind (leaves_ofExcept _) (fun _ => ?_)
    split
    · exact leaves_fail _
    · exact leaves_bind hcreate (fun row => leaves_pure _)

theorem leaves_requireUiProjectOwner {γ : Type} {view : UiStore → γ} (projectId : String) :
    Leaves view (requireUiProjectOwner env auth projectId) := by
  simp only [requireUiProjectOwner]
  split
  · exact leaves_pure _
  · cases authUserId auth with
    | none => exact leaves_fail _
    | some userId =>
        refine leaves_bind (leaves_mapError (leaves_query _ _)) (fun memberships => ?_)
        split
        · exact leaves_pure _
        · exact leaves_fail _

theorem leaves_requireDeletionAccess {γ : Type} {view : UiStore → γ} (projectId : String) :
    Leaves view (requireDeletionAccess env auth projectId) := by
  simp only [requireDeletionAccess]
  split
  · exact leaves_requireUiProjectOwner env auth projectId
  split
  · exact leaves_fail _
  · exact leaves_pure _

theorem leaves_httpDeleteProject (projectId : String) :
    Leaves UiStore.besides (httpDeleteProject setup env auth projectId) := by
  refine leaves_bind (leaves_ofExcept _) (fun _ => leaves_bind (leaves_mapError (leaves_query _ _)) (fun project => ?_))
  cases project with
  | none => exact leaves_fail _
  | some project =>
      refine leaves_bind (leaves_ofExcept _) (fun _ =>
        leaves_bind (leaves_requireDeletionAccess env auth _) (fun _ => ?_))
      exact leaves_bind (leaves_mapError (leaves_deleteProject env _)) (fun _ => leaves_pure _)

variable {env}

theorem step_refused {s s' : UiStore} {credential : RequestCredential} {action : Action} {e : HttpError}
    (h : authMiddleware setup env credential s = (.error e, s')) :
    step setup s (.request credential action env) = (.refused e, s') := by
  simp only [step, h]

theorem step_served {s s' : UiStore} {credential : RequestCredential} {action : Action} {auth : AuthContext}
    (h : authMiddleware setup env credential s = (.ok auth, s')) :
    step setup s (.request credential action env) =
      (.served auth (handle setup env auth action s').1, (handle setup env auth action s').2) := by
  simp only [step, h]

end MLRunX.UiRequests
