import MLRunX.AuditLog
import MLRunX.Runs

namespace MLRunX.AuditTrail

open AuditLog Auth Commands Http Runs Sqlite

/-- The ids in the tables that audit events refer to, keys and runs with their projects, and the audit events. -/
structure Tables where
  users : List String
  apiKeys : List (String × Option String)
  projects : List String
  runs : List (String × String)
  auditEvents : List AuditEvent

def Tables.empty : Tables := ⟨[], [], [], [], []⟩

def hasKey (t : Tables) (keyId : String) : Bool := t.apiKeys.any (fun k => k.1 == keyId)

def hasRun (t : Tables) (runId : String) : Bool := t.runs.any (fun r => r.1 == runId)

def hasProject (t : Tables) (projectId : String) : Bool := t.projects.contains projectId

def trail : Ledger Tables where
  events := Tables.auditEvents
  append event t := { t with auditEvents := t.auditEvents ++ [event] }
  hasUser t userId := t.users.contains userId
  hasKey := hasKey
  hasProject := hasProject
  hasRun := hasRun

def clearRuns (gone : String → Bool) (event : AuditEvent) : AuditEvent :=
  { event with runId := event.runId.filter (fun id => !gone id) }

def clearProject (projectId : String) (ownedKey : String → Bool) (event : AuditEvent) : AuditEvent :=
  { event with
    actorKeyId := event.actorKeyId.filter (fun id => !ownedKey id)
    projectId := event.projectId.filter (fun id => !(id == projectId)) }

inductive Write
  | none
  | user (id : String)
  | project (id : String)
  | apiKey (id : String) (projectId : Option String)
  | run (id projectId : String)
  | deleteRun (runId : String)
  | deleteProject (projectId : String)

def deleteRun (runId : String) (t : Tables) : Tables :=
  { t with
    auditEvents := t.auditEvents.map (clearRuns (fun id => id == runId))
    runs := t.runs.filter (fun r => !(r.1 == runId)) }

/-- The runs of a project and its keys go with it, and the references of the audit events to them. -/
def deleteProject (projectId : String) (t : Tables) : Tables where
  users := t.users
  auditEvents := (t.auditEvents.map (clearRuns (fun id => t.runs.contains (id, projectId)))).map
    (clearProject projectId (fun id => t.apiKeys.contains (id, some projectId)))
  runs := t.runs.filter (fun r => !(r.2 == projectId))
  apiKeys := t.apiKeys.filter (fun k => !(k.2 == some projectId))
  projects := t.projects.filter (fun id => !(id == projectId))

def Write.apply : Write → Tables → Tables
  | .none, t => t
  | .user id, t => if t.users.contains id then t else { t with users := t.users ++ [id] }
  | .project id, t => if hasProject t id then t else { t with projects := t.projects ++ [id] }
  | .apiKey id projectId, t =>
      if hasKey t id || !projectId.all (hasProject t) then t else { t with apiKeys := t.apiKeys ++ [(id, projectId)] }
  | .run id projectId, t =>
      if hasRun t id || !hasProject t projectId then t else { t with runs := t.runs ++ [(id, projectId)] }
  | .deleteRun runId, t => AuditTrail.deleteRun runId t
  | .deleteProject projectId, t => if hasProject t projectId then AuditTrail.deleteProject projectId t else t

/-- The places where an audit event is emitted, with what they know by then. Denials come before any write. -/
inductive Site
  | requireEndpointAccess (projectId runId : Option String) (action resourceType : String) (resourceId : Option String)
  | requirePlatformAdminAccess (action resourceType : String) (resourceId : Option String)
  | httpCreateProject (projectId : String)
  | httpUpsertProjectMetricAlias (projectId : String)
  | httpDeleteProjectMetricAlias (projectId : String)
  | httpDeleteProject (projectId : String)
  | httpAdminListUsers
  | httpAdminListUserMemberships (userId : String)
  | httpAdminDisableUser (userId : String)
  | httpAdminEnableUser (userId : String)
  | httpAdminListSessions
  | httpAdminRevokeSession (sessionId : String)
  | httpAdminListAuditEvents
  | httpAdminRotateBootstrapKey
  | httpInitRun (runId projectId : String)
  | httpIngestBatch (runId projectId : String)
  | httpFinishRun (runId projectId : String)
  | httpDeleteRun (runId projectId : String)
  | httpCreateKeyDenied (projectId : Option String)
  | httpCreateKey (keyId : String) (projectId : Option String)
  | httpListKeysDenied
  | httpRevokeKeyDenied (keyId : String)
  | httpRevokeKey (keyId : String) (projectId : Option String)
  | httpCreateShareToken (runId projectId tokenResourceId : String)
  | httpRevokeShareToken (runId projectId tokenResourceId : String)
  | httpListRuns (requested : String)

def Site.event (auth : AuthContext) : Site → AuditEvent
  | .requireEndpointAccess projectId runId action resourceType resourceId =>
      auditEvent (some auth) projectId runId action resourceType resourceId "denied"
  | .requirePlatformAdminAccess action resourceType resourceId =>
      auditEvent (some auth) none none action resourceType resourceId "denied"
  | .httpCreateProject projectId =>
      auditEvent (some auth) (some projectId) none "project.create" "project" (some projectId) "success"
  | .httpUpsertProjectMetricAlias projectId =>
      auditEvent (some auth) (some projectId) none "project.metric_aliases.upsert" "project" (some projectId) "success"
  | .httpDeleteProjectMetricAlias projectId =>
      auditEvent (some auth) (some projectId) none "project.metric_aliases.delete" "project" (some projectId) "success"
  | .httpDeleteProject projectId =>
      auditEvent (some auth) (some projectId) none "project.delete" "project" (some projectId) "success"
  | .httpAdminListUsers => auditEvent (some auth) none none "admin.users.list" "user" none "success"
  | .httpAdminListUserMemberships userId =>
      auditEvent (some auth) none none "admin.user.memberships.list" "user" (some userId) "success"
  | .httpAdminDisableUser userId => auditEvent (some auth) none none "admin.user.disable" "user" (some userId) "success"
  | .httpAdminEnableUser userId => auditEvent (some auth) none none "admin.user.enable" "user" (some userId) "success"
  | .httpAdminListSessions => auditEvent (some auth) none none "admin.sessions.list" "auth_session" none "success"
  | .httpAdminRevokeSession sessionId =>
      auditEvent (some auth) none none "admin.session.revoke" "auth_session" (some sessionId) "success"
  | .httpAdminListAuditEvents => auditEvent (some auth) none none "admin.audit.list" "audit_event" none "success"
  | .httpAdminRotateBootstrapKey =>
      auditEvent (some auth) none none "admin.bootstrap_key.rotate" "bootstrap_key" (some "bootstrap") "success"
  | .httpInitRun runId projectId =>
      auditEvent (some auth) (some projectId) (some runId) "run.init" "run" (some runId) "success"
  | .httpIngestBatch runId projectId =>
      auditEvent (some auth) (some projectId) (some runId) "run.metadata.update" "run" (some runId) "success"
  | .httpFinishRun runId projectId =>
      auditEvent (some auth) (some projectId) (some runId) "run.finish" "run" (some runId) "success"
  | .httpDeleteRun runId projectId =>
      auditEvent (some auth) (some projectId) (some runId) "run.delete" "run" (some runId) "success"
  | .httpCreateKeyDenied projectId => auditEvent (some auth) projectId none "api_key.create" "api_key" none "denied"
  | .httpCreateKey keyId projectId =>
      auditEvent (some auth) projectId none "api_key.create" "api_key" (some keyId) "success"
  | .httpListKeysDenied => auditEvent (some auth) none none "api_key.list" "api_key" none "denied"
  | .httpRevokeKeyDenied keyId => auditEvent (some auth) none none "api_key.revoke" "api_key" (some keyId) "denied"
  | .httpRevokeKey keyId projectId =>
      auditEvent (some auth) projectId none "api_key.revoke" "api_key" (some keyId) "success"
  | .httpCreateShareToken runId projectId tokenResourceId =>
      auditEvent (some auth) (some projectId) (some runId) "share_token.create" "share_token"
        (some tokenResourceId) "success"
  | .httpRevokeShareToken runId projectId tokenResourceId =>
      auditEvent (some auth) (some projectId) (some runId) "share_token.revoke" "share_token"
        (some tokenResourceId) "success"
  | .httpListRuns requested => auditEvent (some auth) (some requested) none "runs.list" "run" none "denied"

def Site.write : Site → Write
  | .httpCreateProject projectId => .project projectId
  | .httpDeleteProject projectId => .deleteProject projectId
  | .httpAdminRotateBootstrapKey => .apiKey "bootstrap" none
  | .httpInitRun runId projectId => .run runId projectId
  | .httpDeleteRun runId _ => .deleteRun runId
  | .httpCreateKey keyId projectId => .apiKey keyId projectId
  | _ => .none

def Site.Reached (t : Tables) : Site → Prop
  | .httpCreateProject projectId => hasProject t projectId = false
  | .httpUpsertProjectMetricAlias projectId | .httpDeleteProjectMetricAlias projectId | .httpDeleteProject projectId =>
      hasProject t projectId = true
  | .httpInitRun runId projectId => hasRun t runId = false ∧ hasProject t projectId = true
  | .httpIngestBatch runId projectId | .httpFinishRun runId projectId | .httpDeleteRun runId projectId
  | .httpCreateShareToken runId projectId _ | .httpRevokeShareToken runId projectId _ => (runId, projectId) ∈ t.runs
  | _ => True

instance (t : Tables) : DecidablePred (Site.Reached t) := fun site => by
  cases site <;> unfold Site.Reached <;> infer_instance

/-- The handlers between their writes and their events, and the events that were emitted. -/
structure State where
  tables : Tables
  flying : List (AuthContext × Site)
  emitted : List AuditEvent

inductive Step
  | write (w : Write)
  | arrive (auth : AuthContext) (site : Site)
  | emit (n : Nat)

def step : Machine State Step Unit
  | s, .write w => ((), { s with tables := w.apply s.tables })
  | s, .arrive auth site =>
      ((), if site.Reached s.tables then
          { s with tables := site.write.apply s.tables, flying := s.flying ++ [(auth, site)] }
        else s)
  | s, .emit n =>
      match s.flying[n]? with
      | none => ((), s)
      | some (auth, site) =>
          ((), { tables := ((emitAuditEvent trail none (site.event auth) : Command Tables HttpError Unit) s.tables).2
                 flying := s.flying.eraseIdx n
                 emitted := s.emitted ++ [site.event auth] })

def reached (steps : List Step) : State := after step ⟨.empty, [], []⟩ steps

end MLRunX.AuditTrail
