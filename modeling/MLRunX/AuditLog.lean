import MLRunX.Auth
import MLRunX.Statements

namespace MLRunX.AuditLog

open Auth Commands Http Sqlite Statements

/-- A row of `audit_events` without its time, its metadata and the origin of the request. -/
structure AuditEvent where
  actorUserId : Option String
  actorKeyId : Option String
  projectId : Option String
  runId : Option String
  action : String
  resourceType : String
  resourceId : Option String
  outcome : String
  deriving DecidableEq, Repr

/-- Where a state keeps its audit events, and what their four foreign keys may name. -/
structure Ledger (σ : Type) where
  events : σ → List AuditEvent
  append : AuditEvent → σ → σ
  hasUser : σ → String → Bool
  hasKey : σ → String → Bool
  hasProject : σ → String → Bool
  hasRun : σ → String → Bool

variable {σ γ ε : Type} (L : Ledger σ)

def Ledger.Refers (event : AuditEvent) (s : σ) : Prop :=
  event.actorUserId.all (L.hasUser s) = true ∧ event.actorKeyId.all (L.hasKey s) = true ∧
    event.projectId.all (L.hasProject s) = true ∧ event.runId.all (L.hasRun s) = true

instance (event : AuditEvent) (s : σ) : Decidable (L.Refers event s) := by
  unfold Ledger.Refers
  infer_instance

def insertAuditEvent (fault : Option String) (event : AuditEvent) : Command σ SqliteError Unit :=
  execute fault (fun s =>
    if L.Refers event s then .ok ((), L.append event s) else .error (.database "FOREIGN KEY constraint failed"))

def auditActorIds (auth : AuthContext) : Option String × Option String :=
  if auth.isDevMode then (none, none)
  else if auth.isUiJwt then (authUserId auth, none)
  else (none, some auth.apiKey.id)

def auditEvent (auth : Option AuthContext) (projectId runId : Option String) (action resourceType : String)
    (resourceId : Option String) (outcome : String) : AuditEvent where
  actorUserId := auth.bind (fun auth => (auditActorIds auth).1)
  actorKeyId := auth.bind (fun auth => (auditActorIds auth).2)
  projectId := projectId
  runId := runId
  action := action
  resourceType := resourceType
  resourceId := resourceId
  outcome := outcome

def emitAuditEvent (fault : Option String) (event : AuditEvent) : Command σ ε Unit := do
  let _ ← attempt (insertAuditEvent L fault event)
  pure ()

def requireEndpointAccess (fault : Option String) (flags : EndpointRbacTier → Bool) (auth : AuthContext)
    (tier : EndpointRbacTier) (projectId runId : Option String) (action resourceType : String)
    (resourceId : Option String) : Command σ HttpError Unit :=
  match Auth.requireEndpointAccess auth flags tier projectId with
  | .ok _ => pure ()
  | .error e => do
      emitAuditEvent L fault (auditEvent (some auth) projectId runId action resourceType resourceId "denied")
      fail e

variable {L} {fault : Option String} {event : AuditEvent} {view : σ → γ}

theorem emitAuditEvent_eq (fault : Option String) (event : AuditEvent) (s : σ) :
    (emitAuditEvent L fault event : Command σ ε Unit) s =
      (.ok (), if fault = none ∧ L.Refers event s then L.append event s else s) := by
  cases fault with
  | some text => rfl
  | none =>
      by_cases h : L.Refers event s <;>
        simp [emitAuditEvent, insertAuditEvent, attempt, execute, bind, pure, h]

theorem leaves_emitAuditEvent (h : ∀ s, view (L.append event s) = view s) (fault : Option String) :
    Leaves view (emitAuditEvent L fault event : Command σ ε Unit) := by
  constructor
  intro s
  rw [emitAuditEvent_eq]
  split
  · exact h s
  · rfl

variable {flags : EndpointRbacTier → Bool} {auth : AuthContext} {tier : EndpointRbacTier}
  {projectId runId resourceId : Option String} {action resourceType : String}

theorem requireEndpointAccess_eq (h : Auth.requireEndpointAccess auth flags tier projectId = .ok ()) (s : σ) :
    requireEndpointAccess L fault flags auth tier projectId runId action resourceType resourceId s =
      (.ok (), s) := by
  simp only [requireEndpointAccess, h]
  rfl

theorem leaves_requireEndpointAccess (h : ∀ event s, view (L.append event s) = view s) :
    Leaves view (requireEndpointAccess L fault flags auth tier projectId runId action resourceType resourceId) := by
  simp only [requireEndpointAccess]
  cases Auth.requireEndpointAccess auth flags tier projectId with
  | ok _ => exact leaves_pure ()
  | error e => exact leaves_bind (leaves_emitAuditEvent (h _) fault) (fun _ => leaves_fail _)

end MLRunX.AuditLog
