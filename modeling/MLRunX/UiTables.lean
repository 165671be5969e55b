import MLRunX.Memberships
import MLRunX.Statements
import MLRunX.Tables
import MLRunX.Text

namespace MLRunX.UiTables

open Auth Commands Memberships Sqlite Statements Tables Text

structure UserRow where
  id : String
  email : Option String
  displayName : Option String
  authProvider : String
  externalSubject : String
  disabledAt : Option Nat
  isPlatformAdmin : Bool
  deriving DecidableEq, Repr

def UserRow.clash (a b : UserRow) : Prop :=
  a.id = b.id ∨ (a.authProvider = b.authProvider ∧ a.externalSubject = b.externalSubject)

instance : DecidableRel UserRow.clash := fun a b => by unfold UserRow.clash; infer_instance

theorem UserRow.clash_setWhere {p : UserRow → Bool} {g : UserRow → UserRow} (hid : ∀ r, (g r).id = r.id)
    (hp : ∀ r, (g r).authProvider = r.authProvider) (hs : ∀ r, (g r).externalSubject = r.externalSubject)
    (a b : UserRow) (h : UserRow.clash (setWhere p g a) (setWhere p g b)) : UserRow.clash a b := by
  simpa only [UserRow.clash, setWhere_keeps UserRow.id hid, setWhere_keeps UserRow.authProvider hp,
    setWhere_keeps UserRow.externalSubject hs] using h

structure ProjectRow where
  id : String
  name : String
  description : Option String
  deriving DecidableEq, Repr

def ProjectRow.clash (a b : ProjectRow) : Prop := a.id = b.id ∨ a.name = b.name

instance : DecidableRel ProjectRow.clash := fun a b => by unfold ProjectRow.clash; infer_instance

structure MembershipRow where
  id : String
  projectId : String
  userId : String
  role : Role
  grantedByUserId : Option String
  revokedAt : Option Nat
  deriving DecidableEq, Repr

/-- A user has one active membership of a project at most. -/
def MembershipRow.clash (a b : MembershipRow) : Prop :=
  a.id = b.id ∨ (a.projectId = b.projectId ∧ a.userId = b.userId ∧ a.revokedAt = none ∧ b.revokedAt = none)

instance : DecidableRel MembershipRow.clash := fun a b => by unfold MembershipRow.clash; infer_instance

theorem MembershipRow.clash_setWhere {p : MembershipRow → Bool} {g : MembershipRow → MembershipRow}
    (hid : ∀ r, (g r).id = r.id) (hp : ∀ r, (g r).projectId = r.projectId) (hu : ∀ r, (g r).userId = r.userId)
    (hrevoked : ∀ r, (g r).revokedAt ≠ none) (a b : MembershipRow)
    (h : MembershipRow.clash (setWhere p g a) (setWhere p g b)) : MembershipRow.clash a b := by
  have hactive : ∀ r, (setWhere p g r).revokedAt = none → r.revokedAt = none := by
    intro r hr
    simp only [setWhere] at hr
    split at hr
    · exact absurd hr (hrevoked r)
    · exact hr
  simp only [MembershipRow.clash, setWhere_keeps MembershipRow.id hid,
    setWhere_keeps MembershipRow.projectId hp, setWhere_keeps MembershipRow.userId hu] at h
  exact h.imp_right (fun h => ⟨h.1, h.2.1, hactive a h.2.2.1, hactive b h.2.2.2⟩)

structure AuthSessionRow where
  id : String
  userId : String
  tokenHash : String
  csrfHash : String
  expiresAt : Nat
  revokedAt : Option Nat
  deriving DecidableEq, Repr

def AuthSessionRow.clash (a b : AuthSessionRow) : Prop := a.id = b.id ∨ a.tokenHash = b.tokenHash

instance : DecidableRel AuthSessionRow.clash := fun a b => by unfold AuthSessionRow.clash; infer_instance

theorem AuthSessionRow.clash_setWhere {p : AuthSessionRow → Bool} {g : AuthSessionRow → AuthSessionRow}
    (hid : ∀ r, (g r).id = r.id) (ht : ∀ r, (g r).tokenHash = r.tokenHash) (a b : AuthSessionRow)
    (h : AuthSessionRow.clash (setWhere p g a) (setWhere p g b)) : AuthSessionRow.clash a b := by
  simpa only [AuthSessionRow.clash, setWhere_keeps AuthSessionRow.id hid,
    setWhere_keeps AuthSessionRow.tokenHash ht] using h

/-- A line of the log about a membership that was granted unasked. -/
structure Provision where
  userId : String
  projectId : String
  projectName : String
  deriving DecidableEq, Repr

structure UiStore where
  users : Table UserRow UserRow.clash
  projects : Table ProjectRow ProjectRow.clash
  memberships : Table MembershipRow MembershipRow.clash
  sessions : Table AuthSessionRow AuthSessionRow.clash
  log : List Provision

def UiStore.empty : UiStore := ⟨.empty, .empty, .empty, .empty, []⟩

abbrev Statement (α : Type) := Command UiStore SqliteError α

/-- Which statements of a request the database refuses, and with which text. -/
structure Faults where
  findUser : Option String := none
  writeUser : Option String := none
  listMemberships : Option String := none
  findProject : Option String := none
  insertProject : Option String := none
  readProject : Option String := none
  revokeMembership : Option String := none
  insertMembership : Option String := none
  relistMemberships : Option String := none
  findEmail : Option String := none
  writeAdmin : Option String := none
  readAdmin : Option String := none
  insertSession : Option String := none
  findSession : Option String := none
  findLegacySession : Option String := none
  touchSession : Option String := none
  revokeSessions : Option String := none
  userExists : Option String := none
  writeDisabled : Option String := none
  rereadUser : Option String := none
  deleteProject : Option String := none
  deriving DecidableEq, Repr

/-- What the environment adds to a request: the time, the wait that the rate
limiter imposes, the API key that the presented token is, the generated ids and
tokens, and the failures of the database. -/
structure Env where
  now : Nat
  retryAfter : Option Nat := none
  apiKey : Option ApiKey := none
  userId : String := "user"
  projectId : String := "project"
  membershipId : String := "membership"
  sessionId : String := "session"
  sessionToken : String := "token"
  csrfToken : String := "csrf"
  faults : Faults := {}
  deriving DecidableEq, Repr

variable (env : Env)

def getOrCreateUserIdentity (authProvider externalSubject : String) (email displayName : Option String) :
    Statement String := do
  let existing ← query env.faults.findUser (fun s =>
    (s.users.find (fun r => r.authProvider == authProvider && r.externalSubject == externalSubject)).map
      UserRow.id)
  match existing with
  | some userId =>
      execute env.faults.writeUser (fun s => .ok (userId, { s with
        users := s.users.update
          (setWhere (fun r => r.id == userId) (fun r => { r with
            email := email.orElse (fun _ => r.email)
            displayName := displayName.orElse (fun _ => r.displayName) }))
          (UserRow.clash_setWhere (fun _ => rfl) (fun _ => rfl) (fun _ => rfl)) }))
  | none =>
      execute env.faults.writeUser (fun s =>
        match s.users.insert ⟨env.userId, email, displayName, authProvider, externalSubject, none, false⟩ with
        | some users => .ok (env.userId, { s with users := users })
        | none => .error (uniqueViolation "users.id"))

def getUserById (fault : Option String) (userId : String) : Statement (Option UserRow) :=
  query fault (fun s => s.users.find (fun r => r.id == userId))

def setUserDisabled (userId : String) (disabled : Bool) : Statement Bool :=
  execute env.faults.writeDisabled (fun s => .ok
    (s.users.rows.any (fun r => r.id == userId && r.disabledAt.isSome != disabled), { s with
      users := s.users.update
        (setWhere (fun r => r.id == userId && r.disabledAt.isSome != disabled)
          (fun r => { r with disabledAt := if disabled then some env.now else none }))
        (UserRow.clash_setWhere (fun _ => rfl) (fun _ => rfl) (fun _ => rfl)) }))

def syncPlatformAdminFlag (userId : String) (adminEmail : Option String) : Statement Bool := do
  let email ← query env.faults.findEmail (fun s =>
    (s.users.find (fun r => r.id == userId)).bind UserRow.email)
  let isAdmin := match email, adminEmail with
    | some ue, some ae => eqIgnoreAsciiCase ue (trim ae)
    | _, _ => false
  execute env.faults.writeAdmin (fun s => .ok (isAdmin, { s with
    users := s.users.update
      (setWhere (fun r => r.id == userId) (fun r => { r with isPlatformAdmin := isAdmin }))
      (UserRow.clash_setWhere (fun _ => rfl) (fun _ => rfl) (fun _ => rfl)) }))

def isUserPlatformAdmin (userId : String) : Statement Bool :=
  query env.faults.readAdmin (fun s =>
    ((s.users.find (fun r => r.id == userId)).map UserRow.isPlatformAdmin).getD false)

def getOrCreateProject (name : String) : Statement String := do
  let existing ← attempt (query env.faults.findProject (fun s => s.projects.find (fun r => r.name == name)))
  match existing.join with
  | some project => pure project.id
  | none =>
      execute env.faults.insertProject (fun s => match s.projects.insert ⟨env.projectId, name, none⟩ with
        | some projects => .ok (env.projectId, { s with projects := projects })
        | none => .error (uniqueViolation "projects.name"))

def createProject (name : String) (description : Option String) : Statement ProjectRow := do
  execute env.faults.insertProject (fun s => match s.projects.insert ⟨env.projectId, name, description⟩ with
    | some projects => .ok ((), { s with projects := projects })
    | none =>
        if s.projects.rows.any (fun r => r.id == env.projectId) then .error (uniqueViolation "projects.id")
        else .error (uniqueViolation "projects.name"))
  let row ← query env.faults.readProject (fun s => s.projects.find (fun r => r.id == env.projectId))
  match row with
  | some row => pure row
  | none => fail (.database "Query returned no rows")

def getProjectById (projectId : String) : Statement (Option ProjectRow) :=
  query env.faults.readProject (fun s => s.projects.find (fun r => r.id == projectId))

/-- The deletion takes the memberships along. What else a project owns is
outside this store. -/
def deleteProject (projectId : String) : Statement Unit :=
  execute env.faults.deleteProject (fun s =>
    if s.projects.rows.any (fun r => r.id == projectId) then
      .ok ((), { s with
        memberships := s.memberships.deleteWhere (fun r => r.projectId == projectId)
        projects := s.projects.deleteWhere (fun r => r.id == projectId) })
    else
      .error (.notFound s!"Project not found: '{projectId}'"))

def grantProjectMembership (projectId userId : String) (role : Role) (grantedByUserId : Option String) :
    Statement Unit := do
  execute env.faults.revokeMembership (fun s => .ok ((), { s with
    memberships := s.memberships.update
      (setWhere (fun r => r.projectId == projectId && r.userId == userId && r.revokedAt.isNone)
        (fun r => { r with revokedAt := some env.now }))
      (MembershipRow.clash_setWhere (fun _ => rfl) (fun _ => rfl) (fun _ => rfl) nofun) }))
  execute env.faults.insertMembership (fun s =>
    match s.memberships.insert ⟨env.membershipId, projectId, userId, role, grantedByUserId, none⟩ with
    | some memberships => .ok ((), { s with memberships := memberships })
    | none => .error (uniqueViolation "project_memberships.id"))

def activeMemberships (s : UiStore) (userId : String) : List ProjectMembershipRow :=
  (s.memberships.select (fun r => r.userId == userId && r.revokedAt.isNone)).map (fun r => ⟨r.projectId, r.role⟩)

def listActiveProjectMemberships (fault : Option String) (userId : String) :
    Statement (List ProjectMembershipRow) :=
  query fault (activeMemberships · userId)

def insertAuthSession (userId tokenHash csrfHash : String) (expiresAt : Nat) : Statement Unit :=
  execute env.faults.insertSession (fun s =>
    match s.sessions.insert ⟨env.sessionId, userId, tokenHash, csrfHash, expiresAt, none⟩ with
    | some sessions => .ok ((), { s with sessions := sessions })
    | none => .error (uniqueViolation "auth_sessions"))

def getActiveAuthSessionByTokenHash (fault : Option String) (tokenHash : String) :
    Statement (Option AuthSessionRow) :=
  query fault (fun s => s.sessions.find (fun r =>
    r.tokenHash == tokenHash && r.revokedAt.isNone && decide (env.now < r.expiresAt)))

def touchAuthSession (sessionId : String) (ttlSeconds : Nat) : Statement Unit :=
  execute env.faults.touchSession (fun s => .ok ((), { s with
    sessions := s.sessions.update
      (setWhere (fun r => r.id == sessionId) (fun r => { r with expiresAt := env.now + max ttlSeconds 1 }))
      (AuthSessionRow.clash_setWhere (fun _ => rfl) (fun _ => rfl)) }))

/-- The three ways to revoke sessions differ in which of the active ones. -/
def revokeAuthSessions (p : AuthSessionRow → Bool) : Statement Nat :=
  execute env.faults.revokeSessions (fun s => .ok
    ((s.sessions.select (fun r => p r && r.revokedAt.isNone)).length, { s with
      sessions := s.sessions.update
        (setWhere (fun r => p r && r.revokedAt.isNone) (fun r => { r with revokedAt := some env.now }))
        (AuthSessionRow.clash_setWhere (fun _ => rfl) (fun _ => rfl)) }))

def revokeAuthSessionByTokenHash (tokenHash : String) : Statement Bool := do
  let changed ← revokeAuthSessions env (fun r => r.tokenHash == tokenHash)
  pure (decide (0 < changed))

def revokeAuthSessionById (sessionId : String) : Statement Bool := do
  let changed ← revokeAuthSessions env (fun r => r.id == sessionId)
  pure (decide (0 < changed))

def revokeAllSessionsForUser (userId : String) : Statement Nat :=
  revokeAuthSessions env (fun r => r.userId == userId)

def UiStore.identities (s : UiStore) : Table UserRow UserRow.clash × Table AuthSessionRow AuthSessionRow.clash :=
  (s.users, s.sessions)

/-- What statements about projects and memberships leave alone. -/
def UiStore.besides (s : UiStore) :
    (Table UserRow UserRow.clash × Table AuthSessionRow AuthSessionRow.clash) × List Provision :=
  (s.identities, s.log)

theorem log_eq {ε α : Type} {x : Command UiStore ε α} (h : Leaves UiStore.besides x) (s : UiStore) :
    (x s).2.log = s.log := by
  have h := h.shows s
  generalize (x s).2 = s' at h ⊢
  exact congrArg Prod.snd h

/-- The part of the store that says what belongs to whom. -/
def UiStore.holdings (s : UiStore) :
    Table ProjectRow ProjectRow.clash × Table MembershipRow MembershipRow.clash × List Provision :=
  (s.projects, s.memberships, s.log)

theorem leaves_getOrCreateProject (name : String) : Leaves UiStore.besides (getOrCreateProject env name) := by
  refine leaves_bind (leaves_attempt (leaves_query _ _)) (fun existing => ?_)
  cases existing.join with
  | some project => exact leaves_pure _
  | none =>
      apply leaves_execute
      intro s a s' h
      split at h <;> cases h
      rfl

theorem leaves_createProject (name : String) (description : Option String) :
    Leaves UiStore.besides (createProject env name description) := by
  refine leaves_bind (leaves_execute ?_) (fun _ => leaves_bind (leaves_query _ _) (fun row => ?_))
  · intro s a s' h
    split at h
    · cases h
      rfl
    · split at h <;> cases h
  · cases row with
    | some row => exact leaves_pure _
    | none => exact leaves_fail _

theorem leaves_deleteProject (projectId : String) : Leaves UiStore.besides (deleteProject env projectId) := by
  apply leaves_execute
  intro s a s' h
  split at h <;> cases h
  rfl

theorem leaves_grantProjectMembership (projectId userId : String) (role : Role) (grantedBy : Option String) :
    Leaves UiStore.besides (grantProjectMembership env projectId userId role grantedBy) := by
  refine leaves_bind (leaves_execute ?_) (fun _ => leaves_execute ?_)
  · intro s a s' h
    cases h
    rfl
  · intro s a s' h
    split at h <;> cases h
    rfl

theorem leaves_getOrCreateUserIdentity (provider subject : String) (email displayName : Option String) :
    Leaves UiStore.holdings (getOrCreateUserIdentity env provider subject email displayName) := by
  refine leaves_bind (leaves_query _ _) (fun existing => ?_)
  cases existing with
  | some userId =>
      apply leaves_execute
      intro s a s' h
      cases h
      rfl
  | none =>
      apply leaves_execute
      intro s a s' h
      split at h <;> cases h
      rfl

theorem leaves_setUserDisabled (userId : String) (disabled : Bool) :
    Leaves UiStore.holdings (setUserDisabled env userId disabled) := by
  apply leaves_execute
  intro s a s' h
  cases h
  rfl

theorem leaves_syncPlatformAdminFlag (userId : String) (adminEmail : Option String) :
    Leaves UiStore.holdings (syncPlatformAdminFlag env userId adminEmail) := by
  refine leaves_bind (leaves_query _ _) (fun email => leaves_execute ?_)
  intro s a s' h
  cases h
  rfl

theorem leaves_insertAuthSession (userId tokenHash csrfHash : String) (expiresAt : Nat) :
    Leaves UiStore.holdings (insertAuthSession env userId tokenHash csrfHash expiresAt) := by
  apply leaves_execute
  intro s a s' h
  split at h <;> cases h
  rfl

theorem leaves_touchAuthSession (sessionId : String) (ttlSeconds : Nat) :
    Leaves UiStore.holdings (touchAuthSession env sessionId ttlSeconds) := by
  apply leaves_execute
  intro s a s' h
  cases h
  rfl

theorem leaves_revokeAuthSessions (p : AuthSessionRow → Bool) :
    Leaves UiStore.holdings (revokeAuthSessions env p) := by
  apply leaves_execute
  intro s a s' h
  cases h
  rfl

end MLRunX.UiTables
