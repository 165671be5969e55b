import MLRunX.KeyStore
import MLRunX.UiTables

namespace MLRunX.UiAuth

open Auth Commands Http KeyStore Memberships Sqlite Statements Tables Text UiTables

inductive UiJwtAlgorithm
  | hs256 | rs256 | es256
  deriving DecidableEq, Repr

structure UiJwtClaims where
  sub : Option String
  userId : Option String
  email : Option String
  name : Option String
  deriving DecidableEq, Repr

def UiJwtClaims.subject (claims : UiJwtClaims) : String :=
  (((claims.sub.orElse (fun _ => claims.userId)).map trim).getD "")

structure UiJwtConfig where
  enabled : Bool
  secret : Option String
  publicKeyPem : Option String
  algorithm : UiJwtAlgorithm
  autoProvisionProject : Bool
  personalProjectPrefix : String
  issuer : Option String
  audience : Option String
  provider : String
  sessionTtlSeconds : Nat
  adminEmail : Option String
  rbac : EndpointRbacTier → Bool

/-- The library that checks signatures, issuers, audiences and expiry dates. -/
structure JwtLibrary where
  fromRsaPem : String → Except String Unit
  fromEcPem : String → Except String Unit
  decode : (algorithm : UiJwtAlgorithm) → (key issuer audience : String) → (now : Nat) → (token : String) →
    Except String UiJwtClaims

/-- What the store is configured with and relies on. -/
structure Setup where
  authDisabled : Bool
  uiJwt : UiJwtConfig
  hashing : Hashing
  jwt : JwtLibrary

abbrev Program (α : Type) := Command UiStore String α

variable (setup : Setup) (env : Env)

def failing {α : Type} (context : String) (x : Statement α) : Program α :=
  mapError (fun e => context ++ ": " ++ e.message) x

def decodingKey : Except String String :=
  match setup.uiJwt.algorithm with
  | .hs256 => match setup.uiJwt.secret with
      | some secret => .ok secret
      | none => .error "MLRUNX_JWT_SECRET is not configured."
  | .rs256 => match setup.uiJwt.publicKeyPem with
      | some pem => ((setup.jwt.fromRsaPem pem).map (fun _ => pem)).mapError ("Invalid RSA public key PEM: " ++ ·)
      | none => .error "MLRUNX_JWT_PUBLIC_KEY_PEM is not configured."
  | .es256 => match setup.uiJwt.publicKeyPem with
      | some pem => ((setup.jwt.fromEcPem pem).map (fun _ => pem)).mapError ("Invalid EC public key PEM: " ++ ·)
      | none => .error "MLRUNX_JWT_PUBLIC_KEY_PEM is not configured."

def decodeUiJwtClaims (now : Nat) (rawToken : String) : Except String UiJwtClaims := do
  let issuer ← match setup.uiJwt.issuer with
    | some issuer => .ok issuer
    | none => .error "MLRUNX_JWT_ISSUER is required when UI JWT auth is enabled."
  let audience ← match setup.uiJwt.audience with
    | some audience => .ok audience
    | none => .error "MLRUNX_JWT_AUDIENCE is required when UI JWT auth is enabled."
  let key ← decodingKey setup
  let claims ← (setup.jwt.decode setup.uiJwt.algorithm key issuer audience now rawToken).mapError
    ("Invalid JWT token: " ++ ·)
  if claims.subject.isEmpty then .error "JWT token subject is empty."
  else .ok claims

/-- Letters and digits in lower case, and one dash for what is between them. -/
def slugChars : Bool → List Char → List Char
  | _, [] => []
  | previousDash, c :: cs =>
      if c.isAlphanum then c.toLower :: slugChars false cs
      else if previousDash then slugChars true cs
      else '-' :: slugChars true cs

def trimDashes (cs : List Char) : List Char :=
  ((cs.dropWhile (· == '-')).reverse.dropWhile (· == '-')).reverse

def slugifyPersonalProjectComponent (value : String) : String :=
  String.ofList (trimDashes (slugChars false (trim value).toList))

def orDefault (value fallback : String) : String := if value.isEmpty then fallback else value

def personalProjectHint (email displayName : Option String) : String :=
  orDefault (slugifyPersonalProjectComponent
    (((email.bind (fun value => (split '@' value).head?)).orElse (fun _ => displayName)).getD "user")) "user"

def personalProjectSuffix (userId : String) : String :=
  orDefault (toAsciiLowercase (String.ofList ((userId.toList.filter Char.isAlphanum).take 8))) "account"

def personalProjectName (userId : String) (email displayName : Option String) : String :=
  orDefault (slugifyPersonalProjectComponent setup.uiJwt.personalProjectPrefix) "personal" ++ "-" ++
    personalProjectHint email displayName ++ "-" ++ personalProjectSuffix userId

def logProvision (line : Provision) : Program Unit :=
  fun s => (.ok (), { s with log := s.log ++ [line] })

def autoProvisionPersonalProject (userId : String) (email displayName : Option String) : Program Unit := do
  let projectName := personalProjectName setup userId email displayName
  let projectId ← failing "Failed to create personal project" (getOrCreateProject env projectName)
  failing "Failed to grant personal project membership"
    (grantProjectMembership env projectId userId .owner (some userId))
  logProvision ⟨userId, projectId, projectName⟩

def loadMemberships (userId : String) (email displayName : Option String) :
    Program (List ProjectMembershipRow) := do
  let memberships ← failing "Failed to load project memberships"
    (listActiveProjectMemberships env.faults.listMemberships userId)
  if memberships.isEmpty && setup.uiJwt.autoProvisionProject then do
    autoProvisionPersonalProject setup env userId email displayName
    failing "Failed to load memberships after auto-provision"
      (listActiveProjectMemberships env.faults.relistMemberships userId)
  else
    pure memberships

def resolveMembershipsForUser (userId : String) (email displayName : Option String) :
    Program (List String × Finset String) := do
  let memberships ← loadMemberships setup env userId email displayName
  if memberships.isEmpty then
    fail "No active project memberships found for this user."
  else
    pure (sorted (deriveScopesAndProjects memberships).1, (deriveScopesAndProjects memberships).2)

def resolveUiIdentityFromJwt (rawToken : String) : Program ResolvedUiIdentity := do
  if !setup.uiJwt.enabled then
    fail "UI JWT auth is disabled."
  else do
    let claims ← ofExcept (decodeUiJwtClaims setup env.now rawToken)
    let userId ← failing "Failed to resolve JWT user identity"
      (getOrCreateUserIdentity env setup.uiJwt.provider claims.subject claims.email claims.name)
    let (scopes, allowedProjectIds) ← resolveMembershipsForUser setup env userId claims.email claims.name
    let isPlatformAdmin ← attempt (syncPlatformAdminFlag env userId setup.uiJwt.adminEmail)
    pure ⟨userId, claims.email.orElse (fun _ => claims.name), allowedProjectIds, scopes, isPlatformAdmin.getD false⟩

structure UiSessionIssue where
  sessionToken : String
  csrfToken : String
  expiresAt : Nat
  userId : String
  allowedProjectIds : List String
  deriving DecidableEq, Repr

def createUiSessionFromJwt (rawJwt : String) : Program UiSessionIssue := do
  if !setup.uiJwt.enabled then
    fail "UI JWT auth is disabled."
  else do
    let identity ← resolveUiIdentityFromJwt setup env rawJwt
    let expiresAt := env.now + setup.uiJwt.sessionTtlSeconds
    failing "Failed to persist UI session"
      (insertAuthSession env identity.userId (hashWithHmac setup.hashing env.sessionToken)
        (hashWithHmac setup.hashing env.csrfToken) expiresAt)
    pure ⟨env.sessionToken, env.csrfToken, expiresAt, identity.userId, sorted identity.allowedProjectIds⟩

def authenticateUiJwt (rawToken : String) : Program (ApiKey × Finset String × Bool) := do
  let identity ← resolveUiIdentityFromJwt setup env rawToken
  pure (buildUiAuthApiKey identity "jwt" env.now, identity.allowedProjectIds, identity.isPlatformAdmin)

/-- The active session of a token, stored under either hash, with that hash. -/
def findUiSession (rawSessionToken : String) : Program (Option (AuthSessionRow × String)) := do
  let tokenHash := hashWithHmac setup.hashing rawSessionToken
  let session ← failing "Failed to resolve UI session"
    (getActiveAuthSessionByTokenHash env env.faults.findSession tokenHash)
  match session with
  | some session => pure (some (session, tokenHash))
  | none => do
      let legacyTokenHash := setup.hashing.sha256 rawSessionToken
      let session ← failing "Failed to resolve legacy UI session"
        (getActiveAuthSessionByTokenHash env env.faults.findLegacySession legacyTokenHash)
      pure (session.map (·, legacyTokenHash))

def checkCsrf (missing : String) (csrfToken : Option String) (session : AuthSessionRow) : Except String Unit :=
  match (csrfToken.map trim).filter (fun value => !value.isEmpty) with
  | none => .error missing
  | some provided =>
      if hashWithHmac setup.hashing provided != session.csrfHash &&
          setup.hashing.sha256 provided != session.csrfHash then
        .error "Invalid CSRF token."
      else
        .ok ()

def authenticateUiSession (rawSessionToken : String) (csrfToken : Option String) (requireCsrf : Bool) :
    Program (ApiKey × Finset String × Bool) := do
  if !setup.uiJwt.enabled then
    fail "UI JWT auth is disabled."
  else do
    let found ← findUiSession setup env rawSessionToken
    match found with
    | none => fail "Invalid or expired UI session."
    | some (session, _) => do
        ofExcept (if requireCsrf then
          checkCsrf setup "Missing CSRF token for mutating request." csrfToken session else .ok ())
        let (scopes, allowedProjectIds) ← mapError ("Failed to resolve UI session memberships: " ++ ·)
          (resolveMembershipsForUser setup env session.userId none none)
        let _ ← attempt (touchAuthSession env session.id setup.uiJwt.sessionTtlSeconds)
        let isPlatformAdmin ← attempt (isUserPlatformAdmin env session.userId)
        let identity : ResolvedUiIdentity :=
          ⟨session.userId, none, allowedProjectIds, scopes, isPlatformAdmin.getD false⟩
        pure (buildUiAuthApiKey identity "session" env.now, allowedProjectIds, isPlatformAdmin.getD false)

def revokeUiSession (rawSessionToken : String) (csrfToken : Option String) : Program Unit := do
  if !setup.uiJwt.enabled then
    pure ()
  else do
    let found ← findUiSession setup env rawSessionToken
    match found with
    | some (session, resolvedHash) => do
        ofExcept (checkCsrf setup "Missing CSRF token." csrfToken session)
        let _ ← failing "Failed to revoke UI session" (revokeAuthSessionByTokenHash env resolvedHash)
    | none => do
        let _ ← failing "Failed to revoke UI session"
          (revokeAuthSessionByTokenHash env (hashWithHmac setup.hashing rawSessionToken))

variable {setup}

theorem leaves_findUiSession {γ : Type} {view : UiStore → γ} (token : String) :
    Leaves view (findUiSession setup env token) := by
  refine leaves_bind (leaves_mapError (leaves_query _ _)) (fun session => ?_)
  cases session with
  | some session => exact leaves_pure _
  | none => exact leaves_bind (leaves_mapError (leaves_query _ _)) (fun session => leaves_pure _)

end MLRunX.UiAuth
