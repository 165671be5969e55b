import Mathlib.Data.Finset.Basic
import MLRunX.Http

namespace MLRunX.Auth

open Http

/-- A stored API key, or the key-shaped record built for a UI identity. Times
are seconds since the epoch. -/
structure ApiKey where
  id : String
  keyHash : String
  keyPrefix : String
  projectId : Option String
  createdByUserId : Option String
  name : Option String
  scopes : List String
  createdAt : Nat
  lastUsedAt : Option Nat
  revokedAt : Option Nat
  expiresAt : Option Nat
  deriving DecidableEq, Repr

def ApiKey.isValid (key : ApiKey) (now : Nat) : Bool :=
  key.revokedAt.isNone && key.expiresAt.all (fun expiresAt => now < expiresAt)

def ApiKey.hasScope (key : ApiKey) (scope : String) : Bool :=
  key.scopes.contains "admin" || key.scopes.contains scope

def ApiKey.canAccessProject (key : ApiKey) (projectId : String) : Bool :=
  key.projectId.isNone || key.projectId == some projectId

inductive AuthMode
  | apiKey | uiJwt
  deriving DecidableEq, Repr

/-- The caller of a request. The last two fields hold of every context that
the middleware or the dev mode builds: project lists belong to UI sessions,
and outside dev mode only a UI session can be a platform admin. -/
structure AuthContext where
  apiKey : ApiKey
  isDevMode : Bool
  isPlatformAdmin : Bool
  allowedProjectIds : Option (Finset String)
  authMode : AuthMode
  projects_of_mode : allowedProjectIds.isSome ↔ authMode = .uiJwt
  admin_of_mode : isPlatformAdmin = true → isDevMode = true ∨ authMode = .uiJwt

def AuthContext.devMode (now : Nat) : AuthContext where
  apiKey := ⟨"dev", "dev", "dev", none, none, some "Dev Mode", ["admin"], now, none, none, none⟩
  isDevMode := true
  isPlatformAdmin := true
  allowedProjectIds := none
  authMode := .apiKey
  projects_of_mode := by simp
  admin_of_mode := by simp

def AuthContext.ofApiKey (key : ApiKey) : AuthContext where
  apiKey := key
  isDevMode := false
  isPlatformAdmin := false
  allowedProjectIds := none
  authMode := .apiKey
  projects_of_mode := by simp
  admin_of_mode := by simp

def AuthContext.ofUi (key : ApiKey) (allowed : Finset String) (admin : Bool) : AuthContext where
  apiKey := key
  isDevMode := false
  isPlatformAdmin := admin
  allowedProjectIds := some allowed
  authMode := .uiJwt
  projects_of_mode := by simp
  admin_of_mode := by simp

variable (auth : AuthContext)

def AuthContext.isGlobal : Bool :=
  auth.isDevMode || auth.isPlatformAdmin ||
    (auth.allowedProjectIds.isNone && auth.apiKey.projectId.isNone)

def AuthContext.isUiJwt : Bool := auth.authMode == .uiJwt

def AuthContext.requireProjectAccess (runProjectId : String) : Answer Unit :=
  if auth.isGlobal then
    .ok ()
  else match auth.allowedProjectIds with
    | some allowed =>
        if runProjectId ∈ allowed then .ok ()
        else .error ⟨.forbidden, "Access denied: this user cannot access runs in this project."⟩
    | none =>
        if auth.apiKey.canAccessProject runProjectId then .ok ()
        else .error ⟨.forbidden, "Access denied: this API key cannot access runs in this project."⟩

def AuthContext.requireScope (scope : String) : Answer Unit :=
  if auth.isDevMode then
    .ok ()
  else if auth.apiKey.hasScope scope then
    .ok ()
  else
    .error ⟨.forbidden, s!"Insufficient permissions: this API key requires the '{scope}' scope."⟩

inductive EndpointRbacTier
  | read | write | admin
  deriving DecidableEq, Repr

def EndpointRbacTier.scope : EndpointRbacTier → String
  | .read => "read"
  | .write => "write"
  | .admin => "admin"

/-- The flags name the tiers whose scope is enforced for UI sessions. -/
def shouldEnforceScope (flags : EndpointRbacTier → Bool) (tier : EndpointRbacTier) : Bool :=
  if auth.isDevMode then false
  else if !auth.isUiJwt then true
  else flags tier

def requireEndpointAccess (flags : EndpointRbacTier → Bool) (tier : EndpointRbacTier)
    (projectId : Option String) : Answer Unit := do
  if shouldEnforceScope auth flags tier then
    auth.requireScope tier.scope
  match projectId with
  | some p => auth.requireProjectAccess p
  | none => pure ()

/-- The user id is the part of a UI identity's key id behind the first colon. -/
def authUserId : Option String :=
  if auth.isDevMode || !auth.isUiJwt then none
  else match (auth.apiKey.id.toList.dropWhile (· ≠ ':')) with
    | [] => none
    | _ :: rest => some (String.ofList rest)

theorem requireScope_ok_iff (scope : String) :
    auth.requireScope scope = .ok () ↔ auth.isDevMode = true ∨ auth.apiKey.hasScope scope = true := by
  unfold AuthContext.requireScope
  split <;> rename_i hd
  · simp [hd]
  · split <;> rename_i hs <;> simp [hd, hs]

theorem requireProjectAccess_ok_iff (p : String) :
    auth.requireProjectAccess p = .ok () ↔
      auth.isGlobal = true ∨ (∃ allowed, auth.allowedProjectIds = some allowed ∧ p ∈ allowed) ∨
        (auth.allowedProjectIds = none ∧ auth.apiKey.canAccessProject p = true) := by
  unfold AuthContext.requireProjectAccess
  split <;> rename_i hg
  · simp [hg]
  · cases ha : auth.allowedProjectIds with
    | none => by_cases hp : auth.apiKey.canAccessProject p <;> simp [hg, hp]
    | some allowed => by_cases hp : p ∈ allowed <;> simp [hg, hp]

theorem requireEndpointAccess_ok_iff (flags : EndpointRbacTier → Bool) (tier : EndpointRbacTier)
    (projectId : Option String) :
    requireEndpointAccess auth flags tier projectId = .ok () ↔
      (shouldEnforceScope auth flags tier = true → auth.requireScope tier.scope = .ok ()) ∧
        ∀ p ∈ projectId, auth.requireProjectAccess p = .ok () := by
  unfold requireEndpointAccess
  by_cases he : shouldEnforceScope auth flags tier
  · cases hs : auth.requireScope tier.scope with
    | error e => simp [he, bind, Except.bind]
    | ok u => cases projectId <;> simp [he, bind, Except.bind, pure, Except.pure]
  · cases projectId <;> simp [he, pure, Except.pure]

theorem isGlobal_ofApiKey (key : ApiKey) :
    (AuthContext.ofApiKey key).isGlobal = key.projectId.isNone := by
  simp [AuthContext.isGlobal, AuthContext.ofApiKey]

end MLRunX.Auth
