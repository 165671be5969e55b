import Mathlib.Data.Finset.Sort
import Mathlib.Data.String.Basic
import MLRunX.Auth

namespace MLRunX.Memberships

open Auth

inductive Role
  | owner | editor | viewer
  deriving DecidableEq, Repr

def Role.scopes : Role → Finset String
  | .owner => {"read", "write", "admin"}
  | .editor => {"read", "write"}
  | .viewer => {"read"}

structure ProjectMembershipRow where
  projectId : String
  role : Role
  deriving DecidableEq, Repr

def addMembership (acc : Finset String × Finset String) (membership : ProjectMembershipRow) :
    Finset String × Finset String :=
  (acc.1 ∪ membership.role.scopes, insert membership.projectId acc.2)

def deriveScopesAndProjects (memberships : List ProjectMembershipRow) :
    Finset String × Finset String :=
  memberships.foldl addMembership (∅, ∅)

structure ResolvedUiIdentity where
  userId : String
  userName : Option String
  allowedProjectIds : Finset String
  scopes : List String
  isPlatformAdmin : Bool

def buildUiAuthApiKey (identity : ResolvedUiIdentity) (modePrefix : String) (now : Nat) : ApiKey where
  id := modePrefix ++ ":" ++ identity.userId
  keyHash := modePrefix ++ ":" ++ identity.userId
  keyPrefix := modePrefix ++ "_" ++ String.ofList (identity.userId.toList.take 6)
  projectId := none
  createdByUserId := some identity.userId
  name := identity.userName
  scopes := identity.scopes
  createdAt := now
  lastUsedAt := some now
  revokedAt := none
  expiresAt := none

def sorted (texts : Finset String) : List String := texts.sort

/-- The identity of a user who is no platform admin, from the list of active
memberships. Scopes are sorted before they are handed on. -/
def memberIdentity (userId : String) (userName : Option String)
    (memberships : List ProjectMembershipRow) : ResolvedUiIdentity where
  userId := userId
  userName := userName
  allowedProjectIds := (deriveScopesAndProjects memberships).2
  scopes := sorted (deriveScopesAndProjects memberships).1
  isPlatformAdmin := false

def uiContext (identity : ResolvedUiIdentity) (modePrefix : String) (now : Nat) : AuthContext :=
  .ofUi (buildUiAuthApiKey identity modePrefix now) identity.allowedProjectIds identity.isPlatformAdmin

/-- What a role is meant to allow in its own project. -/
def Role.grants : Role → EndpointRbacTier → Prop
  | .viewer, tier => tier = .read
  | .editor, tier => tier = .read ∨ tier = .write
  | .owner, _ => True

instance (role : Role) (tier : EndpointRbacTier) : Decidable (role.grants tier) := by
  cases role <;> unfold Role.grants <;> infer_instance

theorem Role.grants_iff (role : Role) (tier : EndpointRbacTier) :
    role.grants tier ↔ "admin" ∈ role.scopes ∨ tier.scope ∈ role.scopes := by
  cases role <;> cases tier <;> decide

theorem Role.exists_strongest (role : Role) :
    ∃ tier, role.grants tier ∧ ∀ role' : Role, role'.grants tier → role.scopes ⊆ role'.scopes := by
  cases role with
  | viewer => exact ⟨.read, by decide, by intro r; cases r <;> decide⟩
  | editor => exact ⟨.write, by decide, by intro r; cases r <;> decide⟩
  | owner => exact ⟨.admin, by decide, by intro r; cases r <;> decide⟩

theorem Role.grants_mono {role role' : Role} (h : role.scopes ⊆ role'.scopes) {tier : EndpointRbacTier}
    (hg : role.grants tier) : role'.grants tier := by
  rw [Role.grants_iff] at hg ⊢
  exact hg.imp (fun ha => h ha) (fun ht => h ht)

theorem mem_foldl_scopes (memberships : List ProjectMembershipRow) (acc : Finset String × Finset String)
    (s : String) :
    s ∈ (memberships.foldl addMembership acc).1 ↔ s ∈ acc.1 ∨ ∃ m ∈ memberships, s ∈ m.role.scopes := by
  induction memberships generalizing acc with
  | nil => simp
  | cons m ms ih => simp [ih, addMembership, or_assoc]

theorem mem_foldl_projects (memberships : List ProjectMembershipRow) (acc : Finset String × Finset String)
    (p : String) :
    p ∈ (memberships.foldl addMembership acc).2 ↔ p ∈ acc.2 ∨ ∃ m ∈ memberships, m.projectId = p := by
  induction memberships generalizing acc with
  | nil => simp
  | cons m ms ih =>
      simp only [List.foldl_cons, ih, addMembership, Finset.mem_insert, List.mem_cons,
        exists_eq_or_imp, eq_comm (a := p)]
      tauto

theorem mem_derived_scopes (memberships : List ProjectMembershipRow) (s : String) :
    s ∈ (deriveScopesAndProjects memberships).1 ↔ ∃ m ∈ memberships, s ∈ m.role.scopes := by
  simp [deriveScopesAndProjects, mem_foldl_scopes]

theorem mem_derived_projects (memberships : List ProjectMembershipRow) (p : String) :
    p ∈ (deriveScopesAndProjects memberships).2 ↔ ∃ m ∈ memberships, m.projectId = p := by
  simp [deriveScopesAndProjects, mem_foldl_projects]

theorem memberIdentity_hasScope (userId : String) (userName : Option String)
    (memberships : List ProjectMembershipRow) (modePrefix : String) (now : Nat) (tier : EndpointRbacTier) :
    (buildUiAuthApiKey (memberIdentity userId userName memberships) modePrefix now).hasScope tier.scope
        = true ↔
      ∃ m ∈ memberships, m.role.grants tier := by
  simp only [ApiKey.hasScope, buildUiAuthApiKey, memberIdentity, Bool.or_eq_true,
    List.contains_iff_mem, sorted, Finset.mem_sort, mem_derived_scopes, Role.grants_iff]
  constructor
  · rintro (⟨m, hm, hs⟩ | ⟨m, hm, hs⟩)
    · exact ⟨m, hm, .inl hs⟩
    · exact ⟨m, hm, .inr hs⟩
  · rintro ⟨m, hm, hs | hs⟩
    · exact .inl ⟨m, hm, hs⟩
    · exact .inr ⟨m, hm, hs⟩

theorem member_access_iff (flags : EndpointRbacTier → Bool) (userId : String) (userName : Option String)
    (memberships : List ProjectMembershipRow) (modePrefix : String) (now : Nat) (p : String)
    {tier : EndpointRbacTier} (hflags : flags tier = true) :
    requireEndpointAccess (uiContext (memberIdentity userId userName memberships) modePrefix now)
        flags tier (some p) = .ok () ↔
      (∃ m ∈ memberships, m.role.grants tier) ∧ ∃ m ∈ memberships, m.projectId = p := by
  rw [requireEndpointAccess_ok_iff, requireScope_ok_iff]
  have hscope : (uiContext (memberIdentity userId userName memberships) modePrefix now).apiKey.hasScope
      tier.scope = true ↔ ∃ m ∈ memberships, m.role.grants tier :=
    memberIdentity_hasScope userId userName memberships modePrefix now tier
  rw [hscope]
  simp [shouldEnforceScope, AuthContext.isUiJwt, uiContext, AuthContext.ofUi, hflags,
    requireProjectAccess_ok_iff, AuthContext.isGlobal, memberIdentity, mem_derived_projects]

/-- No rights beyond the role held in the project, for every project and tier. -/
def RightsWithinRole (flags : EndpointRbacTier → Bool) (userId : String) (userName : Option String)
    (memberships : List ProjectMembershipRow) (modePrefix : String) (now : Nat) : Prop :=
  ∀ p tier,
    requireEndpointAccess (uiContext (memberIdentity userId userName memberships) modePrefix now)
        flags tier (some p) = .ok () →
      ∃ m ∈ memberships, m.projectId = p ∧ m.role.grants tier

theorem viewer_writes_beside_own_project :
    ¬ RightsWithinRole (fun _ => true) "u1" none [⟨"shared", .viewer⟩, ⟨"personal", .owner⟩] "session" 0 := by
  intro h
  obtain ⟨m, hm, hp, hg⟩ := h "shared" .write
    ((member_access_iff _ _ _ _ _ _ _ rfl).mpr
      ⟨⟨⟨"personal", .owner⟩, by simp, trivial⟩, ⟨"shared", .viewer⟩, by simp, rfl⟩)
  simp only [List.mem_cons, List.not_mem_nil, or_false] at hm
  rcases hm with rfl | rfl
  · exact absurd hg (by decide)
  · exact absurd hp (by decide)

/-- Rights stay within roles exactly when every project of the list holds a
role at least as strong as each role of the list. -/
theorem rightsWithinRole_iff (flags : EndpointRbacTier → Bool) (hflags : ∀ tier, flags tier = true)
    (userId : String) (userName : Option String) (memberships : List ProjectMembershipRow)
    (modePrefix : String) (now : Nat) :
    RightsWithinRole flags userId userName memberships modePrefix now ↔
      ∀ m ∈ memberships, ∀ m' ∈ memberships,
        ∃ m'' ∈ memberships, m''.projectId = m'.projectId ∧ m.role.scopes ⊆ m''.role.scopes := by
  constructor
  · intro h m hm m' hm'
    obtain ⟨tier, hg, hstrong⟩ := m.role.exists_strongest
    obtain ⟨m'', hm'', hp, hg''⟩ := h m'.projectId tier
      ((member_access_iff _ _ _ _ _ _ _ (hflags tier)).mpr ⟨⟨m, hm, hg⟩, m', hm', rfl⟩)
    exact ⟨m'', hm'', hp, hstrong _ hg''⟩
  · intro h p tier ha
    obtain ⟨⟨m, hm, hg⟩, m', hm', rfl⟩ := (member_access_iff _ _ _ _ _ _ _ (hflags tier)).mp ha
    obtain ⟨m'', hm'', hp, hs⟩ := h m hm m' hm'
    exact ⟨m'', hm'', hp, Role.grants_mono hs hg⟩

theorem rightsWithinRole_single_role :
    (∀ tier : EndpointRbacTier, (fun _ => true) tier = true) ∧
      RightsWithinRole (fun _ => true) "u1" none [⟨"a", .editor⟩, ⟨"b", .editor⟩] "session" 0 :=
  ⟨fun _ => rfl, (rightsWithinRole_iff (fun _ => true) (fun _ => rfl) _ _ _ _ _).mpr (by decide)⟩

end MLRunX.Memberships
