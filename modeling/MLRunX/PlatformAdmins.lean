import MLRunX.DisabledUsers

namespace MLRunX.PlatformAdmins

open Auth Commands Http Memberships Runs Sqlite Statements Tables Text UiAuth UiRequests UiTables
open DisabledUsers (leaves_resolveMemberships)

def isAdminEmail (adminEmail email : Option String) : Bool :=
  match email, adminEmail with
  | some ue, some ae => eqIgnoreAsciiCase ue (trim ae)
  | _, _ => false

/-- Only users with the admin's e-mail are flagged as platform admins. -/
def RightFlags (adminEmail : Option String) (s : UiStore) : Prop :=
  ∀ r ∈ s.users.rows, r.isPlatformAdmin = true → isAdminEmail adminEmail r.email = true

def rights (s : UiStore) : List (Option String × Bool) := s.users.rows.map (fun r => (r.email, r.isPlatformAdmin))

theorem rightFlags_iff (adminEmail : Option String) (s : UiStore) :
    RightFlags adminEmail s ↔ ∀ v ∈ rights s, v.2 = true → isAdminEmail adminEmail v.1 = true := by
  simp [RightFlags, rights]

theorem rightFlags_congr {adminEmail : Option String} {s s' : UiStore} (h : rights s = rights s') :
    RightFlags adminEmail s ↔ RightFlags adminEmail s' := by
  rw [rightFlags_iff, rightFlags_iff, h]

section Provisioning

variable (setup : Setup) (env : Env) {s s' : UiStore}

/-- A project of this name is there, or can be created. -/
def ProjectAt (name : String) (s : UiStore) : Prop :=
  (env.faults.findProject = none ∧ ∃ p ∈ s.projects.rows, p.name = name) ∨
    (env.faults.insertProject = none ∧
      ∀ p ∈ s.projects.rows, ¬ ProjectRow.clash p ⟨env.projectId, name, none⟩)

def CanGrant (s : UiStore) : Prop :=
  env.faults.revokeMembership = none ∧ env.faults.insertMembership = none ∧
    ∀ m ∈ s.memberships.rows, m.id ≠ env.membershipId

/-- The user has a membership, or is given one. -/
def CanResolve (userId : String) (email displayName : Option String) (s : UiStore) : Prop :=
  env.faults.listMemberships = none ∧ (activeMemberships s userId ≠ [] ∨
    setup.uiJwt.autoProvisionProject = true ∧ ProjectAt env (personalProjectName setup userId email displayName) s ∧
      CanGrant env s ∧ env.faults.relistMemberships = none)

instance (name : String) (s : UiStore) : Decidable (ProjectAt env name s) := by
  unfold ProjectAt
  infer_instance

instance (s : UiStore) : Decidable (CanGrant env s) := by
  unfold CanGrant
  infer_instance

instance (userId : String) (email displayName : Option String) (s : UiStore) :
    Decidable (CanResolve setup env userId email displayName s) := by
  unfold CanResolve
  infer_instance

variable {env}

theorem leaves_getOrCreateProject_memberships (env : Env) (name : String) :
    Leaves UiStore.memberships (getOrCreateProject env name) := by
  refine leaves_bind (leaves_attempt (leaves_query _ _)) (fun existing => ?_)
  cases existing.join with
  | some project => exact leaves_pure _
  | none =>
      apply leaves_execute
      intro s a s' h
      split at h <;> cases h
      rfl

def createMissing (env : Env) (name : String) : Statement String :=
  execute env.faults.insertProject (fun s => match s.projects.insert ⟨env.projectId, name, none⟩ with
    | some projects => .ok (env.projectId, { s with projects := projects })
    | none => .error (uniqueViolation "projects.name"))

theorem getOrCreateProject_found {name : String} {p : ProjectRow} (hfault : env.faults.findProject = none)
    (h : s.projects.find (fun r => r.name == name) = some p) : getOrCreateProject env name s = (.ok p.id, s) := by
  have hquery : (attempt (query none (fun s => s.projects.find (fun r => r.name == name))) :
      Statement (Option (Option ProjectRow))) s = (.ok (some (some p)), s) := by
    rw [← h]
    rfl
  simp only [getOrCreateProject, hfault]
  rw [bind_ok hquery]
  rfl

theorem getOrCreateProject_missing {name : String} (h : env.faults.findProject = none →
    s.projects.find (fun r => r.name == name) = none) : getOrCreateProject env name s = createMissing env name s := by
  simp only [getOrCreateProject]
  cases hfault : env.faults.findProject with
  | some text => rfl
  | none =>
      have hquery : (attempt (query none (fun s => s.projects.find (fun r => r.name == name))) :
          Statement (Option (Option ProjectRow))) s = (.ok (some none), s) := by
        rw [← h hfault]
        rfl
      rw [bind_ok hquery]
      rfl

theorem createMissing_ok_iff (name : String) (s : UiStore) :
    (∃ id s', createMissing env name s = (.ok id, s')) ↔ env.faults.insertProject = none ∧
      ∀ p ∈ s.projects.rows, ¬ ProjectRow.clash p ⟨env.projectId, name, none⟩ := by
  constructor
  · rintro ⟨id, s', h⟩
    refine ⟨execute_granted h, ?_⟩
    have h := execute_ok h
    split at h
    · rename_i projects hi
      exact (insert_eq_some hi).2
    · cases h
  · rintro ⟨hfault, hfresh⟩
    obtain ⟨projects, hi, -⟩ := insert_isSome s.projects _ hfresh
    simp only [createMissing, execute, hfault, statement_none, hi]
    exact ⟨_, _, rfl⟩

theorem getOrCreateProject_ok_iff (name : String) (s : UiStore) :
    (∃ id s', getOrCreateProject env name s = (.ok id, s')) ↔ ProjectAt env name s := by
  by_cases hfound : env.faults.findProject = none ∧ ∃ p ∈ s.projects.rows, p.name = name
  · obtain ⟨hfault, p, hp, hname⟩ := hfound
    cases hfind : s.projects.find (fun r => r.name == name) with
    | some q => exact iff_of_true ⟨_, _, getOrCreateProject_found hfault hfind⟩ (.inl ⟨hfault, p, hp, hname⟩)
    | none => exact absurd (find_none_iff.mp hfind p hp) (by simp [hname])
  · have hmissing : env.faults.findProject = none → s.projects.find (fun r => r.name == name) = none := by
      intro hfault
      rw [find_none_iff]
      intro p hp
      exact beq_eq_false_iff_ne.mpr (fun hname => hfound ⟨hfault, p, hp, hname⟩)
    rw [getOrCreateProject_missing hmissing, createMissing_ok_iff, ProjectAt, or_iff_right hfound]

theorem grantProjectMembership_ok_iff (projectId userId : String) (role : Role) (grantedBy : Option String)
    (s : UiStore) :
    (∃ s', grantProjectMembership env projectId userId role grantedBy s = (.ok (), s')) ↔ CanGrant env s := by
  constructor
  · rintro ⟨s', h⟩
    obtain ⟨_, t, hrevoke, hinsert⟩ := bind_eq_ok h
    refine ⟨execute_granted hrevoke, execute_granted hinsert, ?_⟩
    cases execute_ok hrevoke
    have hinsert := execute_ok hinsert
    split at hinsert
    · rename_i memberships hi
      intro m hm hid
      refine (insert_eq_some hi).2 _ (List.mem_map_of_mem hm) (.inl ?_)
      exact (setWhere_keeps MembershipRow.id (by intro _; rfl) m).trans hid
    · cases hinsert
  · rintro ⟨hrevoke, hinsert, hfresh⟩
    have hnew : ∀ m ∈ (s.memberships.update
        (setWhere (fun r => r.projectId == projectId && r.userId == userId && r.revokedAt.isNone)
          (fun r => { r with revokedAt := some env.now }))
        (MembershipRow.clash_setWhere (fun _ => rfl) (fun _ => rfl) (fun _ => rfl)
          (fun _ => Option.some_ne_none _))).rows,
        ¬ MembershipRow.clash m ⟨env.membershipId, projectId, userId, role, grantedBy, none⟩ := by
      intro m hm hclash
      obtain ⟨r, hr, rfl⟩ := List.mem_map.mp hm
      rcases hclash with hid | ⟨hproject, huser, hactive, -⟩
      · exact hfresh r hr ((setWhere_keeps MembershipRow.id (by intro _; rfl) r).symm.trans hid)
      · rw [setWhere_keeps MembershipRow.projectId (by intro _; rfl)] at hproject
        rw [setWhere_keeps MembershipRow.userId (by intro _; rfl)] at huser
        cases hrevoked : r.revokedAt with
        | none => simp [setWhere, hproject, huser, hrevoked] at hactive
        | some at_ => simp [setWhere, hrevoked] at hactive
    obtain ⟨memberships, hi, -⟩ := insert_isSome _ _ hnew
    refine ⟨{ s with memberships := memberships }, ?_⟩
    simp only [grantProjectMembership, hrevoke, hinsert, bind, execute, statement_none, hi]

theorem activeMemberships_granted {projectId userId : String} {role : Role} {grantedBy : Option String}
    (h : grantProjectMembership env projectId userId role grantedBy s = (.ok (), s')) :
    activeMemberships s' userId ≠ [] := by
  obtain ⟨_, t, -, hinsert⟩ := bind_eq_ok h
  have hinsert := execute_ok hinsert
  split at hinsert
  · rename_i memberships hi
    cases hinsert
    apply List.ne_nil_of_mem (a := (⟨projectId, role⟩ : ProjectMembershipRow))
    refine List.mem_map.mpr ⟨⟨env.membershipId, projectId, userId, role, grantedBy, none⟩, ?_, rfl⟩
    refine List.mem_filter.mpr ⟨?_, by simp⟩
    rw [(insert_eq_some hi).1]
    exact List.mem_append_right _ List.mem_cons_self
  · cases hinsert

variable {setup}

theorem autoProvision_ok_iff (userId : String) (email displayName : Option String) (s : UiStore) :
    (∃ s', autoProvisionPersonalProject setup env userId email displayName s = (.ok (), s')) ↔
      ProjectAt env (personalProjectName setup userId email displayName) s ∧ CanGrant env s := by
  have hmemberships : ∀ {id s'}, getOrCreateProject env (personalProjectName setup userId email displayName) s =
      (.ok id, s') → (CanGrant env s' ↔ CanGrant env s) := by
    intro id s' h
    have hsame := (leaves_getOrCreateProject_memberships env (personalProjectName setup userId email
      displayName)).shows s
    rw [h] at hsame
    change s'.memberships = s.memberships at hsame
    simp only [CanGrant, hsame]
  rw [← getOrCreateProject_ok_iff]
  constructor
  · rintro ⟨s', h⟩
    obtain ⟨id, t, hproject, h⟩ := bind_eq_ok h
    obtain ⟨_, u, hgrant, -⟩ := bind_eq_ok h
    have hproject := mapError_eq_ok hproject
    exact ⟨⟨id, t, hproject⟩, (hmemberships hproject).mp
      ((grantProjectMembership_ok_iff id userId .owner (some userId) t).mp ⟨u, mapError_eq_ok hgrant⟩)⟩
  · rintro ⟨⟨id, t, hproject⟩, hgrant⟩
    obtain ⟨u, hgrant⟩ := (grantProjectMembership_ok_iff id userId .owner (some userId) t).mpr
      ((hmemberships hproject).mpr hgrant)
    simp only [autoProvisionPersonalProject, failing]
    rw [bind_ok (mapError_ok hproject), bind_ok (mapError_ok hgrant)]
    exact ⟨_, rfl⟩

theorem activeMemberships_autoProvisioned {userId : String} {email displayName : Option String}
    (h : autoProvisionPersonalProject setup env userId email displayName s = (.ok (), s')) :
    activeMemberships s' userId ≠ [] := by
  obtain ⟨id, t, -, h⟩ := bind_eq_ok h
  obtain ⟨_, u, hgrant, hlog⟩ := bind_eq_ok h
  have hactive := activeMemberships_granted (mapError_eq_ok hgrant)
  obtain ⟨-, rfl⟩ := Prod.mk.inj hlog
  exact hactive

theorem resolveMemberships_ok_iff (userId : String) (email displayName : Option String) (s : UiStore) :
    (∃ resolved s', resolveMembershipsForUser setup env userId email displayName s = (.ok resolved, s')) ↔
      CanResolve setup env userId email displayName s := by
  have hlist : ∀ {fault : Option String} {context : String} {t t' : UiStore} {a : List ProjectMembershipRow},
      failing context (listActiveProjectMemberships fault userId) t = (.ok a, t') →
        fault = none ∧ a = activeMemberships t userId ∧ t' = t := by
    intro fault context t t' a h
    have h := mapError_eq_ok h
    cases fault with
    | none => exact ⟨rfl, query_eq_ok h⟩
    | some text => cases congrArg Prod.fst h
  constructor
  · rintro ⟨resolved, s', h⟩
    obtain ⟨memberships, t, hload, hresolved⟩ := bind_eq_ok h
    obtain ⟨first, t', hfirst, hload⟩ := bind_eq_ok hload
    obtain ⟨hfault, rfl, rfl⟩ := hlist hfirst
    refine ⟨hfault, ?_⟩
    by_cases hempty : activeMemberships t' userId = []
    · split at hload
      · rename_i hprovision
        obtain ⟨_, u, hauto, hrelist⟩ := bind_eq_ok hload
        obtain ⟨hfault', -, -⟩ := hlist hrelist
        obtain ⟨hproject, hgrant⟩ := (autoProvision_ok_iff userId email displayName t').mp ⟨u, hauto⟩
        exact .inr ⟨(Bool.and_eq_true_iff.mp hprovision).2, hproject, hgrant, hfault'⟩
      · obtain ⟨rfl, rfl⟩ := pure_eq_ok hload
        simp only [hempty, List.isEmpty_nil, if_true] at hresolved
        cases congrArg Prod.fst hresolved
    · exact .inl hempty
  · rintro ⟨hfault, hactive⟩
    have hend : ∀ {memberships : List ProjectMembershipRow} {t : UiStore}, memberships ≠ [] →
        loadMemberships setup env userId email displayName s = (.ok memberships, t) →
        ∃ resolved s', resolveMembershipsForUser setup env userId email displayName s = (.ok resolved, s') := by
      intro memberships t hne hload
      have hempty : memberships.isEmpty = false := by simpa using hne
      simp only [resolveMembershipsForUser]
      rw [bind_ok hload]
      simp only [hempty, Bool.false_eq_true, if_false]
      exact ⟨_, _, rfl⟩
    have hfirst : failing "Failed to load project memberships"
        (listActiveProjectMemberships env.faults.listMemberships userId) s = (.ok (activeMemberships s userId), s) := by
      rw [hfault]
      rfl
    by_cases hempty : activeMemberships s userId = []
    · obtain ⟨hprovision, hproject, hgrant, hrelist⟩ := hactive.resolve_left (not_not.mpr hempty)
      obtain ⟨u, hauto⟩ := (autoProvision_ok_iff userId email displayName s).mpr ⟨hproject, hgrant⟩
      apply hend (activeMemberships_autoProvisioned hauto) (t := u)
      simp only [loadMemberships]
      rw [bind_ok hfirst, hempty]
      simp only [List.isEmpty_nil, hprovision, Bool.and_self, if_true]
      rw [bind_ok hauto, hrelist]
      rfl
    · apply hend hempty (t := s)
      have hempty : (activeMemberships s userId).isEmpty = false := by simpa using hempty
      simp only [loadMemberships]
      rw [bind_ok hfirst]
      simp only [hempty, Bool.false_and, Bool.false_eq_true, if_false]
      rfl

theorem canResolve_congr {userId : String} {email displayName : Option String} (h : s.holdings = s'.holdings) :
    CanResolve setup env userId email displayName s ↔ CanResolve setup env userId email displayName s' := by
  have hp : s.projects = s'.projects := congrArg Prod.fst h
  have hm : s.memberships = s'.memberships := congrArg (fun v => v.2.1) h
  simp only [CanResolve, ProjectAt, CanGrant, activeMemberships, hp, hm]

end Provisioning

section Resolution

variable {setup : Setup} {env : Env} {s s' : UiStore} {claims : UiJwtClaims} {userId : String}

theorem find_id {r : UserRow} (hr : r ∈ s.users.rows) : s.users.find (fun x => x.id == r.id) = some r := by
  refine (find_eq_some_iff s.users ?_).mpr ⟨hr, beq_iff_eq.mpr rfl⟩
  intro a b ha hb
  exact .inl ((beq_iff_eq.mp ha).trans (beq_iff_eq.mp hb).symm)

theorem syncPlatformAdminFlag_rows (hfind : env.faults.findEmail = none) (hwrite : env.faults.writeAdmin = none)
    (adminEmail : Option String) (s : UiStore) :
    (syncPlatformAdminFlag env userId adminEmail s).2.users.rows =
      s.users.rows.map (setWhere (fun r => r.id == userId) (fun r => { r with
        isPlatformAdmin := isAdminEmail adminEmail
          ((s.users.find (fun x => x.id == userId)).bind UserRow.email) })) := by
  simp only [syncPlatformAdminFlag, hfind, hwrite]
  rfl

theorem syncPlatformAdminFlag_settled (hfind : env.faults.findEmail = none) (hwrite : env.faults.writeAdmin = none)
    (adminEmail : Option String) (s : UiStore)
    (hs : ∀ r ∈ s.users.rows, r.id ≠ userId → r.isPlatformAdmin = true →
      isAdminEmail adminEmail r.email = true) :
    RightFlags adminEmail (syncPlatformAdminFlag env userId adminEmail s).2 := by
  intro r' hr' hflag
  rw [syncPlatformAdminFlag_rows hfind hwrite] at hr'
  obtain ⟨r, hr, rfl⟩ := List.mem_map.mp hr'
  by_cases hid : r.id = userId
  · subst hid
    simp only [setWhere, beq_self_eq_true, if_true, find_id hr, Option.bind_some] at hflag ⊢
    exact hflag
  · simp only [setWhere, beq_iff_eq, hid, if_false] at hflag ⊢
    exact hs r hr hid hflag

theorem syncPlatformAdminFlag_fault (h : ¬ (env.faults.findEmail = none ∧ env.faults.writeAdmin = none))
    (adminEmail : Option String) (s : UiStore) : (syncPlatformAdminFlag env userId adminEmail s).2 = s := by
  simp only [syncPlatformAdminFlag]
  cases hfind : env.faults.findEmail with
  | some text => rfl
  | none =>
      cases hwrite : env.faults.writeAdmin with
      | some text => rfl
      | none => exact absurd ⟨hfind, hwrite⟩ h

def finish (setup : Setup) (env : Env) (claims : UiJwtClaims) (userId : String) : Program ResolvedUiIdentity := do
  let (scopes, allowedProjectIds) ← resolveMembershipsForUser setup env userId claims.email claims.name
  let isPlatformAdmin ← attempt (syncPlatformAdminFlag env userId setup.uiJwt.adminEmail)
  pure ⟨userId, claims.email.orElse (fun _ => claims.name), allowedProjectIds, scopes, isPlatformAdmin.getD false⟩

/-- Whether the flag of a user comes to be written. -/
def Finishes (setup : Setup) (env : Env) (claims : UiJwtClaims) (userId : String) (s : UiStore) : Prop :=
  CanResolve setup env userId claims.email claims.name s ∧ env.faults.findEmail = none ∧
    env.faults.writeAdmin = none

instance (setup : Setup) (env : Env) (claims : UiJwtClaims) (userId : String) (s : UiStore) :
    Decidable (Finishes setup env claims userId s) := by
  unfold Finishes
  infer_instance

theorem resolveMemberships_users {email displayName : Option String}
    {resolved : Except String (List String × Finset String)}
    (h : resolveMembershipsForUser setup env userId email displayName s = (resolved, s')) :
    s'.users = s.users := by
  have hsame := (@leaves_resolveMemberships setup env userId email displayName).shows s
  rw [h] at hsame
  exact congrArg Prod.fst hsame

theorem finish_settled (h : Finishes setup env claims userId s)
    (hs : ∀ r ∈ s.users.rows, r.id ≠ userId → r.isPlatformAdmin = true →
      isAdminEmail setup.uiJwt.adminEmail r.email = true) :
    RightFlags setup.uiJwt.adminEmail (finish setup env claims userId s).2 := by
  obtain ⟨hresolve, hfind, hwrite⟩ := h
  obtain ⟨resolved, t, hresolved⟩ := (resolveMemberships_ok_iff userId _ _ s).mpr hresolve
  have husers := resolveMemberships_users hresolved
  simp only [finish]
  rw [bind_ok hresolved]
  exact syncPlatformAdminFlag_settled hfind hwrite setup.uiJwt.adminEmail t (husers ▸ hs)

theorem finish_unsettled (h : ¬ Finishes setup env claims userId s) :
    (finish setup env claims userId s).2.users = s.users := by
  rcases hresolved : resolveMembershipsForUser setup env userId claims.email claims.name s with ⟨e | resolved, t⟩
  · have hend : finish setup env claims userId s = (.error e, t) := bind_error hresolved
    rw [hend]
    exact resolveMemberships_users hresolved
  · have hresolve := (resolveMemberships_ok_iff userId _ _ s).mp ⟨resolved, t, hresolved⟩
    simp only [finish]
    rw [bind_ok hresolved]
    have hsync : (syncPlatformAdminFlag env userId setup.uiJwt.adminEmail t).2 = t :=
      syncPlatformAdminFlag_fault (fun hnone => h ⟨hresolve, hnone⟩) setup.uiJwt.adminEmail t
    exact (congrArg UiStore.users hsync).trans (resolveMemberships_users hresolved)

theorem finish_keeps (hs : RightFlags setup.uiJwt.adminEmail s) :
    RightFlags setup.uiJwt.adminEmail (finish setup env claims userId s).2 := by
  by_cases h : Finishes setup env claims userId s
  · exact finish_settled h (fun r hr _ => hs r hr)
  · rw [RightFlags, finish_unsettled h]
    exact hs

def IsSubject (provider subject : String) (r : UserRow) : Prop :=
  r.authProvider = provider ∧ r.externalSubject = subject

instance (provider subject : String) (r : UserRow) : Decidable (IsSubject provider subject r) := by
  unfold IsSubject
  infer_instance

/-- What the claims of a token say of a user who has been there before. -/
def renamed (claims : UiJwtClaims) (userId : String) : UserRow → UserRow :=
  setWhere (fun r => r.id == userId) (fun r => { r with
    email := claims.email.orElse (fun _ => r.email)
    displayName := claims.name.orElse (fun _ => r.displayName) })

def newUser (env : Env) (provider : String) (claims : UiJwtClaims) : UserRow :=
  ⟨env.userId, claims.email, claims.name, provider, claims.subject, none, false⟩

def insertUser (row : UserRow) (s : UiStore) : Sql (String × UiStore) :=
  match s.users.insert row with
  | some users => .ok (row.id, { s with users := users })
  | none => .error (uniqueViolation "users.id")

theorem getOrCreateUserIdentity_cases (env : Env) (provider : String) (claims : UiJwtClaims) (s : UiStore) :
    (∃ e, getOrCreateUserIdentity env provider claims.subject claims.email claims.name s = (.error e, s) ∧
      ∀ r ∈ s.users.rows, IsSubject provider claims.subject r →
        ¬ (env.faults.findUser = none ∧ env.faults.writeUser = none)) ∨
    (∃ r ∈ s.users.rows, IsSubject provider claims.subject r ∧
      env.faults.findUser = none ∧ env.faults.writeUser = none ∧
      ∃ s', getOrCreateUserIdentity env provider claims.subject claims.email claims.name s = (.ok r.id, s') ∧
        s'.users.rows = s.users.rows.map (renamed claims r.id)) ∨
    (∀ r ∈ s.users.rows, ¬ IsSubject provider claims.subject r) ∧
      ∃ userId s', getOrCreateUserIdentity env provider claims.subject claims.email claims.name s =
        (.ok userId, s') ∧
        ∃ row, row.isPlatformAdmin = false ∧ s'.users.rows = s.users.rows ++ [row] := by
  have hsubject : ∀ r : UserRow, (r.authProvider == provider && r.externalSubject == claims.subject) = true ↔
      IsSubject provider claims.subject r := by
    simp [IsSubject]
  cases hfault : env.faults.findUser with
  | some text =>
      left
      refine ⟨.database text, ?_, fun r _ _ h => ?_⟩
      · simp only [getOrCreateUserIdentity, hfault]
        rfl
      · cases h.1
  | none =>
      cases hfind : s.users.find (fun r => r.authProvider == provider && r.externalSubject == claims.subject) with
      | some r =>
          obtain ⟨hr, hmatch⟩ := find_some hfind
          have hquery : (query none (fun s : UiStore => (s.users.find (fun r =>
              r.authProvider == provider && r.externalSubject == claims.subject)).map UserRow.id)) s =
              (.ok (some r.id), s) := query_ok (by rw [hfind]; rfl)
          cases hwrite : env.faults.writeUser with
          | some text =>
              left
              refine ⟨.database text, ?_, fun r _ _ h => ?_⟩
              · simp only [getOrCreateUserIdentity, hfault, hwrite]
                rw [bind_ok hquery]
                rfl
              · cases h.2
          | none =>
              right; left
              refine ⟨r, hr, (hsubject r).mp hmatch, rfl, rfl, ?_⟩
              simp only [getOrCreateUserIdentity, hfault, hwrite]
              rw [bind_ok hquery]
              exact ⟨_, rfl, rfl⟩
      | none =>
          have hnone : ∀ r ∈ s.users.rows, ¬ IsSubject provider claims.subject r := by
            intro r hr h
            have hp := find_none_iff.mp hfind r hr
            rw [(hsubject r).mpr h] at hp
            cases hp
          have hquery : (query none (fun s : UiStore => (s.users.find (fun r =>
              r.authProvider == provider && r.externalSubject == claims.subject)).map UserRow.id)) s =
              (.ok none, s) := query_ok (by rw [hfind]; rfl)
          have hcall : getOrCreateUserIdentity env provider claims.subject claims.email claims.name s =
              execute env.faults.writeUser (insertUser (newUser env provider claims)) s := by
            simp only [getOrCreateUserIdentity, hfault]
            exact bind_ok hquery
          rw [hcall]
          rcases hx : execute env.faults.writeUser (insertUser (newUser env provider claims)) s with
            ⟨e | userId, s'⟩
          · left
            obtain ⟨rfl, -⟩ := execute_error hx
            exact ⟨e, rfl, fun r hr h => absurd h (hnone r hr)⟩
          · right; right
            refine ⟨hnone, userId, s', rfl, ?_⟩
            have hok := execute_ok hx
            unfold insertUser at hok
            split at hok
            · rename_i users hi
              cases hok
              exact ⟨_, rfl, (insert_eq_some hi).1⟩
            · cases hok

/-- The claims take the admin's e-mail from a user who is flagged. -/
def Demotes (adminEmail : Option String) (claims : UiJwtClaims) (r : UserRow) : Prop :=
  r.isPlatformAdmin = true ∧ isAdminEmail adminEmail (claims.email.orElse (fun _ => r.email)) = false

instance (adminEmail : Option String) (claims : UiJwtClaims) (r : UserRow) :
    Decidable (Demotes adminEmail claims r) := by
  unfold Demotes
  infer_instance

/-- When a token takes the admin's e-mail from a flagged user, the flag is
written as well. -/
def Settles (setup : Setup) (env : Env) (token : String) (s : UiStore) : Prop :=
  ∀ claims ∈ (decodeUiJwtClaims setup env.now token).toOption, ∀ r ∈ s.users.rows,
    IsSubject setup.uiJwt.provider claims.subject r → Demotes setup.uiJwt.adminEmail claims r →
      env.faults.findUser = none → env.faults.writeUser = none → Finishes setup env claims r.id s

instance (setup : Setup) (env : Env) (token : String) (s : UiStore) : Decidable (Settles setup env token s) := by
  unfold Settles
  infer_instance

theorem isSubject_unique {provider subject : String} {r x : UserRow} (hr : r ∈ s.users.rows)
    (hx : x ∈ s.users.rows)
    (hrs : IsSubject provider subject r) (hxs : IsSubject provider subject x) : x = r := by
  refine eq_of_mem (t := s.users) (p := fun y => decide (IsSubject provider subject y)) ?_ hx hr
    (decide_eq_true hxs) (decide_eq_true hrs)
  intro a b ha hb
  have ha := of_decide_eq_true ha
  have hb := of_decide_eq_true hb
  exact .inr ⟨ha.1.trans hb.1.symm, ha.2.trans hb.2.symm⟩

theorem resolve_snd (henabled : setup.uiJwt.enabled = true) {token : String}
    (hclaims : decodeUiJwtClaims setup env.now token = .ok claims) (s : UiStore) :
    resolveUiIdentityFromJwt setup env token s =
      (mapError (fun e : SqliteError => "Failed to resolve JWT user identity" ++ ": " ++ e.message)
        (getOrCreateUserIdentity env setup.uiJwt.provider claims.subject claims.email claims.name) >>=
          finish setup env claims) s := by
  simp only [resolveUiIdentityFromJwt, henabled, Bool.not_true, Bool.false_eq_true, if_false]
  rw [bind_ok (Commands.ofExcept_ok hclaims s)]
  rfl

theorem rightFlags_resolve_iff (henabled : setup.uiJwt.enabled = true) (token : String)
    (hs : RightFlags setup.uiJwt.adminEmail s) :
    RightFlags setup.uiJwt.adminEmail (resolveUiIdentityFromJwt setup env token s).2 ↔
      Settles setup env token s := by
  cases hclaims : decodeUiJwtClaims setup env.now token with
  | error e =>
      have hsame : (resolveUiIdentityFromJwt setup env token s).2 = s := by
        simp only [resolveUiIdentityFromJwt, henabled, hclaims, Bool.not_true, Bool.false_eq_true, if_false]
        rfl
      rw [hsame]
      refine iff_of_true hs ?_
      rw [Settles, hclaims]
      exact fun _ h => absurd h (Option.not_mem_none _)
  | ok claims =>
      have hsettles : Settles setup env token s ↔
        ∀ r ∈ s.users.rows, IsSubject setup.uiJwt.provider claims.subject r →
          Demotes setup.uiJwt.adminEmail claims r → env.faults.findUser = none → env.faults.writeUser = none →
            Finishes setup env claims r.id s := by
        rw [Settles, hclaims]
        exact ⟨fun h => h claims rfl, fun h c hc => Option.some.inj hc ▸ h⟩
      rw [hsettles, resolve_snd henabled hclaims]
      have hholdings := (leaves_getOrCreateUserIdentity env setup.uiJwt.provider claims.subject claims.email
        claims.name).shows s
      rcases getOrCreateUserIdentity_cases env setup.uiJwt.provider claims s with
        ⟨e, hcall, hfault⟩ | ⟨r, hr, hsubject, hfind, hwrite, s', hcall, hrows⟩ |
          ⟨hnone, userId, s', hcall, row, hflag, hrows⟩
      · rw [bind_error (x := mapError _ _) (by simp only [mapError, hcall]; rfl)]
        exact iff_of_true hs (fun r hr hsubject _ hfind hwrite => absurd ⟨hfind, hwrite⟩ (hfault r hr hsubject))
      · rw [hcall] at hholdings
        rw [bind_ok (mapError_ok hcall)]
        have hsame : ∀ x ∈ s.users.rows, x.id ≠ r.id → renamed claims r.id x = x := by
          intro x _ hid
          exact if_neg (by simpa using hid)
        have hself : renamed claims r.id r = { r with
            email := claims.email.orElse (fun _ => r.email)
            displayName := claims.name.orElse (fun _ => r.displayName) } := if_pos (beq_self_eq_true r.id)
        have hfinishes : Finishes setup env claims r.id s' ↔ Finishes setup env claims r.id s :=
          and_congr_left (fun _ => canResolve_congr hholdings)
        have hothers : ∀ x' ∈ s'.users.rows, x'.id ≠ r.id → x'.isPlatformAdmin = true →
            isAdminEmail setup.uiJwt.adminEmail x'.email = true := by
          intro x' hx' hid hflag
          obtain ⟨x, hx, rfl⟩ := List.mem_map.mp (hrows ▸ hx')
          have hxid : x.id ≠ r.id := by
            rwa [renamed, setWhere_keeps UserRow.id (by intro _; rfl)] at hid
          rw [hsame x hx hxid] at hflag ⊢
          exact hs x hx hflag
        by_cases hfin : Finishes setup env claims r.id s
        · refine iff_of_true (finish_settled (hfinishes.mpr hfin) hothers) ?_
          intro x hx hxs _ _ _
          rwa [isSubject_unique hr hx hsubject hxs]
        · rw [RightFlags, finish_unsettled (fun h => hfin (hfinishes.mp h))]
          constructor
          · intro h x hx hxs hdemotes _ _
            obtain rfl := isSubject_unique hr hx hsubject hxs
            have hadmin := h (renamed claims x.id x) (hrows ▸ List.mem_map_of_mem hx)
              (by rw [hself]; exact hdemotes.1)
            rw [hself] at hadmin
            exact absurd (hadmin.symm.trans hdemotes.2) Bool.true_eq_false.mp
          · intro h x' hx' hflag
            by_cases hid : x'.id = r.id
            · obtain ⟨x, hx, rfl⟩ := List.mem_map.mp (hrows ▸ hx')
              rw [renamed, setWhere_keeps UserRow.id (by intro _; rfl)] at hid
              have hfound := find_id hx
              rw [hid, find_id hr] at hfound
              obtain rfl := Option.some.inj hfound
              rw [hself] at hflag ⊢
              by_contra hadmin
              exact hfin (h r hr hsubject ⟨hflag, Bool.eq_false_of_not_eq_true hadmin⟩ hfind hwrite)
            · exact hothers x' hx' hid hflag
      · rw [bind_ok (mapError_ok hcall)]
        refine iff_of_true (finish_keeps ?_) (fun r hr hsubject => absurd hsubject (hnone r hr))
        intro r hr hrflag
        rcases List.mem_append.mp (hrows ▸ hr) with hr | hr
        · exact hs r hr hrflag
        · rw [List.mem_singleton.mp hr, hflag] at hrflag
          cases hrflag

end Resolution

section Requests

variable (setup : Setup)

theorem leaves_rights {ε α : Type} {x : Command UiStore ε α} (h : Leaves UiStore.users x) : Leaves rights x :=
  ⟨fun s => by rw [rights, rights, h.shows s]⟩

theorem leaves_rights_setUserDisabled (env : Env) (userId : String) (disabled : Bool) :
    Leaves rights (setUserDisabled env userId disabled) := by
  apply leaves_execute
  intro s a s' h
  cases h
  simp only [rights, rows_update, List.map_map]
  apply List.map_congr_left
  intro r _
  exact setWhere_keeps (fun r : UserRow => (r.email, r.isPlatformAdmin)) (by intro _; rfl) r

theorem leaves_revokeAuthSessions_users (env : Env) (p : AuthSessionRow → Bool) :
    Leaves UiStore.users (revokeAuthSessions env p) := by
  apply leaves_execute
  intro s a s' h
  cases h
  rfl

theorem leaves_revokeUiSession_users (env : Env) (token : String) (csrfToken : Option String) :
    Leaves UiStore.users (revokeUiSession setup env token csrfToken) := by
  have hrevoke : ∀ tokenHash, Leaves UiStore.users (failing "Failed to revoke UI session"
      (revokeAuthSessionByTokenHash env tokenHash)) := fun tokenHash =>
    leaves_mapError (leaves_bind (leaves_revokeAuthSessions_users env _) (fun _ => leaves_pure _))
  simp only [revokeUiSession]
  split
  · exact leaves_pure _
  · refine leaves_bind (leaves_findUiSession env token) (fun found => ?_)
    cases found with
    | none => exact leaves_bind (hrevoke _) (fun _ => leaves_pure _)
    | some found => exact leaves_bind (leaves_ofExcept _) (fun _ => leaves_bind (hrevoke _) (fun _ => leaves_pure _))

theorem leaves_rights_handle (env : Env) (auth : AuthContext) (action : Action) :
    Leaves rights (handle setup env auth action) := by
  cases action with
  | createProject name description =>
      rw [handle]
      exact leaves_rights ((leaves_httpCreateProject env auth name description).map (fun v => v.1.1))
  | deleteProject projectId => exact leaves_rights ((leaves_httpDeleteProject env auth projectId).map (fun v => v.1.1))
  | disableUser userId =>
      refine leaves_bind (leaves_requireAdminAndUser env auth userId) (fun _ => ?_)
      refine leaves_bind (leaves_mapError (leaves_rights_setUserDisabled env userId true)) (fun _ => ?_)
      refine leaves_bind (leaves_mapError (leaves_rights (leaves_revokeAuthSessions_users env _))) (fun _ => ?_)
      exact leaves_rereadUser env userId
  | enableUser userId =>
      refine leaves_bind (leaves_requireAdminAndUser env auth userId) (fun _ => ?_)
      refine leaves_bind (leaves_mapError (leaves_rights_setUserDisabled env userId false)) (fun _ => ?_)
      exact leaves_rereadUser env userId
  | revokeSession sessionId =>
      refine leaves_bind (leaves_ofExcept _) (fun _ => leaves_bind (leaves_ofExcept _) (fun _ => ?_))
      refine leaves_bind (leaves_mapError (leaves_bind (leaves_rights (leaves_revokeAuthSessions_users env _))
        (fun _ => leaves_pure _))) (fun revoked => ?_)
      cases revoked with
      | true => exact leaves_pure _
      | false => exact leaves_fail _
  | logout sessionToken csrfToken =>
      cases sessionToken with
      | none => exact leaves_pure _
      | some token =>
          exact leaves_bind (leaves_mapError (leaves_rights (leaves_revokeUiSession_users setup env token _)))
            (fun _ => leaves_pure _)
  | other => exact leaves_pure _

theorem leaves_touchAuthSession_users (env : Env) (sessionId : String) (ttl : Nat) :
    Leaves UiStore.users (touchAuthSession env sessionId ttl) := by
  apply leaves_execute
  intro s a s' h
  cases h
  rfl

theorem leaves_authenticateUiSession (env : Env) (token : String) (csrfToken : Option String)
    (requireCsrf : Bool) :
    Leaves UiStore.users (authenticateUiSession setup env token csrfToken requireCsrf) := by
  simp only [authenticateUiSession]
  split
  · exact leaves_fail _
  · refine leaves_bind (leaves_findUiSession env token) (fun found => ?_)
    cases found with
    | none => exact leaves_fail _
    | some found =>
        refine leaves_bind (leaves_ofExcept _) (fun _ => ?_)
        refine leaves_bind (leaves_mapError ((leaves_resolveMemberships env _ _ _).map Prod.fst))
          (fun resolved => ?_)
        refine leaves_bind (leaves_attempt (leaves_touchAuthSession_users env _ _)) (fun _ => ?_)
        exact leaves_bind (leaves_attempt (leaves_query _ _)) (fun _ => leaves_pure _)

def resolvedJwt : Op → Option String
  | .login jwt bearer env =>
      if setup.uiJwt.enabled = true ∧ env.retryAfter = none then
        ((jwt.map trim).filter (fun v => !v.isEmpty)).orElse (fun _ => bearer)
      else none
  | .request (.bearer token) _ env =>
      if setup.uiJwt.enabled = true ∧ setup.authDisabled = false ∧ env.retryAfter = none ∧ env.apiKey = none then
        some token
      else none
  | .request _ _ _ => none

def resolution (op : Op) (s : UiStore) : UiStore :=
  match resolvedJwt setup op with
  | some token => (resolveUiIdentityFromJwt setup op.env token s).2
  | none => s

variable {setup}

theorem resolution_none {op : Op} (h : resolvedJwt setup op = none) (s : UiStore) : resolution setup op s = s := by
  simp only [resolution, h]

theorem resolution_some {op : Op} {token : String} (h : resolvedJwt setup op = some token) (s : UiStore) :
    resolution setup op s = (resolveUiIdentityFromJwt setup op.env token s).2 := by
  simp only [resolution, h]

theorem leaves_insertAuthSession_users (env : Env) (userId tokenHash csrfHash : String) (expiresAt : Nat) :
    Leaves UiStore.users (insertAuthSession env userId tokenHash csrfHash expiresAt) := by
  apply leaves_execute
  intro s a s' h
  split at h <;> cases h
  rfl

theorem rights_createUiSession (henabled : setup.uiJwt.enabled = true) (env : Env) (token : String) (s : UiStore) :
    rights (createUiSessionFromJwt setup env token s).2 =
      rights (resolveUiIdentityFromJwt setup env token s).2 := by
  simp only [createUiSessionFromJwt, henabled, Bool.not_true, Bool.false_eq_true, if_false]
  refine bind_leaves rights (fun identity => ?_) s
  exact leaves_bind (leaves_mapError (leaves_rights (leaves_insertAuthSession_users env _ _ _ _)))
    (fun _ => leaves_pure _)

theorem rights_login (jwt bearer : Option String) (env : Env) (s : UiStore) :
    rights (httpUiAuthLogin setup env jwt bearer s).2 = rights (resolution setup (.login jwt bearer env) s) := by
  cases henabled : setup.uiJwt.enabled with
  | false =>
      have hnone : resolvedJwt setup (.login jwt bearer env) = none :=
        if_neg (fun h => Bool.false_ne_true (henabled.symm.trans h.1))
      rw [resolution_none hnone]
      simp only [httpUiAuthLogin]
      cases env.retryAfter with
      | some retryAfter => rfl
      | none =>
          cases ((jwt.map trim).filter (fun v => !v.isEmpty)).orElse (fun _ => bearer) with
          | none => rfl
          | some token =>
              simp only [mapError, createUiSessionFromJwt, henabled]
              rfl
  | true =>
      cases hretry : env.retryAfter with
      | some retryAfter =>
          have hnone : resolvedJwt setup (.login jwt bearer env) = none :=
            if_neg (fun h => Option.some_ne_none _ (hretry.symm.trans h.2))
          rw [resolution_none hnone]
          simp only [httpUiAuthLogin, hretry]
          rfl
      | none =>
          have hresolved : resolvedJwt setup (.login jwt bearer env) =
              ((jwt.map trim).filter (fun v => !v.isEmpty)).orElse (fun _ => bearer) := if_pos ⟨henabled, hretry⟩
          simp only [httpUiAuthLogin, hretry]
          cases htoken : ((jwt.map trim).filter (fun v => !v.isEmpty)).orElse (fun _ => bearer) with
          | none =>
              rw [resolution_none (hresolved.trans htoken)]
              rfl
          | some token =>
              rw [resolution_some (hresolved.trans htoken)]
              exact rights_createUiSession henabled env token s

theorem rights_authMiddleware (env : Env) (credential : RequestCredential) (action : Action) (s : UiStore) :
    rights (authMiddleware setup env credential s).2 =
      rights (resolution setup (.request credential action env) s) := by
  by_cases hbearer : ∃ token, credential = .bearer token ∧ setup.uiJwt.enabled = true ∧
    setup.authDisabled = false ∧
      env.retryAfter = none ∧ env.apiKey = none
  · obtain ⟨token, rfl, henabled, hauth, hretry, hkey⟩ := hbearer
    have hresolved : resolvedJwt setup (.request (.bearer token) action env) = some token :=
      if_pos ⟨henabled, hauth, hretry, hkey⟩
    rw [resolution_some hresolved]
    simp only [authMiddleware, hauth, hretry, hkey, henabled, Bool.false_eq_true, if_false, if_true]
    refine (bind_leaves rights (fun r => leaves_pure _) s).trans ?_
    exact bind_leaves rights (fun identity => leaves_pure _) s
  · have hnone : resolvedJwt setup (.request credential action env) = none := by
      cases credential with
      | bearer token => exact if_neg (fun h => hbearer ⟨token, rfl, h⟩)
      | missing | apiKey | uiSession => rfl
    rw [resolution_none hnone]
    simp only [authMiddleware]
    split
    · rfl
    rename_i hauth
    cases hretry : env.retryAfter with
    | some retryAfter => rfl
    | none =>
        cases credential with
        | missing => rfl
        | apiKey => cases env.apiKey <;> rfl
        | bearer token =>
            cases hkey : env.apiKey with
            | some key => rfl
            | none =>
                have hdisabled : ¬ setup.uiJwt.enabled = true := fun henabled =>
                  hbearer ⟨token, rfl, henabled, Bool.eq_false_of_not_eq_true hauth, hretry, hkey⟩
                simp only [hdisabled]
                rfl
        | uiSession token csrfHeaderToken requireCsrf =>
            refine (bind_leaves rights (fun r => leaves_pure _) s).trans ?_
            exact (leaves_rights (leaves_authenticateUiSession setup env token csrfHeaderToken requireCsrf)).shows s

theorem rights_step (s : UiStore) (op : Op) : rights (step setup s op).2 = rights (resolution setup op s) := by
  cases op with
  | login jwt bearer env => exact rights_login jwt bearer env s
  | request credential action env =>
      rw [← rights_authMiddleware]
      rcases hmw : authMiddleware setup env credential s with ⟨e | auth, s'⟩
      · rw [step_refused hmw]
      · rw [step_served hmw]
        exact (leaves_rights_handle setup env auth action).shows s'

/-- Whatever token takes the admin's e-mail from a user takes the flag as well. -/
def AllSettle (setup : Setup) (_ : List (Op × Reply)) (s : UiStore) (op : Op) : Prop :=
  ∀ token ∈ resolvedJwt setup op, Settles setup op.env token s

instance (past : List (Op × Reply)) (s : UiStore) (op : Op) : Decidable (AllSettle setup past s op) := by
  unfold AllSettle
  infer_instance

theorem enabled_of_resolved {op : Op} {token : String} (h : resolvedJwt setup op = some token) :
    setup.uiJwt.enabled = true := by
  cases op with
  | login jwt bearer env =>
      simp only [resolvedJwt] at h
      split at h
      · rename_i hc
        exact hc.1
      · cases h
  | request credential action env =>
      cases credential with
      | bearer token =>
          simp only [resolvedJwt] at h
          split at h
          · rename_i hc
            exact hc.1
          · cases h
      | missing | apiKey | uiSession => cases h

theorem rightFlags_step_iff {s : UiStore} (hs : RightFlags setup.uiJwt.adminEmail s)
    (past : List (Op × Reply)) (op : Op) :
    RightFlags setup.uiJwt.adminEmail (step setup s op).2 ↔ AllSettle setup past s op := by
  rw [rightFlags_congr (rights_step s op)]
  cases hresolved : resolvedJwt setup op with
  | none =>
      rw [resolution_none hresolved]
      refine iff_of_true hs ?_
      rw [AllSettle, hresolved]
      exact fun _ h => absurd h (Option.not_mem_none _)
  | some token =>
      rw [resolution_some hresolved, rightFlags_resolve_iff (enabled_of_resolved hresolved) token hs,
        AllSettle, hresolved]
      exact ⟨fun h t ht => Option.some.inj ht ▸ h, fun h => h token rfl⟩

theorem rightFlags_run_iff (setup : Setup) (ops : List Op) :
    (∀ before, before <+: ops → RightFlags setup.uiJwt.adminEmail (after (step setup) .empty before)) ↔
      Guarded (step setup) (AllSettle setup) [] .empty ops :=
  forall_prefix_iff_guarded (A := fun _ _ _ => True) (P := RightFlags setup.uiJwt.adminEmail) (fun past _ op hs _ =>
    rightFlags_step_iff hs past op) []
    (fun _ hr => absurd hr List.not_mem_nil) ops (guarded_true _ _ _ _)

/-- The e-mail stored for a user is the admin's. -/
def HasAdminEmail (setup : Setup) (u : String) (s : UiStore) : Prop :=
  ∃ r ∈ s.users.rows, r.id = u ∧ isAdminEmail setup.uiJwt.adminEmail r.email = true

theorem triple_syncPlatformAdminFlag (env : Env) (u : String) :
    Triple (fun _ => True) (syncPlatformAdminFlag env u setup.uiJwt.adminEmail)
      (fun isAdmin s => isAdmin = true → HasAdminEmail setup u s) (fun _ => True) := by
  refine triple_bind (Q := fun email s => email = (s.users.find (fun r => r.id == u)).bind UserRow.email)
    (triple_query (fun _ _ => rfl) (fun _ h => h)) (fun email => triple_execute ?_ (fun _ _ => trivial))
  rintro s a s' rfl h hadmin
  cases h
  have hadmin : isAdminEmail setup.uiJwt.adminEmail ((s.users.find (fun r => r.id == u)).bind UserRow.email) = true :=
    hadmin
  cases hfind : s.users.find (fun r => r.id == u) with
  | none =>
      rw [hfind] at hadmin
      cases hadmin
  | some r =>
      rw [hfind, Option.bind_some] at hadmin
      obtain ⟨hr, hid⟩ := find_some hfind
      refine ⟨_, List.mem_map_of_mem hr, ?_, ?_⟩
      · exact (setWhere_keeps UserRow.id (by intro _; rfl) r).trans (beq_iff_eq.mp hid)
      · rwa [setWhere_keeps UserRow.email (by intro _; rfl)]

theorem triple_resolve_admin (env : Env) (token : String) :
    Triple (fun _ => True) (resolveUiIdentityFromJwt setup env token)
      (fun identity s => identity.isPlatformAdmin = true →
        HasAdminEmail setup identity.userId s) (fun _ => True) := by
  simp only [resolveUiIdentityFromJwt]
  refine triple_ite (fun _ => triple_fail (fun _ h => h)) (fun _ => ?_)
  refine triple_bind (Q := fun _ _ => True) (triple_ofExcept (fun _ _ _ h => h) (fun _ h => h)) (fun claims => ?_)
  refine triple_bind (Q := fun _ _ => True) (triple_of_after (fun _ h => h)) (fun userId => ?_)
  refine triple_bind (Q := fun _ _ => True) (triple_of_after (fun _ h => h)) (fun resolved => ?_)
  refine triple_bind (Q := fun isAdmin s => isAdmin.getD false = true → HasAdminEmail setup userId s)
    (triple_attempt (triple_syncPlatformAdminFlag env userId) (fun _ _ h => h) (fun _ _ h => ?_)) (fun isAdmin => ?_)
  · cases h
  · exact triple_pure (fun _ h => h)

theorem keeps_rightFlags {ε α : Type} {x : Command UiStore ε α} (h : Leaves UiStore.users x) :
    Keeps (RightFlags setup.uiJwt.adminEmail) x :=
  (leaves_rights h).keeps (fun _ _ h => (rightFlags_congr h).mp)

theorem triple_authenticateUiSession_admin (env : Env) (token : String) (csrfToken : Option String)
    (requireCsrf : Bool) :
    Triple (RightFlags setup.uiJwt.adminEmail) (authenticateUiSession setup env token csrfToken requireCsrf)
      (fun r s => r.2.2 = true → ∃ u, authUserId (.ofUi r.1 r.2.1 r.2.2) = some u ∧ HasAdminEmail setup u s)
      (fun _ => True) := by
  simp only [authenticateUiSession]
  refine triple_ite (fun _ => triple_fail (fun _ _ => trivial)) (fun _ => ?_)
  refine triple_bind ((keeps_rightFlags (leaves_findUiSession env token)).fails (fun _ _ => trivial))
    (fun found => ?_)
  cases found with
  | none => exact triple_fail (fun _ _ => trivial)
  | some found =>
      refine triple_bind ((keeps_rightFlags (leaves_ofExcept _)).fails (fun _ _ => trivial)) (fun _ => ?_)
      refine triple_bind ((keeps_rightFlags
        (leaves_mapError ((leaves_resolveMemberships env _ _ _).map Prod.fst))).fails
        (fun _ _ => trivial)) (fun resolved => ?_)
      refine triple_bind ((keeps_rightFlags (leaves_attempt (leaves_touchAuthSession_users env _ _))).fails
        (fun _ _ => trivial)) (fun _ => ?_)
      refine triple_bind (Q := fun isAdmin s => isAdmin.getD false = true → HasAdminEmail setup found.1.userId s)
        (triple_attempt (triple_query (Q := fun isAdmin s => isAdmin = true → HasAdminEmail setup found.1.userId s) ?_
          (fun _ h => h)) (fun _ _ h => h) (fun _ _ h => ?_)) (fun isAdmin => ?_)
      · intro s hs hflag
        cases hfind : s.users.find (fun r => r.id == found.1.userId) with
        | none =>
            rw [hfind] at hflag
            cases hflag
        | some r =>
            rw [hfind] at hflag
            obtain ⟨hr, hid⟩ := find_some hfind
            exact ⟨r, hr, beq_iff_eq.mp hid, hs r hr hflag⟩
      · cases h
      · refine triple_pure (fun s h hadmin => ⟨found.1.userId, ?_, h hadmin⟩)
        exact DisabledUsers.authUserId_ui (by simp) _ _ _

theorem triple_authenticateUiJwt_admin (env : Env) (token : String) :
    Triple (fun _ => True) (authenticateUiJwt setup env token)
      (fun r s => r.2.2 = true → ∃ u, authUserId (.ofUi r.1 r.2.1 r.2.2) = some u ∧ HasAdminEmail setup u s)
      (fun _ => True) := by
  refine triple_bind (triple_resolve_admin env token) (fun identity => triple_pure (fun s h hadmin => ?_))
  exact ⟨identity.userId, DisabledUsers.authUserId_ui (by simp) _ _ _, h hadmin⟩

theorem triple_authMiddleware_admin (setup : Setup) (env : Env) (credential : RequestCredential) :
    Triple (RightFlags setup.uiJwt.adminEmail) (authMiddleware setup env credential)
      (fun auth s => auth.isPlatformAdmin = true → ∀ u, authUserId auth = some u → HasAdminEmail setup u s)
      (fun _ => True) := by
  have hfail : ∀ e : HttpError, Triple (RightFlags setup.uiJwt.adminEmail) (fail e : Handler AuthContext)
      (fun auth s => auth.isPlatformAdmin = true → ∀ u, authUserId auth = some u → HasAdminEmail setup u s)
      (fun _ => True) := fun e => triple_fail (fun _ _ => trivial)
  have hkey : ∀ key : ApiKey, Triple (RightFlags setup.uiJwt.adminEmail) (pure (.ofApiKey key) : Handler AuthContext)
      (fun auth s => auth.isPlatformAdmin = true → ∀ u, authUserId auth = some u → HasAdminEmail setup u s)
      (fun _ => True) := fun key => triple_pure (fun _ _ h => absurd h Bool.false_ne_true)
  have hui : ∀ r : ApiKey × Finset String × Bool,
      Triple (fun s => r.2.2 = true → ∃ u, authUserId (.ofUi r.1 r.2.1 r.2.2) = some u ∧ HasAdminEmail setup u s)
        (pure (.ofUi r.1 r.2.1 r.2.2) : Handler AuthContext)
        (fun auth s => auth.isPlatformAdmin = true → ∀ u, authUserId auth = some u → HasAdminEmail setup u s)
        (fun _ => True) := by
    intro r
    refine triple_pure (fun s h hadmin u hu => ?_)
    obtain ⟨v, hv, hemail⟩ := h hadmin
    rwa [← Option.some.inj (hv.symm.trans hu)]
  simp only [authMiddleware]
  refine triple_ite (fun _ => triple_pure (fun _ _ _ u hu => absurd hu.symm (Option.some_ne_none u))) (fun _ => ?_)
  cases env.retryAfter with
  | some retryAfter => exact hfail _
  | none =>
      cases credential with
      | missing => exact hfail _
      | apiKey =>
          cases env.apiKey with
          | some key => exact hkey key
          | none => exact hfail _
      | bearer token =>
          cases env.apiKey with
          | some key => exact hkey key
          | none =>
              refine triple_ite (fun _ => ?_) (fun _ => hfail _)
              exact triple_bind (triple_mapError (triple_weaken (triple_authenticateUiJwt_admin env token)
                (fun _ _ => trivial) (fun _ _ h => h) (fun _ h => h))) hui
      | uiSession token csrfHeaderToken requireCsrf =>
          exact triple_bind (triple_mapError (triple_authenticateUiSession_admin env token _ _)) hui

/-- Whoever is served as a platform admin has the admin's e-mail at that moment,
in a run whose tokens settle. -/
theorem platform_admin_has_email (setup : Setup) (ops : List Op)
    (hg : Guarded (step setup) (AllSettle setup) [] .empty ops) (credential : RequestCredential) (env : Env)
    {auth : AuthContext} {s' : UiStore} {u : String}
    (h : authMiddleware setup env credential (after (step setup) .empty ops) = (.ok auth, s'))
    (hadmin : auth.isPlatformAdmin = true) (hu : authUserId auth = some u) : HasAdminEmail setup u s' := by
  have hflags := (rightFlags_run_iff setup ops).mpr hg ops List.prefix_rfl
  exact (triple_authMiddleware_admin setup env credential).of_ok hflags h hadmin u hu

end Requests

/-- An instance whose admin signs in with one token, and whose second token
brings the same user's new e-mail. -/
def adminInstance : Setup where
  authDisabled := false
  uiJwt := ⟨true, some "secret", none, .hs256, true, "personal", some "issuer", some "audience", "oidc", 3600,
    some "admin@example.org", fun _ => true⟩
  hashing := KeyStore.plainHashing
  jwt := ⟨fun _ => .ok (), fun _ => .ok (), fun _ _ _ _ _ token =>
    if token == "old" then .ok ⟨some "subject", none, some "Admin@example.org", none⟩
    else .ok ⟨some "subject", none, some "user@example.org", none⟩⟩

def login : List Op := [.login (some "old") none { now := 10, userId := "u1", sessionToken := "s1" }]

def session : RequestCredential := .uiSession "s1" none false

theorem platform_admin_has_email_login :
    (∃ auth s', authMiddleware adminInstance { now := 20 } session (after (step adminInstance) .empty login) =
      (.ok auth, s') ∧ auth.isPlatformAdmin = true ∧ authUserId auth = some "u1" ∧
      HasAdminEmail adminInstance "u1" s') := by
  have h : authMiddleware adminInstance { now := 20 } session (after (step adminInstance) .empty login) =
      (.ok _, (authMiddleware adminInstance { now := 20 } session (after (step adminInstance) .empty login)).2) := rfl
  exact ⟨_, _, h, rfl, rfl, platform_admin_has_email adminInstance login (by decide +kernel) session _ h rfl rfl⟩

/-- The e-mail changes and a failure of the next statement keeps the flag. -/
def rename : List Op :=
  login ++ [.request (.bearer "new") .other { now := 20, faults := { listMemberships := some "disk I/O error" } }]

theorem admin_without_email :
    ∃ auth s', authMiddleware adminInstance { now := 30 } session (after (step adminInstance) .empty rename) =
      (.ok auth, s') ∧ auth.isPlatformAdmin = true ∧ authUserId auth = some "u1" ∧
      s'.users.rows.map (fun r => (r.id, r.email)) = [("u1", some "user@example.org")] ∧
      isAdminEmail adminInstance.uiJwt.adminEmail (some "user@example.org") = false :=
  ⟨_, _, rfl, rfl, rfl, rfl, by decide⟩

end MLRunX.PlatformAdmins
