import Mathlib.Data.Set.Insert
import MLRunX.UiRequests

namespace MLRunX.PersonalProjects

open Auth Commands Http Memberships Runs Sqlite Statements Tables Text UiAuth UiRequests UiTables
open KeyStore (plainHashing)

variable {setup : Setup}

/-- Who holds or has held a membership, under the names of the projects. -/
def holders (s : UiStore) : Set (String × String) :=
  {h | ∃ m ∈ s.memberships.rows, ∃ p ∈ s.projects.rows, p.id = m.projectId ∧ p.name = h.1 ∧ m.userId = h.2}

def provisioned (s : UiStore) : Set (String × String) :=
  {h | ∃ v ∈ s.log, v.projectName = h.1 ∧ v.userId = h.2}

/-- Every membership is one of `H`, or was logged when it was granted unasked. -/
structure Tracks (H : Set (String × String)) (s : UiStore) : Prop where
  owned : ∀ m ∈ s.memberships.rows, ∃ p ∈ s.projects.rows, p.id = m.projectId
  named : ∀ v ∈ s.log, ∃ p ∈ s.projects.rows, p.id = v.projectId ∧ p.name = v.projectName
  holders_eq : holders s = H ∪ provisioned s

theorem holders_congr {s s' : UiStore} (h : s.holdings = s'.holdings) : holders s = holders s' := by
  have hp : s.projects = s'.projects := congrArg Prod.fst h
  have hm : s.memberships = s'.memberships := congrArg (fun v => v.2.1) h
  simp only [holders, hp, hm]

theorem tracks_congr {H : Set (String × String)} {s s' : UiStore} (h : s.holdings = s'.holdings)
    (hs : Tracks H s) :
    Tracks H s' := by
  have hp : s.projects = s'.projects := congrArg Prod.fst h
  have hm : s.memberships = s'.memberships := congrArg (fun v => v.2.1) h
  have hl : s.log = s'.log := congrArg (fun v => v.2.2) h
  refine ⟨hp ▸ hm ▸ hs.owned, hp ▸ hl ▸ hs.named, ?_⟩
  rw [← holders_congr h, hs.holders_eq, provisioned, provisioned, hl]

theorem keeps_tracks {H : Set (String × String)} {ε α : Type} {x : Command UiStore ε α}
    (h : Leaves UiStore.holdings x) : Keeps (Tracks H) x := h.keeps (fun _ _ => tracks_congr)

theorem tracks_insertProject {H : Set (String × String)} {s : UiStore} {row : ProjectRow}
    {projects : Table ProjectRow ProjectRow.clash} (hs : Tracks H s) (hi : s.projects.insert row = some projects) :
    Tracks H { s with projects := projects } := by
  obtain ⟨hrows, hfresh⟩ := insert_eq_some hi
  have hsub : ∀ p ∈ s.projects.rows, p ∈ projects.rows := fun p hp => hrows ▸ List.mem_append_left _ hp
  refine ⟨?_, ?_, ?_⟩
  · intro m hm
    obtain ⟨p, hp, hid⟩ := hs.owned m hm
    exact ⟨p, hsub p hp, hid⟩
  · intro v hv
    obtain ⟨p, hp, h⟩ := hs.named v hv
    exact ⟨p, hsub p hp, h⟩
  · rw [show H ∪ provisioned { s with projects := projects } = holders s from hs.holders_eq.symm]
    ext h
    constructor
    · rintro ⟨m, hm, p, hp, hid, hname⟩
      obtain ⟨q, hq, hqid⟩ := hs.owned m hm
      have hp' : p ∈ projects.rows := hp
      rw [hrows, List.mem_append, List.mem_singleton] at hp'
      rcases hp' with hp' | rfl
      · exact ⟨m, hm, p, hp', hid, hname⟩
      · exact absurd (.inl (hqid.trans hid.symm)) (hfresh q hq)
    · rintro ⟨m, hm, p, hp, h⟩
      exact ⟨m, hm, p, hsub p hp, h⟩

theorem tracks_setMemberships {H : Set (String × String)} {s : UiStore}
    {memberships : Table MembershipRow MembershipRow.clash} {p : MembershipRow → Bool}
    {g : MembershipRow → MembershipRow} (hs : Tracks H s)
    (h : memberships.rows = s.memberships.rows.map (setWhere p g)) (hp : ∀ r, (g r).projectId = r.projectId)
    (hu : ∀ r, (g r).userId = r.userId) : Tracks H { s with memberships := memberships } := by
  refine ⟨?_, hs.named, ?_⟩
  · intro m hm
    obtain ⟨r, hr, rfl⟩ := List.mem_map.mp (h ▸ hm)
    rw [setWhere_keeps MembershipRow.projectId hp]
    exact hs.owned r hr
  · rw [show H ∪ provisioned { s with memberships := memberships } = holders s from hs.holders_eq.symm]
    ext k
    constructor
    · rintro ⟨m, hm, q, hq, hid, hname, huser⟩
      obtain ⟨r, hr, rfl⟩ := List.mem_map.mp (h ▸ hm)
      rw [setWhere_keeps MembershipRow.projectId hp] at hid
      rw [setWhere_keeps MembershipRow.userId hu] at huser
      exact ⟨r, hr, q, hq, hid, hname, huser⟩
    · rintro ⟨r, hr, q, hq, hid, hname, huser⟩
      refine ⟨setWhere p g r, h ▸ List.mem_map_of_mem hr, q, hq, ?_, hname, ?_⟩
      · rw [setWhere_keeps MembershipRow.projectId hp, hid]
      · rw [setWhere_keeps MembershipRow.userId hu, huser]

theorem tracks_insertMembership {H : Set (String × String)} {s : UiStore} {row : MembershipRow}
    {memberships : Table MembershipRow MembershipRow.clash} (hs : Tracks H s)
    (hi : s.memberships.insert row = some memberships) {p : ProjectRow} (hp : p ∈ s.projects.rows)
    (hid : p.id = row.projectId) :
    Tracks (insert (p.name, row.userId) H) { s with memberships := memberships } := by
  obtain ⟨hrows, -⟩ := insert_eq_some hi
  refine ⟨?_, hs.named, ?_⟩
  · intro m hm
    rw [hrows, List.mem_append, List.mem_singleton] at hm
    rcases hm with hm | rfl
    · exact hs.owned m hm
    · exact ⟨p, hp, hid⟩
  · rw [Set.insert_union, show H ∪ provisioned { s with memberships := memberships } =
      holders s from hs.holders_eq.symm]
    ext k
    constructor
    · rintro ⟨m, hm, q, hq, hqid, hname, huser⟩
      have hm' : m ∈ memberships.rows := hm
      rw [hrows, List.mem_append, List.mem_singleton] at hm'
      rcases hm' with hm' | rfl
      · exact .inr ⟨m, hm', q, hq, hqid, hname, huser⟩
      · have hqp : q = p := eq_of_mem (p := fun r => r.id == m.projectId)
          (fun a b ha hb => .inl ((beq_iff_eq.mp ha).trans (beq_iff_eq.mp hb).symm)) hq hp
          (beq_iff_eq.mpr hqid) (beq_iff_eq.mpr hid)
        exact .inl (Prod.ext (hqp ▸ hname.symm) huser.symm)
    · rintro (rfl | ⟨m, hm, q, hq, h⟩)
      · exact ⟨row, hrows ▸ List.mem_append_right _ (List.mem_singleton_self row), p, hp, hid, rfl, rfl⟩
      · exact ⟨m, hrows ▸ List.mem_append_left _ hm, q, hq, h⟩

theorem tracks_log {H : Set (String × String)} {s : UiStore} {v : Provision}
    (hs : Tracks (insert (v.projectName, v.userId) H) s)
    (hp : ∃ p ∈ s.projects.rows, p.id = v.projectId ∧ p.name = v.projectName) :
    Tracks H { s with log := s.log ++ [v] } := by
  refine ⟨hs.owned, ?_, ?_⟩
  · intro w hw
    rcases List.mem_append.mp hw with hw | hw
    · exact hs.named w hw
    · obtain rfl := List.mem_singleton.mp hw
      exact hp
  · have hlog : provisioned { s with log := s.log ++ [v] } = insert (v.projectName, v.userId) (provisioned s) := by
      ext k
      constructor
      · rintro ⟨w, hw, hname, huser⟩
        rcases List.mem_append.mp hw with hw | hw
        · exact .inr ⟨w, hw, hname, huser⟩
        · obtain rfl := List.mem_singleton.mp hw
          exact .inl (Prod.ext hname.symm huser.symm)
      · rintro (rfl | ⟨w, hw, h⟩)
        · exact ⟨v, List.mem_append_right _ (List.mem_singleton_self v), rfl, rfl⟩
        · exact ⟨w, List.mem_append_left _ hw, h⟩
    rw [hlog, Set.union_insert, ← Set.insert_union]
    exact hs.holders_eq

/-- The project named `n` has the id `p`. -/
def Named (p n : String) (s : UiStore) : Prop := ∃ r ∈ s.projects.rows, r.id = p ∧ r.name = n

variable {H : Set (String × String)}

theorem triple_getOrCreateProject (env : Env) (n : String) :
    Triple (Tracks H) (getOrCreateProject env n) (fun p s => Tracks H s ∧ Named p n s) (Tracks H) := by
  refine triple_bind (Q := fun existing s => Tracks H s ∧ ∀ r ∈ existing.join, Named r.id n s)
    (triple_attempt (triple_query (Q := fun r s => Tracks H s ∧ ∀ r' ∈ r, Named r'.id n s) ?_ (fun _ h => h))
      (fun _ _ h => h) (fun s h => ⟨h, nofun⟩)) (fun existing => ?_)
  · intro s hs
    refine ⟨hs, ?_⟩
    intro r hr
    obtain ⟨hmem, hname⟩ := find_some hr
    exact ⟨r, hmem, rfl, beq_iff_eq.mp hname⟩
  · cases existing.join with
    | some r => exact triple_pure (fun s hs => ⟨hs.1, hs.2 r rfl⟩)
    | none =>
        refine triple_execute ?_ (fun s hs => hs.1)
        rintro s a s' ⟨hs, -⟩ h
        split at h
        · rename_i projects hi
          cases h
          refine ⟨tracks_insertProject hs hi, ⟨env.projectId, n, none⟩, ?_, rfl, rfl⟩
          exact (insert_eq_some hi).1 ▸ List.mem_append_right _ (List.mem_singleton_self _)
        · cases h

theorem triple_grantProjectMembership (env : Env) (p n u : String) (role : Role) (grantedBy : Option String) :
    Triple (fun s => Tracks H s ∧ Named p n s) (grantProjectMembership env p u role grantedBy)
      (fun _ s => Tracks (insert (n, u) H) s ∧ Named p n s) (Tracks H) := by
  refine triple_bind (Q := fun _ s => Tracks H s ∧ Named p n s) (triple_execute ?_ (fun s hs => hs.1))
    (fun _ => triple_execute ?_ (fun s hs => hs.1))
  · rintro s a s' ⟨hs, hn⟩ h
    cases h
    exact ⟨tracks_setMemberships hs rfl (fun _ => rfl) (fun _ => rfl), hn⟩
  · rintro s a s' ⟨hs, r, hr, rfl, rfl⟩ h
    split at h
    · rename_i memberships hi
      cases h
      exact ⟨tracks_insertMembership hs hi hr rfl, r, hr, rfl, rfl⟩
    · cases h

theorem keeps_autoProvision (env : Env) (u : String) (email displayName : Option String) :
    Keeps (Tracks H) (autoProvisionPersonalProject setup env u email displayName) := by
  refine triple_bind (triple_mapError (triple_getOrCreateProject env _)) (fun p => ?_)
  refine triple_bind (triple_mapError (triple_grantProjectMembership env p _ u .owner (some u))) (fun _ => ?_)
  exact ⟨fun s hs => tracks_log hs.1 hs.2⟩

/-- An invariant of what belongs to whom that provisioning keeps. Everything
else that authentication does is about users and sessions. -/
structure Provisions (setup : Setup) (I : UiStore → Prop) : Prop where
  congr : ∀ s s', s.holdings = s'.holdings → I s → I s'
  provision : ∀ env u email displayName, Keeps I (autoProvisionPersonalProject setup env u email displayName)

variable {I : UiStore → Prop}

theorem Provisions.keeps (hI : Provisions setup I) {ε α : Type} {x : Command UiStore ε α}
    (h : Leaves UiStore.holdings x) : Keeps I x := h.keeps hI.congr

theorem provisions_tracks (setup : Setup) (H : Set (String × String)) : Provisions setup (Tracks H) :=
  ⟨fun _ _ => tracks_congr, keeps_autoProvision⟩

theorem keeps_resolveMemberships (hI : Provisions setup I) (env : Env) (u : String)
    (email displayName : Option String) :
    Keeps I (resolveMembershipsForUser setup env u email displayName) := by
  have hload : Keeps I (loadMemberships setup env u email displayName) := by
    refine keeps_bind (hI.keeps (leaves_mapError (leaves_query _ _))) (fun memberships => ?_)
    split
    · exact keeps_bind (hI.provision env u _ _) (fun _ => hI.keeps (leaves_mapError (leaves_query _ _)))
    · exact triple_pure (fun _ h => h)
  refine keeps_bind hload (fun memberships => ?_)
  split
  · exact triple_fail (fun _ h => h)
  · exact triple_pure (fun _ h => h)

theorem keeps_resolveUiIdentityFromJwt (hI : Provisions setup I) (env : Env) (rawToken : String) :
    Keeps I (resolveUiIdentityFromJwt setup env rawToken) := by
  simp only [resolveUiIdentityFromJwt]
  refine triple_ite (fun _ => triple_fail (fun _ h => h)) (fun _ => ?_)
  refine keeps_bind (hI.keeps (leaves_ofExcept _)) (fun claims => ?_)
  refine keeps_bind (hI.keeps (leaves_mapError (leaves_getOrCreateUserIdentity env _ _ _ _))) (fun u => ?_)
  refine keeps_bind (keeps_resolveMemberships hI env u _ _) (fun resolved => ?_)
  refine keeps_bind (hI.keeps (leaves_attempt (leaves_syncPlatformAdminFlag env _ _))) (fun _ => ?_)
  exact triple_pure (fun _ h => h)

theorem keeps_httpUiAuthLogin (hI : Provisions setup I) (env : Env) (jwt bearer : Option String) :
    Keeps I (httpUiAuthLogin setup env jwt bearer) := by
  simp only [httpUiAuthLogin]
  cases env.retryAfter with
  | some retryAfter => exact triple_fail (fun _ h => h)
  | none =>
      cases ((jwt.map trim).filter (fun v => !v.isEmpty)).orElse (fun _ => bearer) with
      | none => exact triple_fail (fun _ h => h)
      | some token =>
          refine triple_mapError ?_
          simp only [createUiSessionFromJwt]
          refine triple_ite (fun _ => triple_fail (fun _ h => h)) (fun _ => ?_)
          refine keeps_bind (keeps_resolveUiIdentityFromJwt hI env token) (fun identity => ?_)
          refine keeps_bind (hI.keeps (leaves_mapError (leaves_insertAuthSession env _ _ _ _))) (fun _ => ?_)
          exact triple_pure (fun _ h => h)

theorem keeps_authenticateUiSession (hI : Provisions setup I) (env : Env) (token : String)
    (csrfToken : Option String) (requireCsrf : Bool) :
    Keeps I (authenticateUiSession setup env token csrfToken requireCsrf) := by
  simp only [authenticateUiSession]
  refine triple_ite (fun _ => triple_fail (fun _ h => h)) (fun _ => ?_)
  refine keeps_bind (hI.keeps (leaves_findUiSession env token)) (fun found => ?_)
  cases found with
  | none => exact triple_fail (fun _ h => h)
  | some found =>
      refine keeps_bind (hI.keeps (leaves_ofExcept _)) (fun _ => ?_)
      refine keeps_bind (triple_mapError (keeps_resolveMemberships hI env _ _ _)) (fun resolved => ?_)
      refine keeps_bind (hI.keeps (leaves_attempt (leaves_touchAuthSession env _ _))) (fun _ => ?_)
      refine keeps_bind (hI.keeps (leaves_attempt (leaves_query _ _))) (fun isPlatformAdmin => ?_)
      exact triple_pure (fun _ h => h)

theorem keeps_authMiddleware (hI : Provisions setup I) (env : Env) (credential : RequestCredential) :
    Keeps I (authMiddleware setup env credential) := by
  simp only [authMiddleware]
  refine triple_ite (fun _ => triple_pure (fun _ h => h)) (fun _ => ?_)
  cases env.retryAfter with
  | some retryAfter => exact triple_fail (fun _ h => h)
  | none =>
      cases credential with
      | missing => exact triple_fail (fun _ h => h)
      | apiKey =>
          cases env.apiKey with
          | some key => exact triple_pure (fun _ h => h)
          | none => exact triple_fail (fun _ h => h)
      | bearer token =>
          cases env.apiKey with
          | some key => exact triple_pure (fun _ h => h)
          | none =>
              refine triple_ite (fun _ => ?_) (fun _ => triple_fail (fun _ h => h))
              refine keeps_bind (triple_mapError ?_) (fun r => triple_pure (fun _ h => h))
              exact keeps_bind (keeps_resolveUiIdentityFromJwt hI env token)
                (fun identity => triple_pure (fun _ h => h))
      | uiSession token csrfHeaderToken requireCsrf =>
          exact keeps_bind (triple_mapError (keeps_authenticateUiSession hI env token _ _))
            (fun r => triple_pure (fun _ h => h))

theorem triple_createNamedProject (env : Env) (n : String) (description : Option String) :
    Triple (Tracks H) (createNamedProject env n description) (fun row s => Tracks H s ∧ Named row.id n s)
      (Tracks H) := by
  refine triple_mapError (triple_bind (Q := fun _ s => Tracks H s ∧ Named env.projectId n s)
    (triple_execute ?_ (fun _ h => h)) (fun _ => ?_))
  · intro s a s' hs h
    split at h
    · rename_i projects hi
      cases h
      refine ⟨tracks_insertProject hs hi, ⟨env.projectId, n, description⟩, ?_, rfl, rfl⟩
      exact (insert_eq_some hi).1 ▸ List.mem_append_right _ (List.mem_singleton_self _)
    · split at h <;> cases h
  · refine triple_bind (Q := fun row s => (Tracks H s ∧ Named env.projectId n s) ∧
      ∀ r ∈ row, r.id = env.projectId)
      (triple_query ?_ (fun s hs => hs.1)) (fun row => ?_)
    · intro s hs
      exact ⟨hs, fun r hr => beq_iff_eq.mp (find_some hr).2⟩
    · cases row with
      | none => exact triple_fail (fun s hs => hs.1.1)
      | some row =>
          refine triple_pure (fun s hs => ⟨hs.1.1, ?_⟩)
          rw [hs.2 row rfl]
          exact hs.1.2

/-- What a creation of a project adds to the memberships held. -/
def created (e : Op × Reply) : Set (String × String) :=
  match e with
  | (.request _ (.createProject name _) _, .served auth (.ok _)) => {h | h.1 = trim name ∧ authUserId auth = some h.2}
  | _ => ∅

theorem authUserId_isSome {auth : AuthContext} {u : String} (h : authUserId auth = some u) :
    auth.isUiJwt = true := by
  by_contra hne
  simp [authUserId, hne] at h

theorem triple_httpCreateProject (setup : Setup) (env : Env) (auth : AuthContext) (name : String)
    (description : Option String) :
    Triple (Tracks H) (httpCreateProject setup env auth name description)
      (fun _ => Tracks ({h | h.1 = trim name ∧ authUserId auth = some h.2} ∪ H)) (Tracks H) := by
  simp only [httpCreateProject]
  refine triple_ite (fun _ => triple_fail (fun _ h => h)) (fun _ => ?_)
  refine triple_ite (fun _ => ?_) (fun hui => ?_)
  · refine triple_bind (keeps_tracks (leaves_ofExcept _)) (fun _ => ?_)
    cases hauth : authUserId auth with
    | none => exact triple_fail (fun _ h => h)
    | some u =>
        refine triple_bind (triple_createNamedProject env _ _) (fun row => ?_)
        refine triple_bind (triple_mapError (triple_grantProjectMembership env row.id (trim name) u _ _))
          (fun _ => ?_)
        refine triple_pure (fun s hs => ?_)
        have hset : ({h | h.1 = trim name ∧ some u = some h.2} : Set (String × String)) = {(trim name, u)} := by
          ext h
          constructor
          · rintro ⟨hname, hu⟩
            exact Prod.ext hname (Option.some.inj hu).symm
          · rintro rfl
            exact ⟨rfl, rfl⟩
        rw [hset, Set.singleton_union]
        exact hs.1
  · have hset : ({h | h.1 = trim name ∧ authUserId auth = some h.2} : Set (String × String)) = ∅ := by
      ext h
      exact ⟨fun hh => absurd (authUserId_isSome hh.2) hui, fun hh => hh.elim⟩
    rw [hset, Set.empty_union]
    refine keeps_bind (keeps_tracks (leaves_ofExcept _)) (fun _ => ?_)
    split
    · exact triple_fail (fun _ h => h)
    · refine triple_bind (triple_createNamedProject env _ _) (fun row => triple_pure (fun s hs => hs.1))

theorem leaves_revokeUiSession (env : Env) (token : String) (csrfToken : Option String) :
    Leaves UiStore.holdings (revokeUiSession setup env token csrfToken) := by
  have hrevoke : ∀ tokenHash, Leaves UiStore.holdings (failing "Failed to revoke UI session"
      (revokeAuthSessionByTokenHash env tokenHash)) := fun tokenHash =>
    leaves_mapError (leaves_bind (leaves_revokeAuthSessions env _) (fun _ => leaves_pure _))
  simp only [revokeUiSession]
  split
  · exact leaves_pure _
  · refine leaves_bind (leaves_findUiSession env token) (fun found => ?_)
    cases found with
    | none => exact leaves_bind (hrevoke _) (fun _ => leaves_pure _)
    | some found =>
        refine leaves_bind (leaves_ofExcept _) (fun _ => ?_)
        exact leaves_bind (hrevoke _) (fun _ => leaves_pure _)

theorem leaves_handle (env : Env) (auth : AuthContext) {action : Action}
    (hcreate : ∀ name description, action ≠ .createProject name description)
    (hdelete : ∀ projectId, action ≠ .deleteProject projectId) :
    Leaves UiStore.holdings (handle setup env auth action) := by
  have hrevoke : ∀ p, Leaves UiStore.holdings (internal (revokeAuthSessions env p)) := fun p =>
    leaves_mapError (leaves_revokeAuthSessions env p)
  cases action with
  | createProject name description => exact absurd rfl (hcreate name description)
  | deleteProject projectId => exact absurd rfl (hdelete projectId)
  | disableUser userId =>
      refine leaves_bind (leaves_requireAdminAndUser env auth userId) (fun _ => ?_)
      refine leaves_bind (leaves_mapError (leaves_setUserDisabled env userId true)) (fun _ => ?_)
      exact leaves_bind (hrevoke _) (fun _ => leaves_rereadUser env userId)
  | enableUser userId =>
      refine leaves_bind (leaves_requireAdminAndUser env auth userId) (fun _ => ?_)
      refine leaves_bind (leaves_mapError (leaves_setUserDisabled env userId false)) (fun _ => ?_)
      exact leaves_rereadUser env userId
  | revokeSession sessionId =>
      refine leaves_bind (leaves_ofExcept _) (fun _ => leaves_bind (leaves_ofExcept _) (fun _ => ?_))
      refine leaves_bind (leaves_mapError (leaves_bind (leaves_revokeAuthSessions env _)
        (fun _ => leaves_pure _))) (fun revoked => ?_)
      cases revoked with
      | true => exact leaves_pure _
      | false => exact leaves_fail _
  | logout sessionToken csrfToken =>
      cases sessionToken with
      | none => exact leaves_pure _
      | some token => exact leaves_bind (leaves_mapError (leaves_revokeUiSession env token _)) (fun _ => leaves_pure _)
  | other => exact leaves_pure _

def createdBy (past : List (Op × Reply)) : Set (String × String) := {h | ∃ e ∈ past, h ∈ created e}

theorem createdBy_concat (past : List (Op × Reply)) (e : Op × Reply) :
    createdBy (past ++ [e]) = created e ∪ createdBy past := by
  ext h
  constructor
  · rintro ⟨e', he, hh⟩
    rcases List.mem_append.mp he with he | he
    · exact .inr ⟨e', he, hh⟩
    · exact .inl (List.mem_singleton.mp he ▸ hh)
  · rintro (hh | ⟨e', he, hh⟩)
    · exact ⟨e, List.mem_append_right _ (List.mem_singleton_self e), hh⟩
    · exact ⟨e', List.mem_append_left _ he, hh⟩

/-- Runs are of logins, sessions and creations of projects: no project is deleted. -/
def KeepsProjects (_ : List (Op × Reply)) (_ : UiStore) : Op → Prop
  | .request _ (.deleteProject _) _ => False
  | _ => True

instance (past : List (Op × Reply)) (s : UiStore) (op : Op) : Decidable (KeepsProjects past s op) := by
  unfold KeepsProjects
  split <;> infer_instance

theorem created_refused (credential : RequestCredential) (action : Action) (env : Env) (e : HttpError) :
    created (.request credential action env, .refused e) = ∅ := by
  cases action <;> rfl

theorem created_of_ne {credential : RequestCredential} {action : Action} {env : Env} (reply : Reply)
    (h : ∀ name description, action ≠ .createProject name description) :
    created (.request credential action env, reply) = ∅ := by
  cases action with
  | createProject name description => exact absurd rfl (h name description)
  | deleteProject | disableUser | enableUser | revokeSession | logout | other => rfl

theorem tracks_handle (credential : RequestCredential) {action : Action} {env : Env} {auth : AuthContext}
    {s : UiStore} (hs : Tracks H s) (hdelete : ∀ projectId, action ≠ .deleteProject projectId) :
    Tracks (created (.request credential action env, .served auth (handle setup env auth action s).1) ∪ H)
      (handle setup env auth action s).2 := by
  by_cases hcreate : ∃ name description, action = .createProject name description
  · obtain ⟨name, description, rfl⟩ := hcreate
    have h := triple_httpCreateProject (H := H) setup env auth name description
    rcases hr : httpCreateProject setup env auth name description s with ⟨e | response, s'⟩
    · simp only [handle, hr, created, Set.empty_union]
      exact h.of_error hs hr
    · simp only [handle, hr, created]
      exact h.of_ok hs hr
  · have hne : ∀ name description, action ≠ .createProject name description :=
      fun name description h => hcreate ⟨name, description, h⟩
    rw [created_of_ne _ hne, Set.empty_union]
    exact (keeps_tracks (leaves_handle env auth hne hdelete)).after (fun _ _ h => h) (fun _ h => h) hs

theorem tracks_step {past : List (Op × Reply)} {s : UiStore} {op : Op} (hs : Tracks (createdBy past) s)
    (hg : KeepsProjects past s op) :
    Tracks (createdBy (past ++ [(op, (step setup s op).1)])) (step setup s op).2 := by
  rw [createdBy_concat]
  cases op with
  | login jwt bearer env =>
      have hnone : created (.login jwt bearer env, (step setup s (.login jwt bearer env)).1) = ∅ := rfl
      rw [hnone, Set.empty_union]
      exact (keeps_httpUiAuthLogin (provisions_tracks setup _) env jwt bearer).after (fun _ _ h => h)
        (fun _ h => h) hs
  | request credential action env =>
      have hdelete : ∀ projectId, action ≠ .deleteProject projectId := by
        rintro projectId rfl
        exact hg
      have hkeep := keeps_authMiddleware (provisions_tracks setup (createdBy past)) env credential
      rcases hmw : authMiddleware setup env credential s with ⟨e | auth, s'⟩
      · rw [step_refused hmw, created_refused, Set.empty_union]
        exact hkeep.of_error hs hmw
      · rw [step_served hmw]
        exact tracks_handle credential (hkeep.of_ok hs hmw) hdelete

theorem triple_httpCreateProject_fresh (setup : Setup) (env : Env) (auth : AuthContext) (name : String)
    (description : Option String) {p n : String} :
    Triple (Named p n) (httpCreateProject setup env auth name description) (fun _ _ => trim name ≠ n)
      (fun _ => True) := by
  have hfresh : Triple (Named p n) (createNamedProject env (trim name) description) (fun _ _ => trim name ≠ n)
      (fun _ => True) := by
    refine triple_mapError (triple_bind (Q := fun _ _ => trim name ≠ n) (triple_execute ?_ (fun _ _ => trivial))
      (fun _ => ?_))
    · rintro s a s' ⟨r, hr, -, rfl⟩ h
      split at h
      · rename_i projects hi
        exact fun he => (insert_eq_some hi).2 r hr (.inr he.symm)
      · split at h <;> cases h
    · refine triple_bind (triple_query (Q := fun _ _ => trim name ≠ n) (fun _ h => h) (fun _ _ => trivial))
        (fun row => ?_)
      cases row with
      | some row => exact triple_pure (fun _ h => h)
      | none => exact triple_fail (fun _ _ => trivial)
  have hok : ∀ r : Except HttpError Unit, Triple (Named p n) (ofExcept r) (fun _ => Named p n) (fun _ => True) :=
    fun r => triple_ofExcept (fun _ _ _ h => h) (fun _ _ => trivial)
  simp only [httpCreateProject]
  refine triple_ite (fun _ => triple_fail (fun _ _ => trivial)) (fun _ => ?_)
  refine triple_ite (fun _ => triple_bind (hok _) (fun _ => ?_)) (fun _ => triple_bind (hok _) (fun _ => ?_))
  · cases authUserId auth with
    | none => exact triple_fail (fun _ _ => trivial)
    | some u =>
        refine triple_bind hfresh (fun row => ?_)
        refine triple_bind (Q := fun _ _ => trim name ≠ n) ?_ (fun _ => triple_pure (fun _ h => h))
        refine triple_mapError (triple_bind (Q := fun _ _ => trim name ≠ n)
          (triple_execute (fun _ _ _ h _ => h) (fun _ _ => trivial)) (fun _ => ?_))
        exact triple_execute (fun _ _ _ h _ => h) (fun _ _ => trivial)
  · refine triple_ite (fun _ => triple_fail (fun _ _ => trivial)) (fun _ => ?_)
    exact triple_bind hfresh (fun row => triple_pure (fun _ h => h))

theorem not_created_of_logged {past : List (Op × Reply)} {s : UiStore} {op : Op} {v : Provision}
    (hs : Tracks (createdBy past) s) (hv : v ∈ (step setup s op).2.log) (w : String) :
    (v.projectName, w) ∉ created (op, (step setup s op).1) := by
  cases op with
  | login jwt bearer env => exact nofun
  | request credential action env =>
      rcases hmw : authMiddleware setup env credential s with ⟨e | auth, s'⟩
      · rw [step_refused hmw, created_refused]
        exact nofun
      · have hmid := (keeps_authMiddleware (provisions_tracks setup _) env credential).of_ok hs hmw
        rw [step_served hmw] at hv ⊢
        by_cases hcreate : ∃ name description, action = .createProject name description
        · obtain ⟨name, description, rfl⟩ := hcreate
          simp only [handle] at hv
          rw [log_eq (leaves_httpCreateProject env auth name description)] at hv
          obtain ⟨r, hr, hid, hname⟩ := hmid.named v hv
          rcases hc : httpCreateProject setup env auth name description s' with ⟨e | response, s''⟩
          · simp only [handle, hc, created]
            exact nofun
          · simp only [handle, hc, created]
            have hfresh := (triple_httpCreateProject_fresh setup env auth name description).of_ok
              ⟨r, hr, hid, hname⟩ hc
            exact fun h => hfresh h.1.symm
        · rw [created_of_ne _ (fun name description h => hcreate ⟨name, description, h⟩)]
          exact nofun

theorem private_iff {s : UiStore} {p n u : String} (hp : Named p n s) :
    (∀ m ∈ s.memberships.rows, m.projectId = p → m.userId = u) ↔ ∀ w, (n, w) ∈ holders s → w = u := by
  obtain ⟨r, hr, rfl, rfl⟩ := hp
  constructor
  · rintro h w ⟨m, hm, q, hq, hid, hname, rfl⟩
    have hqr : q = r := eq_of_mem (p := fun x => x.name == r.name)
      (fun a b ha hb => .inr ((beq_iff_eq.mp ha).trans (beq_iff_eq.mp hb).symm)) hq hr
      (beq_iff_eq.mpr hname) (beq_iff_eq.mpr rfl)
    exact h m hm (hqr ▸ hid.symm)
  · intro h m hm hid
    exact h m.userId ⟨m, hm, r, hr, hid.symm, rfl, rfl⟩

theorem tracks_empty : Tracks (createdBy []) UiStore.empty where
  owned := nofun
  named := nofun
  holders_eq := by
    ext h
    constructor
    · rintro ⟨m, hm, -⟩
      cases hm
    · rintro (⟨e, he, -⟩ | ⟨v, hv, -⟩)
      · cases he
      · cases hv

theorem tracks_run (setup : Setup) (ops : List Op) (hg : Guarded (step setup) KeepsProjects [] .empty ops) :
    Tracks (createdBy (history (step setup) .empty ops)) (after (step setup) .empty ops) :=
  invariant_history (fun past s => Tracks (createdBy past) s) (fun _ _ _ h hg => tracks_step h hg)
    [] .empty ops tracks_empty hg

/-- A project is provisioned for a user alone exactly when its name was not
provisioned for or created by somebody else before. -/
theorem provision_private_iff (setup : Setup) (ops : List Op) (op : Op) (v : Provision)
    (hg : Guarded (step setup) KeepsProjects [] .empty (ops ++ [op]))
    (hv : (step setup (after (step setup) .empty ops) op).2.log = (after (step setup) .empty ops).log ++ [v]) :
    (∀ m ∈ (step setup (after (step setup) .empty ops) op).2.memberships.rows,
        m.projectId = v.projectId → m.userId = v.userId) ↔
      (∀ v' ∈ (after (step setup) .empty ops).log, v'.projectName = v.projectName → v'.userId = v.userId) ∧
        ∀ e ∈ history (step setup) .empty ops, ∀ w, (v.projectName, w) ∈ created e → w = v.userId := by
  obtain ⟨hgs, hgop, -⟩ := (guarded_append _ _ _ _).mp hg
  have hs := tracks_run setup ops hgs
  have hs' : Tracks (createdBy (history (step setup) .empty ops ++
      [(op, (step setup (after (step setup) .empty ops) op).1)]))
      (step setup (after (step setup) .empty ops) op).2 := tracks_step hs hgop
  have hmem : v ∈ (step setup (after (step setup) .empty ops) op).2.log :=
    hv ▸ List.mem_append_right _ (List.mem_singleton_self v)
  rw [private_iff (hs'.named v hmem), hs'.holders_eq, createdBy_concat]
  constructor
  · intro h
    constructor
    · intro v' hv' hname
      exact h v'.userId (.inr ⟨v', hv ▸ List.mem_append_left _ hv', hname, rfl⟩)
    · intro e he w hw
      exact h w (.inl (.inr ⟨e, he, hw⟩))
  · rintro ⟨hlog, hcreated⟩ w ((hw | ⟨e, he, hw⟩) | ⟨v', hv', hname, rfl⟩)
    · exact absurd hw (not_created_of_logged hs hmem w)
    · exact hcreated e he w hw
    · rw [hv, List.mem_append, List.mem_singleton] at hv'
      rcases hv' with hv' | rfl
      · exact hlog v' hv' hname
      · rfl

theorem orDefault_noDash {value fallback : String} (h : '-' ∉ value.toList) (h' : '-' ∉ fallback.toList) :
    '-' ∉ (orDefault value fallback).toList := by
  simp only [orDefault]
  split
  · exact h'
  · exact h

theorem toLower_ne_dash {c : Char} (h : c.isAlphanum = true) : c.toLower ≠ '-' := by
  intro hdash
  delta Char.toLower at hdash
  split at hdash
  · rename_i hupper
    simp only [ge_iff_le, UInt32.le_iff_toNat_le] at hupper
    have hval : (c.val + ('a'.val - 'A'.val)).toNat = 45 := congrArg (fun c : Char => c.val.toNat) hdash
    have hshift : ('a'.val - 'A'.val).toNat = 32 := rfl
    have hA : 'A'.val.toNat = 65 := rfl
    have hZ : 'Z'.val.toNat = 90 := rfl
    rw [UInt32.toNat_add, hshift] at hval
    omega
  · rw [hdash] at h
    cases h

theorem personalProjectSuffix_noDash (userId : String) : '-' ∉ (personalProjectSuffix userId).toList := by
  refine orDefault_noDash ?_ (by decide)
  simp only [toAsciiLowercase, String.toList_ofList, List.mem_map, not_exists, not_and]
  intro c hc
  exact toLower_ne_dash (List.mem_filter.mp (List.mem_of_mem_take hc)).2

theorem eq_of_lastDash {h h' s s' : List Char} (hs : '-' ∉ s) (hs' : '-' ∉ s')
    (heq : h ++ '-' :: s = h' ++ '-' :: s') : h = h' ∧ s = s' := by
  rcases List.append_eq_append_iff.mp heq with ⟨a, rfl, ha⟩ | ⟨a, rfl, ha⟩
  · cases a with
    | nil => exact ⟨(List.append_nil h).symm, (List.cons.inj ha).2⟩
    | cons c cs =>
        obtain ⟨-, rfl⟩ := List.cons.inj ha
        exact absurd (List.mem_append_right cs List.mem_cons_self) hs
  · cases a with
    | nil => exact ⟨List.append_nil h', (List.cons.inj ha).2.symm⟩
    | cons c cs =>
        obtain ⟨-, rfl⟩ := List.cons.inj ha
        exact absurd (List.mem_append_right cs List.mem_cons_self) hs'

theorem personalProjectName_eq_iff (setup : Setup) (u u' : String)
    (email email' displayName displayName' : Option String) :
    personalProjectName setup u email displayName = personalProjectName setup u' email' displayName' ↔
      personalProjectHint email displayName = personalProjectHint email' displayName' ∧
        personalProjectSuffix u = personalProjectSuffix u' := by
  constructor
  · intro h
    have hlist := congrArg String.toList h
    simp only [personalProjectName, String.toList_append, List.append_assoc] at hlist
    have hrest := List.append_cancel_left (List.append_cancel_left hlist)
    obtain ⟨hhint, hsuffix⟩ := eq_of_lastDash (personalProjectSuffix_noDash u)
      (personalProjectSuffix_noDash u') hrest
    exact ⟨String.toList_injective hhint, String.toList_injective hsuffix⟩
  · rintro ⟨hhint, hsuffix⟩
    rw [personalProjectName, personalProjectName, hhint, hsuffix]

/-- Every logged name is a personal one of its user. -/
def LogsPersonal (setup : Setup) (s : UiStore) : Prop :=
  ∀ v ∈ s.log, ∃ email displayName, v.projectName = personalProjectName setup v.userId email displayName

theorem logsPersonal_congr {s s' : UiStore} (h : s.log = s'.log) (hs : LogsPersonal setup s) :
    LogsPersonal setup s' := by
  intro v hv
  exact hs v (h ▸ hv)

theorem provisions_logsPersonal (setup : Setup) : Provisions setup (LogsPersonal setup) where
  congr _ _ h := logsPersonal_congr (congrArg (fun v => v.2.2) h)
  provision env u email displayName := by
    have hbesides : ∀ {α : Type} {x : Statement α} (context : String), Leaves UiStore.besides x →
        Keeps (LogsPersonal setup) (failing context x) := fun context h =>
      triple_mapError (h.keeps (fun _ _ h => logsPersonal_congr (congrArg Prod.snd h)))
    refine keeps_bind (hbesides _ (leaves_getOrCreateProject env _)) (fun p => ?_)
    refine keeps_bind (hbesides _ (leaves_grantProjectMembership env _ _ _ _)) (fun _ => ⟨?_⟩)
    intro s hs v hv
    rcases List.mem_append.mp hv with hv | hv
    · exact hs v hv
    · obtain rfl := List.mem_singleton.mp hv
      exact ⟨email, displayName, rfl⟩

theorem logsPersonal_handle (env : Env) (auth : AuthContext) (action : Action) :
    Keeps (LogsPersonal setup) (handle setup env auth action) := by
  have hbesides : ∀ {x : Handler Response}, Leaves UiStore.besides x → Keeps (LogsPersonal setup) x := fun h =>
    h.keeps (fun _ _ h => logsPersonal_congr (congrArg Prod.snd h))
  by_cases hcreate : ∃ name description, action = .createProject name description
  · obtain ⟨name, description, rfl⟩ := hcreate
    rw [handle]
    exact hbesides (leaves_httpCreateProject env auth name description)
  by_cases hdelete : ∃ projectId, action = .deleteProject projectId
  · obtain ⟨projectId, rfl⟩ := hdelete
    exact hbesides (leaves_httpDeleteProject env auth projectId)
  · exact (provisions_logsPersonal setup).keeps (leaves_handle env auth
      (fun name description h => hcreate ⟨name, description, h⟩) (fun projectId h => hdelete ⟨projectId, h⟩))

theorem logsPersonal_step (s : UiStore) (op : Op) (hs : LogsPersonal setup s) :
    LogsPersonal setup (step setup s op).2 := by
  have hI := provisions_logsPersonal setup
  cases op with
  | login jwt bearer env =>
      exact (keeps_httpUiAuthLogin hI env jwt bearer).after (fun _ _ h => h) (fun _ h => h) hs
  | request credential action env =>
      have hkeep := keeps_authMiddleware hI env credential
      rcases hmw : authMiddleware setup env credential s with ⟨e | auth, s'⟩
      · rw [step_refused hmw]
        exact hkeep.of_error hs hmw
      · rw [step_served hmw]
        exact (logsPersonal_handle env auth action).after (fun _ _ h => h) (fun _ h => h) (hkeep.of_ok hs hmw)

theorem logsPersonal_run (setup : Setup) (ops : List Op) : LogsPersonal setup (after (step setup) .empty ops) :=
  invariant_history (fun _ s => LogsPersonal setup s) (fun _ s op h _ => logsPersonal_step s op h) []
    .empty ops nofun (guarded_true _ _ _ _)

theorem suffix_eq_of_collision (setup : Setup) (ops : List Op) {v v' : Provision}
    (hv : v ∈ (after (step setup) .empty ops).log) (hv' : v' ∈ (after (step setup) .empty ops).log)
    (h : v.projectName = v'.projectName) : personalProjectSuffix v.userId = personalProjectSuffix v'.userId := by
  obtain ⟨email, displayName, hname⟩ := logsPersonal_run setup ops v hv
  obtain ⟨email', displayName', hname'⟩ := logsPersonal_run setup ops v' hv'
  rw [hname, hname', personalProjectName_eq_iff] at h
  exact h.2

/-- An instance with UI login on, and two users of different subjects whose
e-mail addresses agree before the at sign. -/
def twoUsers : Setup where
  authDisabled := false
  uiJwt := ⟨true, some "secret", none, .hs256, true, "personal", some "issuer", some "audience", "oidc", 3600, none,
    fun _ => true⟩
  hashing := plainHashing
  jwt := ⟨fun _ => .ok (), fun _ => .ok (), fun _ _ _ _ _ token =>
    if token == "jwt-1" then .ok ⟨some "subject-1", none, some "dev@a.example", none⟩
    else if token == "jwt-2" then .ok ⟨some "subject-2", none, some "dev@b.example", none⟩
    else .error "InvalidToken"⟩

def firstUser : String := "0190a6f0-0001-7000-8000-000000000001"

def laterUser : String := "0190a6f1-0001-7000-8000-000000000002"

def sameMinuteUser : String := "0190a6f0-0002-7000-8000-000000000002"

def firstLogin : List Op :=
  [.login (some "jwt-1") none {
    now := 10, userId := firstUser, projectId := "p1", membershipId := "m1", sessionId := "x1", sessionToken := "s1" }]

def secondLogin (userId : String) : Op :=
  .login (some "jwt-2") none {
    now := 11, userId := userId, projectId := "p2", membershipId := "m2", sessionId := "x2", sessionToken := "s2" }

theorem later_user_private :
    ¬ ∃ m ∈ (step twoUsers (after (step twoUsers) .empty firstLogin) (secondLogin laterUser)).2.memberships.rows,
      m.projectId = "p2" ∧ m.userId ≠ laterUser := by
  have h := (provision_private_iff twoUsers firstLogin (secondLogin laterUser)
    ⟨laterUser, "p2", "personal-dev-0190a6f1"⟩ (by decide) (by decide)).mpr ⟨by decide, fun e he w hw => by
      obtain rfl := List.mem_singleton.mp he
      cases hw⟩
  rintro ⟨m, hm, hproject, huser⟩
  exact huser (h m hm hproject)

theorem same_minute_user_not_private :
    (step twoUsers (after (step twoUsers) .empty firstLogin) (secondLogin sameMinuteUser)).2.log =
        (after (step twoUsers) .empty firstLogin).log ++ [⟨sameMinuteUser, "p1", "personal-dev-0190a6f0"⟩] ∧
      ∃ m ∈ (step twoUsers (after (step twoUsers) .empty firstLogin)
        (secondLogin sameMinuteUser)).2.memberships.rows,
        m.projectId = "p1" ∧ m.userId ≠ sameMinuteUser := by
  decide +kernel

end MLRunX.PersonalProjects
