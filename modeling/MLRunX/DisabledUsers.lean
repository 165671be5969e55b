import MLRunX.UiRequests

namespace MLRunX.DisabledUsers

open Auth Commands Http Memberships Runs Sqlite Statements Tables Text UiAuth UiRequests UiTables
open KeyStore (plainHashing)

variable {setup : Setup} {u : String}

/-- The state of an account that disabling it leaves. -/
structure Locked (u : String) (s : UiStore) : Prop where
  disabled : ∃ r ∈ s.users.rows, r.id = u ∧ r.disabledAt ≠ none
  revoked : ∀ x ∈ s.sessions.rows, x.userId = u → x.revokedAt ≠ none

/-- The user of an external subject, if there is one, is not the disabled `u`. -/
def NotDisabled (u provider subject : String) (s : UiStore) : Prop :=
  ∀ r ∈ s.users.rows, r.id = u → r.authProvider = provider → r.externalSubject = subject → r.disabledAt = none

instance (u provider subject : String) (s : UiStore) : Decidable (NotDisabled u provider subject s) := by
  unfold NotDisabled
  infer_instance

theorem locked_congr {s s' : UiStore} (h : s.identities = s'.identities) (hs : Locked u s) : Locked u s' := by
  have husers : s.users = s'.users := congrArg Prod.fst h
  have hsessions : s.sessions = s'.sessions := congrArg Prod.snd h
  exact ⟨husers ▸ hs.disabled, hsessions ▸ hs.revoked⟩

theorem keeps_locked {ε α : Type} {x : Command UiStore ε α} (h : Leaves UiStore.identities x) :
    Keeps (Locked u) x := h.keeps (fun _ _ => locked_congr)

theorem locked_setUsers {s : UiStore} {users : Table UserRow UserRow.clash} (hs : Locked u s)
    {p : UserRow → Bool} {g : UserRow → UserRow} (h : users.rows = s.users.rows.map (setWhere p g))
    (hid : ∀ r, (g r).id = r.id) (hd : ∀ r, p r = true → r.id = u → r.disabledAt ≠ none →
      (g r).disabledAt ≠ none) :
    Locked u { s with users := users } where
  disabled := by
    obtain ⟨r, hr, hru, hrd⟩ := hs.disabled
    refine ⟨setWhere p g r, h ▸ List.mem_map_of_mem hr, ?_, ?_⟩
    · rw [setWhere_keeps UserRow.id hid, hru]
    · simp only [setWhere]
      split
      · exact hd r ‹_› hru hrd
      · exact hrd
  revoked := hs.revoked

theorem locked_setSessions {s : UiStore} {sessions : Table AuthSessionRow AuthSessionRow.clash} (hs : Locked u s)
    {p : AuthSessionRow → Bool} {g : AuthSessionRow → AuthSessionRow}
    (h : sessions.rows = s.sessions.rows.map (setWhere p g)) (huser : ∀ r, (g r).userId = r.userId)
    (hr : ∀ r, r.revokedAt ≠ none → (g r).revokedAt ≠ none) : Locked u { s with sessions := sessions } where
  disabled := hs.disabled
  revoked := by
    intro x hx hxu
    obtain ⟨y, hy, rfl⟩ := List.mem_map.mp (h ▸ hx)
    rw [setWhere_keeps AuthSessionRow.userId huser] at hxu
    simp only [setWhere]
    split
    · exact hr y (hs.revoked y hy hxu)
    · exact hs.revoked y hy hxu

theorem clash_id (v : String) (a b : UserRow) (ha : (a.id == v) = true) (hb : (b.id == v) = true) :
    UserRow.clash a b := .inl ((beq_iff_eq.mp ha).trans (beq_iff_eq.mp hb).symm)

theorem triple_getOrCreateUserIdentity (env : Env) (provider subject : String)
    (email displayName : Option String) :
    Triple (fun s => Locked u s ∧ NotDisabled u provider subject s)
      (getOrCreateUserIdentity env provider subject email displayName)
      (fun userId s => Locked u s ∧ userId ≠ u) (Locked u) := by
  refine triple_bind (Q := fun existing s => Locked u s ∧ ∀ userId ∈ existing, userId ≠ u)
    (triple_query ?_ (fun s hs => hs.1)) (fun existing => ?_)
  · rintro s ⟨hs, hsub⟩
    refine ⟨hs, ?_⟩
    rintro userId hfound rfl
    obtain ⟨r, hr, hru⟩ := Option.map_eq_some_iff.mp hfound
    obtain ⟨hmem, hp⟩ := find_some hr
    rw [Bool.and_eq_true, beq_iff_eq, beq_iff_eq] at hp
    obtain ⟨r', hr', hru', hd⟩ := hs.disabled
    have heq : r' = r := eq_of_mem (clash_id userId) hr' hmem (beq_iff_eq.mpr hru') (beq_iff_eq.mpr hru)
    exact hd (heq ▸ hsub r hmem hru hp.1 hp.2)
  · cases existing with
    | some userId =>
        apply triple_execute
        · rintro s a s' ⟨hs, hne⟩ h
          cases h
          exact ⟨locked_setUsers hs rfl (fun _ => rfl) (fun _ _ _ hd => hd), hne userId rfl⟩
        · exact fun s hs => hs.1
    | none =>
        apply triple_execute
        · rintro s a s' ⟨hs, -⟩ h
          split at h
          · rename_i users hi
            cases h
            obtain ⟨hrows, hfresh⟩ := insert_eq_some hi
            obtain ⟨r, hr, hru, hd⟩ := hs.disabled
            refine ⟨⟨⟨r, ?_, hru, hd⟩, hs.revoked⟩, ?_⟩
            · exact hrows ▸ List.mem_append_left _ hr
            · rintro rfl
              exact hfresh r hr (.inl hru)
          · cases h
        · exact fun s hs => hs.1

theorem keeps_syncPlatformAdminFlag (env : Env) (userId : String) (adminEmail : Option String) :
    Keeps (Locked u) (syncPlatformAdminFlag env userId adminEmail) := by
  refine keeps_bind (triple_query (fun _ h => h) (fun _ h => h)) (fun email => triple_execute ?_ (fun _ h => h))
  intro s a s' hs h
  cases h
  exact locked_setUsers hs rfl (fun _ => rfl) (fun _ _ _ hd => hd)

theorem keeps_setUserDisabled (env : Env) {userId : String} {disabled : Bool} (h : disabled = true ∨ userId ≠ u) :
    Keeps (Locked u) (setUserDisabled env userId disabled) := by
  refine triple_execute ?_ (fun _ h => h)
  intro s a s' hs hw
  cases hw
  refine locked_setUsers hs rfl (fun _ => rfl) (fun r hp hru _ => ?_)
  rw [Bool.and_eq_true, beq_iff_eq] at hp
  rcases h with rfl | h
  · simp
  · exact absurd (hp.1.symm.trans hru) h

theorem triple_insertAuthSession (env : Env) {userId : String} (hne : userId ≠ u) (tokenHash csrfHash : String)
    (expiresAt : Nat) : Keeps (Locked u) (insertAuthSession env userId tokenHash csrfHash expiresAt) := by
  refine triple_execute ?_ (fun _ h => h)
  intro s a s' hs h
  split at h
  · rename_i sessions hi
    cases h
    refine ⟨hs.disabled, ?_⟩
    intro x hx hxu
    rw [(insert_eq_some hi).1, List.mem_append, List.mem_singleton] at hx
    rcases hx with hx | rfl
    · exact hs.revoked x hx hxu
    · exact absurd hxu hne
  · cases h

theorem keeps_touchAuthSession (env : Env) (sessionId : String) (ttl : Nat) :
    Keeps (Locked u) (touchAuthSession env sessionId ttl) := by
  refine triple_execute ?_ (fun _ h => h)
  intro s a s' hs h
  cases h
  exact locked_setSessions hs rfl (fun _ => rfl) (fun _ hr => hr)

theorem keeps_revokeAuthSessions (env : Env) (p : AuthSessionRow → Bool) :
    Keeps (Locked u) (revokeAuthSessions env p) := by
  refine triple_execute ?_ (fun _ h => h)
  intro s a s' hs h
  cases h
  exact locked_setSessions hs rfl (fun _ => rfl) (fun _ _ => nofun)

theorem triple_getActiveAuthSession (env : Env) (fault : Option String) (tokenHash : String) :
    Triple (Locked u) (getActiveAuthSessionByTokenHash env fault tokenHash)
      (fun session s => Locked u s ∧ ∀ x ∈ session, x.userId ≠ u) (Locked u) := by
  refine triple_query ?_ (fun _ h => h)
  intro s hs
  refine ⟨hs, ?_⟩
  intro x hx hxu
  obtain ⟨hmem, hp⟩ := find_some hx
  simp only [Bool.and_eq_true, Option.isNone_iff_eq_none] at hp
  exact hs.revoked x hmem hxu hp.1.2

theorem keeps_failing {α : Type} {I : UiStore → Prop} {x : Statement α} (h : Keeps I x) (context : String) :
    Keeps I (failing context x) := triple_mapError h

theorem leaves_autoProvision (env : Env) (userId : String) (email displayName : Option String) :
    Leaves UiStore.identities (autoProvisionPersonalProject setup env userId email displayName) := by
  refine leaves_bind (leaves_mapError ((leaves_getOrCreateProject env _).map Prod.fst)) (fun projectId => ?_)
  refine leaves_bind (leaves_mapError ((leaves_grantProjectMembership env _ _ _ _).map Prod.fst)) (fun _ => ?_)
  exact ⟨fun _ => rfl⟩

theorem leaves_resolveMemberships (env : Env) (userId : String) (email displayName : Option String) :
    Leaves UiStore.identities (resolveMembershipsForUser setup env userId email displayName) := by
  have hload : Leaves UiStore.identities (loadMemberships setup env userId email displayName) := by
    refine leaves_bind (leaves_mapError (leaves_query _ _)) (fun memberships => ?_)
    split
    · exact leaves_bind (leaves_autoProvision env _ _ _) (fun _ => leaves_mapError (leaves_query _ _))
    · exact leaves_pure _
  refine leaves_bind hload (fun memberships => ?_)
  split
  · exact leaves_fail _
  · exact leaves_pure _

/-- The token, if it is valid, is not one of the disabled `u`. -/
def TokenNotDisabled (setup : Setup) (u : String) (now : Nat) (rawToken : String) (s : UiStore) : Prop :=
  ∀ claims, decodeUiJwtClaims setup now rawToken = .ok claims →
    NotDisabled u setup.uiJwt.provider claims.subject s

instance (setup : Setup) (u : String) (now : Nat) (rawToken : String) (s : UiStore) :
    Decidable (TokenNotDisabled setup u now rawToken s) :=
  match h : decodeUiJwtClaims setup now rawToken with
  | .ok claims => decidable_of_iff (NotDisabled u setup.uiJwt.provider claims.subject s)
      ⟨fun hn _ hc => Except.ok.inj (h.symm.trans hc) ▸ hn, fun ht => ht claims h⟩
  | .error _ => .isTrue (fun _ hc => nomatch h.symm.trans hc)

theorem triple_resolveUiIdentityFromJwt (env : Env) (rawToken : String) :
    Triple (fun s => Locked u s ∧ TokenNotDisabled setup u env.now rawToken s)
      (resolveUiIdentityFromJwt setup env rawToken) (fun identity s => Locked u s ∧ identity.userId ≠ u)
      (Locked u) := by
  simp only [resolveUiIdentityFromJwt]
  refine triple_ite (fun _ => triple_fail (fun s hs => hs.1)) (fun _ => ?_)
  refine triple_bind (Q := fun claims s => Locked u s ∧ NotDisabled u setup.uiJwt.provider claims.subject s)
    (triple_ofExcept (fun claims s hc hs => ⟨hs.1, hs.2 claims hc⟩) (fun s hs => hs.1)) (fun claims => ?_)
  refine triple_bind (triple_mapError (triple_getOrCreateUserIdentity env _ _ _ _)) (fun userId => ?_)
  refine triple_assume (fun hne => ?_)
  refine triple_bind (keeps_locked (leaves_resolveMemberships env _ _ _)) (fun resolved => ?_)
  refine triple_bind (keeps_attempt (keeps_syncPlatformAdminFlag env _ _)) (fun isPlatformAdmin => ?_)
  exact triple_pure (fun s hs => ⟨hs, hne⟩)

theorem keeps_createUiSessionFromJwt (env : Env) (rawJwt : String) :
    Triple (fun s => Locked u s ∧ TokenNotDisabled setup u env.now rawJwt s)
      (createUiSessionFromJwt setup env rawJwt) (fun _ => Locked u) (Locked u) := by
  simp only [createUiSessionFromJwt]
  refine triple_ite (fun _ => triple_fail (fun s hs => hs.1)) (fun _ => ?_)
  refine triple_bind (triple_resolveUiIdentityFromJwt env rawJwt) (fun identity => triple_assume (fun hne => ?_))
  exact triple_bind (keeps_failing (triple_insertAuthSession env hne _ _ _) _)
    (fun _ => triple_pure (fun s hs => hs))

theorem authUserId_ui {identity : ResolvedUiIdentity} {modePrefix : String}
    (hleading : ∀ c ∈ modePrefix.toList, c ≠ ':') (now : Nat) (projects : Finset String) (admin : Bool) :
    authUserId (.ofUi (buildUiAuthApiKey identity modePrefix now) projects admin) = some identity.userId := by
  have hdrop : (modePrefix.toList ++ ':' :: identity.userId.toList).dropWhile (· ≠ ':') =
      ':' :: identity.userId.toList := by
    rw [List.dropWhile_append_of_pos (by simpa using hleading)]
    simp
  have hid : (modePrefix ++ ":" ++ identity.userId).toList =
      modePrefix.toList ++ ':' :: identity.userId.toList := by simp
  simp only [authUserId, AuthContext.ofUi, AuthContext.isUiJwt, buildUiAuthApiKey, hid, hdrop]
  simp

/-- The context made of a key and its rights is not the one of `u`. -/
def NotUser (u : String) (r : ApiKey × Finset String × Bool) : Prop :=
  authUserId (.ofUi r.1 r.2.1 r.2.2) ≠ some u

theorem triple_authenticateUiJwt (env : Env) (rawToken : String) :
    Triple (fun s => Locked u s ∧ TokenNotDisabled setup u env.now rawToken s)
      (authenticateUiJwt setup env rawToken) (fun r s => Locked u s ∧ NotUser u r) (Locked u) := by
  refine triple_bind (triple_resolveUiIdentityFromJwt env rawToken) (fun identity => triple_assume (fun hne => ?_))
  refine triple_pure (fun s hs => ⟨hs, ?_⟩)
  rw [NotUser, authUserId_ui (by simp)]
  exact fun h => hne (Option.some.inj h)

theorem triple_findUiSession (env : Env) (token : String) :
    Triple (Locked u) (findUiSession setup env token)
      (fun found s => Locked u s ∧ ∀ x ∈ found, x.1.userId ≠ u) (Locked u) := by
  refine triple_bind (triple_mapError (triple_getActiveAuthSession env _ _)) (fun session => ?_)
  cases session with
  | some session => exact triple_pure (fun s hs => ⟨hs.1, by rintro _ ⟨⟩; exact hs.2 session rfl⟩)
  | none =>
      refine triple_assume (fun _ => ?_)
      refine triple_bind (triple_mapError (triple_getActiveAuthSession env _ _)) (fun session => ?_)
      refine triple_pure (fun s hs => ⟨hs.1, ?_⟩)
      intro x hx
      obtain ⟨y, hy, rfl⟩ := Option.map_eq_some_iff.mp hx
      exact hs.2 y hy

theorem triple_authenticateUiSession (env : Env) (token : String) (csrfToken : Option String)
    (requireCsrf : Bool) :
    Triple (Locked u) (authenticateUiSession setup env token csrfToken requireCsrf)
      (fun r s => Locked u s ∧ NotUser u r) (Locked u) := by
  simp only [authenticateUiSession]
  refine triple_ite (fun _ => triple_fail (fun s hs => hs)) (fun _ => ?_)
  refine triple_bind (triple_findUiSession env token) (fun found => triple_assume (fun hne => ?_))
  cases found with
  | none => exact triple_fail (fun s hs => hs)
  | some found =>
      refine triple_bind (keeps_locked (leaves_ofExcept _)) (fun _ => ?_)
      refine triple_bind (triple_mapError (keeps_locked (leaves_resolveMemberships env _ _ _)))
        (fun resolved => ?_)
      refine triple_bind (keeps_attempt (keeps_touchAuthSession env _ _)) (fun _ => ?_)
      refine triple_bind (keeps_attempt (keeps_locked (leaves_query _ _))) (fun isPlatformAdmin => ?_)
      refine triple_pure (fun s hs => ⟨hs, ?_⟩)
      rw [NotUser, authUserId_ui (by simp)]
      exact fun h => hne found rfl (Option.some.inj h)

theorem keeps_revokeUiSession (env : Env) (token : String) (csrfToken : Option String) :
    Keeps (Locked u) (revokeUiSession setup env token csrfToken) := by
  have hrevoke : ∀ tokenHash, Keeps (Locked u) (failing "Failed to revoke UI session"
      (revokeAuthSessionByTokenHash env tokenHash)) := fun tokenHash =>
    keeps_failing (keeps_bind (keeps_revokeAuthSessions env _) (fun _ => triple_pure (fun _ h => h))) _
  simp only [revokeUiSession]
  refine triple_ite (fun _ => triple_pure (fun s hs => hs)) (fun _ => ?_)
  refine triple_bind (triple_findUiSession env token) (fun found => triple_assume (fun _ => ?_))
  cases found with
  | none => exact keeps_bind (hrevoke _) (fun _ => triple_pure (fun s hs => hs))
  | some found =>
      refine keeps_bind (keeps_locked (leaves_ofExcept _)) (fun _ => ?_)
      exact keeps_bind (hrevoke _) (fun _ => triple_pure (fun s hs => hs))

theorem triple_authMiddleware (setup : Setup) (env : Env) (credential : RequestCredential) (action : Action) :
    Triple (fun s => Locked u s ∧ ∀ token ∈ presentedJwt (.request credential action env),
        TokenNotDisabled setup u env.now token s)
      (authMiddleware setup env credential) (fun auth s => Locked u s ∧ authUserId auth ≠ some u)
      (Locked u) := by
  have hkey : ∀ key : ApiKey, Triple (fun s => Locked u s ∧
    ∀ token ∈ presentedJwt (.request credential action env),
        TokenNotDisabled setup u env.now token s) (pure (.ofApiKey key) : Handler AuthContext)
      (fun auth s => Locked u s ∧ authUserId auth ≠ some u) (Locked u) :=
    fun key => triple_pure (fun s hs => ⟨hs.1, by rw [authUserId_ofApiKey]; nofun⟩)
  simp only [authMiddleware]
  refine triple_ite (fun _ => triple_pure (fun s hs => ⟨hs.1, nofun⟩)) (fun _ => ?_)
  cases env.retryAfter with
  | some retryAfter => exact triple_fail (fun s hs => hs.1)
  | none =>
      cases credential with
      | missing => exact triple_fail (fun s hs => hs.1)
      | apiKey =>
          cases env.apiKey with
          | some key => exact hkey key
          | none => exact triple_fail (fun s hs => hs.1)
      | bearer token =>
          cases env.apiKey with
          | some key => exact hkey key
          | none =>
              refine triple_ite (fun _ => ?_) (fun _ => triple_fail (fun s hs => hs.1))
              refine triple_bind (triple_mapError (triple_weaken (triple_authenticateUiJwt env token)
                (fun s hs => ⟨hs.1, hs.2 token rfl⟩) (fun _ _ h => h) (fun _ h => h))) (fun r => ?_)
              exact triple_pure (fun s hs => hs)
      | uiSession token csrfHeaderToken requireCsrf =>
          refine triple_bind (triple_mapError (triple_weaken (triple_authenticateUiSession env token _ _)
            (fun s hs => hs.1) (fun _ _ h => h) (fun _ h => h))) (fun r => ?_)
          exact triple_pure (fun s hs => hs)

theorem keeps_internal {α : Type} {x : Statement α} (h : Keeps (Locked u) x) : Keeps (Locked u) (internal x) :=
  triple_mapError h

theorem keeps_httpAdminDisableUser (env : Env) (auth : AuthContext) (userId : String) :
    Keeps (Locked u) (httpAdminDisableUser setup env auth userId) := by
  refine keeps_bind (keeps_locked (leaves_requireAdminAndUser env auth _)) (fun _ => ?_)
  refine keeps_bind (keeps_internal (keeps_setUserDisabled env (.inl rfl))) (fun _ => ?_)
  refine keeps_bind (keeps_internal (keeps_revokeAuthSessions env _)) (fun _ => ?_)
  exact keeps_locked (leaves_rereadUser env _)

theorem keeps_httpAdminEnableUser (env : Env) (auth : AuthContext) {userId : String} (hne : userId ≠ u) :
    Keeps (Locked u) (httpAdminEnableUser setup env auth userId) := by
  refine keeps_bind (keeps_locked (leaves_requireAdminAndUser env auth _)) (fun _ => ?_)
  refine keeps_bind (keeps_internal (keeps_setUserDisabled env (.inr hne))) (fun _ => ?_)
  exact keeps_locked (leaves_rereadUser env _)

theorem keeps_httpAdminRevokeSession (env : Env) (auth : AuthContext) (sessionId : String) :
    Keeps (Locked u) (httpAdminRevokeSession setup env auth sessionId) := by
  have hrevoke : Keeps (Locked u) (revokeAuthSessionById env sessionId) :=
    keeps_bind (keeps_revokeAuthSessions env _) (fun _ => triple_pure (fun _ h => h))
  refine keeps_bind (keeps_locked (leaves_ofExcept _)) (fun _ => ?_)
  refine keeps_bind (keeps_locked (leaves_ofExcept _)) (fun _ => ?_)
  refine keeps_bind (keeps_internal hrevoke) (fun revoked => ?_)
  cases revoked with
  | true => exact triple_pure (fun _ h => h)
  | false => exact triple_fail (fun _ h => h)

theorem keeps_httpUiAuthLogout (env : Env) (sessionToken csrfToken : Option String) :
    Keeps (Locked u) (httpUiAuthLogout setup env sessionToken csrfToken) := by
  cases sessionToken with
  | none => exact triple_pure (fun _ h => h)
  | some token =>
      exact keeps_bind (triple_mapError (keeps_revokeUiSession env token csrfToken))
        (fun _ => triple_pure (fun _ h => h))

theorem keeps_handle (env : Env) (auth : AuthContext) {action : Action} (h : action ≠ .enableUser u) :
    Keeps (Locked u) (handle setup env auth action) := by
  cases action with
  | createProject name description =>
      exact keeps_locked ((leaves_httpCreateProject env auth name description).map Prod.fst)
  | deleteProject projectId => exact keeps_locked ((leaves_httpDeleteProject env auth projectId).map Prod.fst)
  | disableUser userId => exact keeps_httpAdminDisableUser env auth userId
  | enableUser userId => exact keeps_httpAdminEnableUser env auth (fun he => h (congrArg _ he))
  | revokeSession sessionId => exact keeps_httpAdminRevokeSession env auth sessionId
  | logout sessionToken csrfToken => exact keeps_httpUiAuthLogout env sessionToken csrfToken
  | other => exact triple_pure (fun _ h => h)

theorem triple_httpAdminDisableUser (env : Env) (auth : AuthContext) :
    Triple (fun _ => True) (httpAdminDisableUser setup env auth u) (fun _ => Locked u) (fun _ => True) := by
  refine triple_bind (Q := fun _ s => ∃ r ∈ s.users.rows, r.id = u) ?_ (fun _ => ?_)
  · refine triple_bind (triple_ofExcept (Q := fun _ _ => True) (fun _ _ _ h => h) (fun _ h => h)) (fun _ => ?_)
    refine triple_bind (triple_ofExcept (Q := fun _ _ => True) (fun _ _ _ h => h) (fun _ h => h)) (fun _ => ?_)
    refine triple_bind (triple_mapError (triple_query
      (Q := fun user s => ∀ r ∈ user, ∃ r ∈ s.users.rows, r.id = u) ?_ (fun _ h => h))) (fun user => ?_)
    · intro s _ r hr
      obtain ⟨hmem, hid⟩ := find_some hr
      exact ⟨r, hmem, beq_iff_eq.mp hid⟩
    · cases user with
      | some user => exact triple_pure (fun s hs => hs user rfl)
      | none => exact triple_fail (fun _ _ => trivial)
  · refine triple_bind (triple_mapError (triple_execute
      (Q := fun _ s => ∃ r ∈ s.users.rows, r.id = u ∧ r.disabledAt ≠ none) ?_ (fun _ _ => trivial)))
        (fun _ => ?_)
    · rintro s a s' ⟨r, hr, hru⟩ h
      cases h
      refine ⟨_, List.mem_map_of_mem hr, ?_, ?_⟩
      · exact (setWhere_keeps UserRow.id (by intro _; rfl) r).trans hru
      · cases hd : r.disabledAt with
        | none => simp [setWhere, hru, hd]
        | some at_ => simp [setWhere, hd]
    · refine triple_bind (triple_mapError (triple_execute (Q := fun _ => Locked u) ?_ (fun _ _ => trivial)))
        (fun _ => ?_)
      · rintro s a s' hs h
        cases h
        refine ⟨hs, ?_⟩
        intro x hx hxu
        obtain ⟨y, hy, rfl⟩ := List.mem_map.mp hx
        have hyu : y.userId = u := (setWhere_keeps AuthSessionRow.userId (by intro _; rfl) y).symm.trans hxu
        cases hd : y.revokedAt with
        | none => simp [setWhere, hyu, hd]
        | some at_ => simp [setWhere, hd]
      · exact triple_weaken (keeps_locked (leaves_rereadUser env u)) (fun _ h => h) (fun _ _ h => h)
          (fun _ _ => trivial)

theorem keeps_httpUiAuthLogin (env : Env) (jwt bearer : Option String) :
    Triple (fun s => Locked u s ∧ ∀ token ∈ presentedJwt (.login jwt bearer env),
        TokenNotDisabled setup u env.now token s)
      (httpUiAuthLogin setup env jwt bearer) (fun _ => Locked u) (Locked u) := by
  simp only [httpUiAuthLogin, presentedJwt]
  cases env.retryAfter with
  | some retryAfter => exact triple_fail (fun s hs => hs.1)
  | none =>
      cases ((jwt.map trim).filter (fun v => !v.isEmpty)).orElse (fun _ => bearer) with
      | none => exact triple_fail (fun s hs => hs.1)
      | some token =>
          exact triple_mapError (triple_weaken (keeps_createUiSessionFromJwt env token)
            (fun s hs => ⟨hs.1, hs.2 token rfl⟩) (fun _ _ h => h) (fun _ h => h))

/-- Whether the last call to disable or enable the user was one that disabled
it, with success. -/
def disabledSince (u : String) (past : List (Op × Reply)) : Bool :=
  past.foldl (fun disabled e => match e with
    | (.request _ (.disableUser v) _, .served _ (.ok _)) => v == u || disabled
    | (.request _ (.enableUser v) _, .served _ _) => v != u && disabled
    | _ => disabled) false

/-- No valid token of the user is presented while the account is disabled. -/
def NoJwtWhileDisabled (setup : Setup) (u : String) (_ : List (Op × Reply)) (s : UiStore) (op : Op) : Prop :=
  ∀ token ∈ presentedJwt op, TokenNotDisabled setup u op.env.now token s

instance (setup : Setup) (u : String) (past : List (Op × Reply)) (s : UiStore) (op : Op) :
    Decidable (NoJwtWhileDisabled setup u past s op) := by
  unfold NoJwtWhileDisabled
  infer_instance

def LockedWhenDisabled (u : String) (past : List (Op × Reply)) (s : UiStore) : Prop :=
  disabledSince u past = true → Locked u s

theorem disabledSince_concat (u : String) (past : List (Op × Reply)) (e : Op × Reply) :
    disabledSince u (past ++ [e]) = (match e with
      | (.request _ (.disableUser v) _, .served _ (.ok _)) => v == u || disabledSince u past
      | (.request _ (.enableUser v) _, .served _ _) => v != u && disabledSince u past
      | _ => disabledSince u past) := by
  rw [disabledSince, List.foldl_append]
  rfl

theorem disabledSince_served {past : List (Op × Reply)} {credential : RequestCredential} {action : Action}
    {env : Env} {auth : AuthContext} {answer : Answer Response}
    (h : disabledSince u (past ++ [(.request credential action env, .served auth answer)]) = true) :
    action ≠ .enableUser u ∧
      (disabledSince u past = true ∨ action = .disableUser u ∧ ∃ response, answer = .ok response) := by
  rw [disabledSince_concat] at h
  cases action with
  | disableUser v =>
      refine ⟨nofun, ?_⟩
      cases answer with
      | error e => exact .inl h
      | ok response =>
          rcases Bool.or_eq_true_iff.mp h with h | h
          · exact .inr ⟨congrArg _ (beq_iff_eq.mp h), response, rfl⟩
          · exact .inl h
  | enableUser v =>
      rw [Bool.and_eq_true, bne_iff_ne] at h
      exact ⟨fun he => h.1 (Action.enableUser.inj he), .inl h.2⟩
  | createProject | deleteProject | revokeSession | logout | other => exact ⟨nofun, .inl h⟩

theorem locked_step {past : List (Op × Reply)} {s : UiStore} {op : Op} (hs : LockedWhenDisabled u past s)
    (hg : NoJwtWhileDisabled setup u past s op) :
    LockedWhenDisabled u (past ++ [(op, (step setup s op).1)]) (step setup s op).2 := by
  intro hd
  cases op with
  | login jwt bearer env =>
      rw [disabledSince_concat] at hd
      have hpast : disabledSince u past = true := hd
      exact (keeps_httpUiAuthLogin env jwt bearer).after (fun _ _ h => h) (fun _ h => h) ⟨hs hpast, hg⟩
  | request credential action env =>
      have hauth := triple_authMiddleware (u := u) setup env credential action
      rcases hmw : authMiddleware setup env credential s with ⟨e | auth, s'⟩
      · rw [step_refused hmw, disabledSince_concat] at hd
        rw [step_refused hmw]
        have hpast : disabledSince u past = true := by
          cases action <;> exact hd
        exact hauth.of_error ⟨hs hpast, hg⟩ hmw
      · rw [step_served hmw] at hd ⊢
        obtain ⟨hne, hpast | ⟨rfl, response, hok⟩⟩ := disabledSince_served hd
        · have hlocked := (hauth.of_ok ⟨hs hpast, hg⟩ hmw).1
          exact (keeps_handle env auth hne).after (fun _ _ h => h) (fun _ h => h) hlocked
        · exact (triple_httpAdminDisableUser env auth).of_ok trivial (Prod.ext hok rfl)

/-- While a user is disabled and none of the user's tokens are presented, no
request is served for the user, whatever else happens. -/
theorem disabled_user_cannot_act (setup : Setup) (u : String) (ops : List Op) (op : Op)
    (hg : Guarded (step setup) (NoJwtWhileDisabled setup u) [] .empty (ops ++ [op]))
    (hd : disabledSince u (history (step setup) .empty ops) = true) :
    (step setup (after (step setup) .empty ops) op).1.actor ≠ some u := by
  obtain ⟨hgs, hgop, -⟩ := (guarded_append _ _ _ _).mp hg
  have hinv := invariant_history (LockedWhenDisabled u) (fun _ _ _ h hg => locked_step h hg) [] .empty ops
    nofun hgs
  have hlocked := hinv hd
  cases op with
  | login jwt bearer env => exact nofun
  | request credential action env =>
      rcases hmw : authMiddleware setup env credential (after (step setup) .empty ops) with ⟨e | auth, s'⟩
      · rw [step_refused hmw]
        exact nofun
      · rw [step_served hmw]
        exact ((triple_authMiddleware setup env credential action).of_ok ⟨hlocked, hgop⟩ hmw).2

theorem bearer_serves_disabled {setup : Setup} {s : UiStore} {r : UserRow} {env : Env} {token : String}
    {claims : UiJwtClaims} (hauth : setup.authDisabled = false) (henabled : setup.uiJwt.enabled = true)
    (hretry : env.retryAfter = none) (hkey : env.apiKey = none) (hfaults : env.faults = {})
    (hclaims : decodeUiJwtClaims setup env.now token = .ok claims) (hr : r ∈ s.users.rows)
    (hprovider : r.authProvider = setup.uiJwt.provider) (hsubject : r.externalSubject = claims.subject)
    (hmember : activeMemberships s r.id ≠ []) (action : Action) :
    (step setup s (.request (.bearer token) action env)).1.actor = some r.id := by
  have hfind : s.users.find (fun r => r.authProvider == setup.uiJwt.provider && r.externalSubject == claims.subject) =
      some r := by
    refine (find_eq_some_iff s.users ?_).mpr ⟨hr, by simp [hprovider, hsubject]⟩
    intro a b ha hb
    simp only [Bool.and_eq_true, beq_iff_eq] at ha hb
    exact .inr ⟨ha.1.trans hb.1.symm, ha.2.trans hb.2.symm⟩
  have hempty : (activeMemberships s r.id).isEmpty = false := by simpa using hmember
  have huser : ∃ s', getOrCreateUserIdentity env setup.uiJwt.provider claims.subject claims.email claims.name s =
      (.ok r.id, s') ∧ s'.memberships = s.memberships := by
    simp only [getOrCreateUserIdentity, hfaults]
    exact ⟨_, bind_ok (query_ok (a := some r.id) (by rw [hfind]; rfl)), rfl⟩
  obtain ⟨s', huser, hmemberships⟩ := huser
  have hresolve : ∃ resolved, resolveMembershipsForUser setup env r.id claims.email claims.name s' =
      (.ok resolved, s') := by
    have hempty' : (activeMemberships s' r.id).isEmpty = false := by
      rwa [activeMemberships, hmemberships]
    have hload : loadMemberships setup env r.id claims.email claims.name s' =
        (.ok (activeMemberships s' r.id), s') := by
      simp only [loadMemberships, hfaults]
      have hlist : failing "Failed to load project memberships" (listActiveProjectMemberships none r.id) s' =
          (.ok (activeMemberships s' r.id), s') := rfl
      rw [bind_ok hlist]
      simp only [hempty', Bool.false_and, Bool.false_eq_true, if_false]
      rfl
    simp only [resolveMembershipsForUser]
    rw [bind_ok hload]
    simp only [hempty', Bool.false_eq_true, if_false]
    exact ⟨_, rfl⟩
  obtain ⟨resolved, hresolve⟩ := hresolve
  have hidentity : ∃ identity s'', resolveUiIdentityFromJwt setup env token s = (.ok identity, s'') ∧
      identity.userId = r.id := by
    simp only [resolveUiIdentityFromJwt, henabled, Bool.not_true, Bool.false_eq_true, if_false]
    rw [bind_ok (ofExcept_ok hclaims s)]
    rw [bind_ok (x := failing _ _) (by simp only [failing, mapError, huser]; rfl), bind_ok hresolve]
    exact ⟨_, _, rfl, rfl⟩
  obtain ⟨identity, s'', hidentity, hid⟩ := hidentity
  have hmw : ∃ key projects admin, authMiddleware setup env (.bearer token) s =
    (.ok (.ofUi key projects admin), s'') ∧
      authUserId (.ofUi key projects admin) = some r.id := by
    simp only [authMiddleware, hauth, hretry, hkey, henabled, if_true, Bool.false_eq_true, if_false]
    have hjwt : ∃ r', mapError (fun _ => invalidKey) (authenticateUiJwt setup env token) s = (.ok r', s'') ∧
        authUserId (.ofUi r'.1 r'.2.1 r'.2.2) = some identity.userId := by
      simp only [mapError, authenticateUiJwt]
      rw [bind_ok hidentity]
      exact ⟨_, rfl, authUserId_ui (by simp) _ _ _⟩
    obtain ⟨r', hjwt, hactor⟩ := hjwt
    rw [bind_ok hjwt]
    exact ⟨_, _, _, rfl, hactor.trans (congrArg _ hid)⟩
  obtain ⟨key, projects, admin, hmw, hactor⟩ := hmw
  rw [step_served hmw]
  exact hactor

/-- An instance with UI login on, whose identity provider has issued one token. -/
def oneUser : Setup where
  authDisabled := false
  uiJwt := ⟨true, some "secret", none, .hs256, true, "personal", some "issuer", some "audience", "oidc", 3600, none,
    fun _ => true⟩
  hashing := plainHashing
  jwt := ⟨fun _ => .ok (), fun _ => .ok (), fun _ _ _ _ _ token =>
    if token == "jwt" then .ok ⟨some "subject", none, some "user@example.org", none⟩
    else .error "InvalidToken"⟩

def globalAdmin : ApiKey := ⟨"k", "h", "mlrx", none, none, none, ["admin"], 0, none, none, none⟩

def loginThenDisable : List Op :=
  [.login (some "jwt") none { now := 10, userId := "u1", sessionToken := "s1" },
    .request .apiKey (.disableUser "u1") { now := 20, apiKey := some globalAdmin }]

theorem old_session_refused :
    disabledSince "u1" (history (step oneUser) .empty loginThenDisable) = true ∧
      (step oneUser (after (step oneUser) .empty loginThenDisable)
        (.request (.uiSession "s1" none false) .other { now := 30 })).1.actor ≠ some "u1" :=
  ⟨by decide, disabled_user_cannot_act oneUser "u1" loginThenDisable _ (by decide) (by decide)⟩

theorem disabled_user_acts :
    disabledSince "u1" (history (step oneUser) .empty loginThenDisable) = true ∧
      (step oneUser (after (step oneUser) .empty loginThenDisable)
        (.request (.bearer "jwt") .other { now := 30 })).1.actor = some "u1" := by
  decide

end MLRunX.DisabledUsers
