import MLRunX.DisabledUsers
import MLRunX.Interleaving

namespace MLRunX.UiSessions

open Auth Commands Interleaving KeyStore Memberships Runs Sqlite Statements Tables Text UiAuth UiTables
open DisabledUsers (leaves_resolveMemberships)

inductive Call
  | createSession (rawJwt : String)
  | authenticate (token : String) (csrfToken : Option String) (requireCsrf : Bool)
  | logout (token : String) (csrfToken : Option String)
  | revokeSession (sessionId : String)
  | revokeAllSessions (userId : String)
  deriving DecidableEq, Repr

inductive Reply
  | issued (issue : UiSessionIssue)
  | authenticated (identity : ApiKey × Finset String × Bool)
  | loggedOut
  | revoked (changed : Bool)
  | allRevoked (changed : Nat)
  deriving DecidableEq

abbrev SessionThread (α : Type) := Thread Env UiStore String α

variable (setup : Setup)

def lookUp (context : String) (fault : Faults → Option String) (tokenHash : String) :
    SessionThread (Option AuthSessionRow) :=
  atomic (fun env => failing context (getActiveAuthSessionByTokenHash env (fault env.faults) tokenHash))

def findSession (token : String) : SessionThread (Option (AuthSessionRow × String)) := do
  let session ← lookUp "Failed to resolve UI session" Faults.findSession (hashWithHmac setup.hashing token)
  match session with
  | some session => pure (some (session, hashWithHmac setup.hashing token))
  | none => do
      let session ← lookUp "Failed to resolve legacy UI session" Faults.findLegacySession (setup.hashing.sha256 token)
      pure (session.map (·, setup.hashing.sha256 token))

/-- `create_ui_session_from_jwt`. Who the user is, is resolved before. -/
def createSession (rawJwt : String) : SessionThread UiSessionIssue :=
  if !setup.uiJwt.enabled then
    .done (.error "UI JWT auth is disabled.")
  else do
    let identity ← atomic (fun env => resolveUiIdentityFromJwt setup env rawJwt)
    atomic (fun env => do
      let expiresAt := env.now + setup.uiJwt.sessionTtlSeconds
      failing "Failed to persist UI session"
        (insertAuthSession env identity.userId (hashWithHmac setup.hashing env.sessionToken)
          (hashWithHmac setup.hashing env.csrfToken) expiresAt)
      pure ⟨env.sessionToken, env.csrfToken, expiresAt, identity.userId, sorted identity.allowedProjectIds⟩)

def authenticate (token : String) (csrfToken : Option String) (requireCsrf : Bool) :
    SessionThread (ApiKey × Finset String × Bool) :=
  if !setup.uiJwt.enabled then
    .done (.error "UI JWT auth is disabled.")
  else do
    let found ← findSession setup token
    match found with
    | none => .done (.error "Invalid or expired UI session.")
    | some (session, _) => do
        .done (if requireCsrf then
          checkCsrf setup "Missing CSRF token for mutating request." csrfToken session else .ok ())
        let (scopes, allowedProjectIds) ← atomic (fun env =>
          mapError ("Failed to resolve UI session memberships: " ++ ·)
            (resolveMembershipsForUser setup env session.userId none none))
        let _ ← atomic (fun env => attempt (touchAuthSession env session.id setup.uiJwt.sessionTtlSeconds))
        atomic (fun env => do
          let isPlatformAdmin ← attempt (isUserPlatformAdmin env session.userId)
          let identity : ResolvedUiIdentity :=
            ⟨session.userId, none, allowedProjectIds, scopes, isPlatformAdmin.getD false⟩
          pure (buildUiAuthApiKey identity "session" env.now, allowedProjectIds, isPlatformAdmin.getD false))

def revokeByTokenHash (tokenHash : String) : SessionThread Unit :=
  atomic (fun env => do
    let _ ← failing "Failed to revoke UI session" (revokeAuthSessionByTokenHash env tokenHash))

def logout (token : String) (csrfToken : Option String) : SessionThread Unit :=
  if !setup.uiJwt.enabled then
    pure ()
  else do
    let found ← findSession setup token
    match found with
    | some (session, resolvedHash) => do
        .done (checkCsrf setup "Missing CSRF token." csrfToken session)
        revokeByTokenHash resolvedHash
    | none => revokeByTokenHash (hashWithHmac setup.hashing token)

def revokeSession (sessionId : String) : SessionThread Bool :=
  atomic (fun env => mapError SqliteError.message (revokeAuthSessionById env sessionId))

def revokeAllSessions (userId : String) : SessionThread Nat :=
  atomic (fun env => mapError SqliteError.message (revokeAllSessionsForUser env userId))

def body : Call → SessionThread Reply
  | .createSession rawJwt => do pure (.issued (← createSession setup rawJwt))
  | .authenticate token csrfToken requireCsrf => do
      pure (.authenticated (← authenticate setup token csrfToken requireCsrf))
  | .logout token csrfToken => do
      logout setup token csrfToken
      pure .loggedOut
  | .revokeSession sessionId => do pure (.revoked (← revokeSession sessionId))
  | .revokeAllSessions userId => do pure (.allRevoked (← revokeAllSessions userId))

theorem findSession_alone (env : Env) (token : String) :
    (findSession setup token).alone env = findUiSession setup env token := by
  simp only [findSession, findUiSession, alone_bind]
  apply congrArg (bind _)
  funext session
  cases session with
  | some session => rfl
  | none => exact alone_bind env _ _

theorem authenticate_alone (env : Env) (token : String) (csrfToken : Option String) (requireCsrf : Bool) :
    (authenticate setup token csrfToken requireCsrf).alone env =
      authenticateUiSession setup env token csrfToken requireCsrf := by
  simp only [authenticate, authenticateUiSession]
  split
  · rfl
  · rw [alone_bind, findSession_alone]
    apply congrArg (bind _)
    funext found
    rcases found with _ | ⟨session, hash⟩
    · rfl
    · simp only [alone_bind, alone_atomic]
      rfl

theorem logout_alone (env : Env) (token : String) (csrfToken : Option String) :
    (logout setup token csrfToken).alone env = revokeUiSession setup env token csrfToken := by
  simp only [logout, revokeUiSession]
  split
  · rfl
  · rw [alone_bind, findSession_alone]
    apply congrArg (bind _)
    funext found
    rcases found with _ | ⟨session, hash⟩
    · rfl
    · simp only [alone_bind]
      rfl

theorem createSession_alone (env : Env) (rawJwt : String) :
    (createSession setup rawJwt).alone env = createUiSessionFromJwt setup env rawJwt := by
  simp only [createSession, createUiSessionFromJwt]
  split
  · rfl
  · simp only [alone_bind, alone_atomic]

def Opens (H : Hashing) (token : String) (r : AuthSessionRow) : Prop :=
  r.tokenHash = H.hmac token ∨ r.tokenHash = H.sha256 token

instance (H : Hashing) (token : String) (r : AuthSessionRow) : Decidable (Opens H token r) := by
  unfold Opens
  infer_instance

/-- Distinct sessions have distinct tokens. -/
def Apart (H : Hashing) (s : UiStore) : Prop :=
  ∀ a ∈ s.sessions.rows, ∀ b ∈ s.sessions.rows, ∀ token, Opens H token a → Opens H token b → a = b

structure Ages (r r' : AuthSessionRow) : Prop where
  id : r'.id = r.id
  userId : r'.userId = r.userId
  tokenHash : r'.tokenHash = r.tokenHash
  csrfHash : r'.csrfHash = r.csrfHash
  revoked : r.revokedAt ≠ none → r'.revokedAt ≠ none

theorem ages_refl (r : AuthSessionRow) : Ages r r := ⟨rfl, rfl, rfl, rfl, fun h => h⟩

theorem ages_trans {a b c : AuthSessionRow} (hab : Ages a b) (hbc : Ages b c) : Ages a c where
  id := hbc.id.trans hab.id
  userId := hbc.userId.trans hab.userId
  tokenHash := hbc.tokenHash.trans hab.tokenHash
  csrfHash := hbc.csrfHash.trans hab.csrfHash
  revoked h := hbc.revoked (hab.revoked h)

theorem ages_setWhere {p : AuthSessionRow → Bool} {g : AuthSessionRow → AuthSessionRow} (hg : ∀ r, Ages r (g r))
    (r : AuthSessionRow) : Ages r (setWhere p g r) := by
  simp only [setWhere]
  split
  · exact hg r
  · exact ages_refl r

variable {H : Hashing} {r r' : AuthSessionRow} {s s' : UiStore} {token : String}

theorem Ages.opens_iff (h : Ages r r') : Opens H token r' ↔ Opens H token r := by
  simp only [Opens, h.tokenHash]

/-- What no call undoes: rows stay, revoked ones stay revoked, and a new row is
not opened by a token of an old one. -/
structure Evolves (H : Hashing) (s s' : UiStore) : Prop where
  keeps : ∀ r ∈ s.sessions.rows, ∃ r' ∈ s'.sessions.rows, Ages r r'
  grows : ∀ r' ∈ s'.sessions.rows, (∃ r ∈ s.sessions.rows, Ages r r') ∨
    ∀ r ∈ s.sessions.rows, ∀ token, Opens H token r → ¬ Opens H token r'
  apart : Apart H s → Apart H s'

theorem evolves_of_eq (h : s'.sessions = s.sessions) : Evolves H s s' where
  keeps r hr := ⟨r, h ▸ hr, ages_refl r⟩
  grows r hr := .inl ⟨r, h ▸ hr, ages_refl r⟩
  apart hs := by rwa [Apart, h]

theorem evolves_refl (s : UiStore) : Evolves H s s := evolves_of_eq rfl

theorem evolves_trans (s t u : UiStore) (h : Evolves H s t) (h' : Evolves H t u) : Evolves H s u where
  keeps r hr := by
    obtain ⟨r', hr', hages⟩ := h.keeps r hr
    obtain ⟨r'', hr'', hages'⟩ := h'.keeps r' hr'
    exact ⟨r'', hr'', ages_trans hages hages'⟩
  grows r hr := by
    rcases h'.grows r hr with ⟨r', hr', hages'⟩ | hnew
    · rcases h.grows r' hr' with ⟨r'', hr'', hages⟩ | hnew
      · exact .inl ⟨r'', hr'', ages_trans hages hages'⟩
      · exact .inr (fun x hx token hopens hopens' => hnew x hx token hopens (hages'.opens_iff.mp hopens'))
    · refine .inr (fun x hx token hopens => ?_)
      obtain ⟨y, hy, hages⟩ := h.keeps x hx
      exact hnew y hy token (hages.opens_iff.mpr hopens)
  apart hs := h'.apart (h.apart hs)

theorem evolves_update {f : AuthSessionRow → AuthSessionRow} (hf : ∀ r, Ages r (f r))
    (h : s'.sessions.rows = s.sessions.rows.map f) : Evolves H s s' where
  keeps r hr := ⟨f r, h ▸ List.mem_map_of_mem hr, hf r⟩
  grows r' hr' := by
    obtain ⟨r, hr, rfl⟩ := List.mem_map.mp (h ▸ hr')
    exact .inl ⟨r, hr, hf r⟩
  apart hs := by
    intro a' ha' b' hb' token hopena hopenb
    obtain ⟨a, ha, rfl⟩ := List.mem_map.mp (h ▸ ha')
    obtain ⟨b, hb, rfl⟩ := List.mem_map.mp (h ▸ hb')
    rw [hs a ha b hb token ((hf a).opens_iff.mp hopena) ((hf b).opens_iff.mp hopenb)]

theorem evolves_insert {row : AuthSessionRow} (h : s'.sessions.rows = s.sessions.rows ++ [row])
    (hnew : ∀ r ∈ s.sessions.rows, ∀ token, Opens H token r → ¬ Opens H token row) : Evolves H s s' where
  keeps r hr := ⟨r, h ▸ List.mem_append_left _ hr, ages_refl r⟩
  grows r' hr' := by
    rcases List.mem_append.mp (h ▸ hr') with hr' | hr'
    · exact .inl ⟨r', hr', ages_refl r'⟩
    · rw [List.mem_singleton.mp hr']
      exact .inr hnew
  apart hs := by
    intro a ha b hb token hopena hopenb
    rcases List.mem_append.mp (h ▸ ha) with ha | ha <;> rcases List.mem_append.mp (h ▸ hb) with hb | hb
    · exact hs a ha b hb token hopena hopenb
    · rw [List.mem_singleton.mp hb] at hopenb
      exact absurd hopenb (hnew a ha token hopena)
    · rw [List.mem_singleton.mp ha] at hopena
      exact absurd hopena (hnew b hb token hopenb)
    · rw [List.mem_singleton.mp ha, List.mem_singleton.mp hb]

theorem Evolves.opened (h : Evolves H s s') (hs : Apart H s) (hr : r ∈ s.sessions.rows) (hopens : Opens H token r)
    (hr' : r' ∈ s'.sessions.rows) (hopens' : Opens H token r') : Ages r r' := by
  rcases h.grows r' hr' with ⟨x, hx, hages⟩ | hnew
  · rwa [hs r hr x hx token hopens (hages.opens_iff.mp hopens')]
  · exact absurd hopens' (hnew r hr token hopens)

def Concerns (H : Hashing) : Call → AuthSessionRow → Prop
  | .createSession _, _ => False
  | .authenticate token _ _, r => Opens H token r
  | .logout token _, r => Opens H token r
  | .revokeSession sessionId, r => r.id = sessionId
  | .revokeAllSessions userId, r => r.userId = userId

def Fresh (H : Hashing) : Call → Env → UiStore → Prop
  | .createSession _, env, s => ∀ r ∈ s.sessions.rows, ¬ Opens H env.sessionToken r
  | _, _, _ => True

instance (H : Hashing) (call : Call) (env : Env) (s : UiStore) : Decidable (Fresh H call env s) := by
  unfold Fresh
  split <;> infer_instance

/-- A write that makes no other rows older than those with `P`. -/
def Updates (P : AuthSessionRow → Prop) (s s' : UiStore) : Prop :=
  ∃ f : AuthSessionRow → AuthSessionRow, (∀ r, Ages r (f r)) ∧ (∀ r, ¬ P r → f r = r) ∧
    s'.sessions.rows = s.sessions.rows.map f

theorem updates_refl (P : AuthSessionRow → Prop) (s : UiStore) : Updates P s s :=
  ⟨id, ages_refl, fun _ _ => rfl, (List.map_id _).symm⟩

theorem updates_setWhere {P : AuthSessionRow → Prop} {p : AuthSessionRow → Bool}
    {g : AuthSessionRow → AuthSessionRow}
    (hg : ∀ r, Ages r (g r)) (hp : ∀ r, p r = true → P r)
    (h : s'.sessions.rows = s.sessions.rows.map (setWhere p g)) :
    Updates P s s' := by
  refine ⟨setWhere p g, ages_setWhere hg, ?_, h⟩
  intro r hr
  simp only [setWhere]
  exact if_neg (fun hpr => hr (hp r hpr))

theorem moves_touchAuthSession (env : Env) (sessionId : String) (ttl : Nat) :
    Moves (Updates (fun r => r.id = sessionId)) (touchAuthSession env sessionId ttl) := by
  apply moves_execute (updates_refl _)
  intro s a s' h
  cases h
  refine updates_setWhere ?_ ?_ rfl
  · intro r
    exact ⟨rfl, rfl, rfl, rfl, fun h => h⟩
  · intro r hr
    exact beq_iff_eq.mp hr

theorem moves_revokeAuthSessions (env : Env) (p : AuthSessionRow → Bool) :
    Moves (Updates (fun r => p r = true)) (revokeAuthSessions env p) := by
  apply moves_execute (updates_refl _)
  intro s a s' h
  cases h
  refine updates_setWhere ?_ ?_ rfl
  · intro r
    exact ⟨rfl, rfl, rfl, rfl, fun _ => Option.some_ne_none _⟩
  · intro r hr
    exact (Bool.and_eq_true_iff.mp hr).1

structure Affects (H : Hashing) (call : Call) (s s' : UiStore) : Prop where
  evolves : Evolves H s s'
  others : ∀ r ∈ s.sessions.rows, ¬ Concerns H call r → r ∈ s'.sessions.rows

variable {call : Call}

theorem affects_of_eq (h : s'.sessions = s.sessions) : Affects H call s s' :=
  ⟨evolves_of_eq h, fun _ hr _ => h ▸ hr⟩

theorem Updates.affects {P : AuthSessionRow → Prop} (h : Updates P s s')
    (hP : ∀ r ∈ s.sessions.rows, P r → Concerns H call r) : Affects H call s s' := by
  obtain ⟨f, hages, hsame, hrows⟩ := h
  refine ⟨evolves_update hages hrows, ?_⟩
  intro r hr hconcerns
  have hf := hsame r (fun hp => hconcerns (hP r hr hp))
  rw [hrows, ← hf]
  exact List.mem_map_of_mem hr

theorem leaves_getOrCreateUserIdentity_sessions (env : Env) (provider subject : String)
    (email displayName : Option String) :
    Leaves UiStore.sessions (getOrCreateUserIdentity env provider subject email displayName) := by
  refine leaves_bind (leaves_query _ _) (fun existing => ?_)
  cases existing with
  | some userId =>
      apply leaves_execute
      intro s a s' h
      cases h
      rfl
  | none =>
      apply leaves_execute
      intro s a s' h
      split at h <;> cases h
      rfl

theorem leaves_syncPlatformAdminFlag_sessions (env : Env) (userId : String) (adminEmail : Option String) :
    Leaves UiStore.sessions (syncPlatformAdminFlag env userId adminEmail) := by
  refine leaves_bind (leaves_query _ _) (fun email => leaves_execute ?_)
  intro s a s' h
  cases h
  rfl

theorem leaves_resolveUiIdentityFromJwt (env : Env) (rawToken : String) :
    Leaves UiStore.sessions (resolveUiIdentityFromJwt setup env rawToken) := by
  simp only [resolveUiIdentityFromJwt]
  split
  · exact leaves_fail _
  · refine leaves_bind (leaves_ofExcept _) (fun claims => ?_)
    refine leaves_bind (leaves_mapError (leaves_getOrCreateUserIdentity_sessions env _ _ _ _)) (fun userId => ?_)
    refine leaves_bind ((leaves_resolveMemberships env _ _ _).map Prod.snd) (fun memberships => ?_)
    refine leaves_bind (leaves_attempt (leaves_syncPlatformAdminFlag_sessions env _ _)) (fun admin => ?_)
    exact leaves_pure _

theorem moves_insertAuthSession (hH : H.Lawful) (hapart : ∀ raw raw', H.hmac raw ≠ H.sha256 raw') (env : Env)
    (userId csrfHash : String) (expiresAt : Nat) :
    Moves (fun s s' => (∀ r ∈ s.sessions.rows, ¬ Opens H env.sessionToken r) → Affects H call s s')
      (insertAuthSession env userId (hashWithHmac H env.sessionToken) csrfHash expiresAt) := by
  apply moves_execute (fun s _ => affects_of_eq rfl)
  intro s a s' h hfresh
  split at h
  · rename_i sessions hinsert
    cases h
    have hrows := (insert_eq_some hinsert).1
    refine ⟨evolves_insert hrows ?_, ?_⟩
    · rintro r hr token hopens (hnew | hnew)
      · rw [← hH.hmac_inj hnew] at hopens
        exact hfresh r hr hopens
      · exact hapart _ _ hnew
    · intro r hr _
      exact hrows ▸ List.mem_append_left _ hr
  · cases h

section Contracts

theorem meets_lookUp {c : Contract Env UiStore String (Option AuthSessionRow)} {begun : UiStore} {context : String}
    {fault : Faults → Option String} {tokenHash : String} (heffect : ∀ s, c.effect s s)
    (hok : ∀ env s s', c.rely begun s → c.assume env s → c.rely s s' →
        ∀ found, found = s.sessions.find (fun r =>
      r.tokenHash == tokenHash && r.revokedAt.isNone && decide (env.now < r.expiresAt)) → c.answer s' (.ok found))
    (herror : ∀ env s s' e, c.rely begun s → c.assume env s → c.rely s s' → fault env.faults ≠ none →
      c.answer s' (.error e)) :
    Meets c (lookUp context fault tokenHash) begun := by
  apply meets_atomic
  intro env s hs hassume
  refine ⟨heffect s, ?_⟩
  intro s' hs'
  cases hfault : fault env.faults with
  | none =>
      have h := hok env s s' hs hassume hs' _ rfl
      simpa only [failing, mapError, getActiveAuthSessionByTokenHash, query, hfault, statement_none,
        Except.mapError] using h
  | some text =>
      have h := fun e => herror env s s' e hs hassume hs' (hfault ▸ Option.some_ne_none text)
      simpa only [failing, mapError, getActiveAuthSessionByTokenHash, query, hfault, statement_some,
        Except.mapError] using h _

/-- A session that is found was there, active, and is opened by the token. When
none is found, none was active under either hash when it was looked for. -/
theorem meets_findSession {c : Contract Env UiStore String (Option (AuthSessionRow × String))} {begun : UiStore}
    (hrefl : ∀ s, c.rely s s) (htrans : ∀ s t u, c.rely s t → c.rely t u → c.rely s u)
    (heffect : ∀ s, c.effect s s)
    (hsome : ∀ env s s', c.rely begun s → c.assume env s → c.rely s s' → ∀ session ∈ s.sessions.rows,
      session.revokedAt = none → Opens setup.hashing token session →
        c.answer s' (.ok (some (session, session.tokenHash))))
    (hnone : ∀ env₁ s₁ env₂ s₂ s', c.rely begun s₁ → c.assume env₁ s₁ → c.rely s₁ s₂ →
      c.assume env₂ s₂ →
      c.rely s₂ s' →
      (∀ r ∈ s₁.sessions.rows, r.tokenHash = setup.hashing.hmac token →
        r.revokedAt ≠ none ∨ r.expiresAt ≤ env₁.now) →
      (∀ r ∈ s₂.sessions.rows, r.tokenHash = setup.hashing.sha256 token →
        r.revokedAt ≠ none ∨ r.expiresAt ≤ env₂.now) →
      c.answer s' (.ok none))
    (herror : ∀ env s s' e, c.rely begun s → c.assume env s → c.rely s s' → env.faults ≠ {} →
      c.answer s' (.error e)) :
    Meets c (findSession setup token) begun := by
  have hfault : ∀ {fault : Faults → Option String} {faults : Faults}, fault {} = none → fault faults ≠ none →
      faults ≠ {} := by
    rintro fault faults hempty hne rfl
    exact hne hempty
  have hfound : ∀ {env : Env} {s : UiStore} {hash : String} {session : AuthSessionRow}, some session =
      s.sessions.find (fun r => r.tokenHash == hash && r.revokedAt.isNone && decide (env.now < r.expiresAt)) →
      session ∈ s.sessions.rows ∧ session.revokedAt = none ∧ session.tokenHash = hash := by
    intro env s hash session h
    obtain ⟨hmem, hp⟩ := find_some h.symm
    simp only [Bool.and_eq_true, beq_iff_eq, Option.isNone_iff_eq_none] at hp
    exact ⟨hmem, hp.1.2, hp.1.1⟩
  have hmissing : ∀ {env : Env} {s : UiStore} {hash : String}, none =
      s.sessions.find (fun r => r.tokenHash == hash && r.revokedAt.isNone && decide (env.now < r.expiresAt)) →
      ∀ r ∈ s.sessions.rows, r.tokenHash = hash → r.revokedAt ≠ none ∨ r.expiresAt ≤ env.now := by
    intro env s hash h r hr htoken
    have hp := find_none_iff.mp h.symm r hr
    simp only [htoken, beq_self_eq_true, Bool.true_and, Bool.and_eq_false_iff, decide_eq_false_iff_not,
      not_lt] at hp
    exact hp.imp_left (fun h hnone => by simp [hnone] at h)
  refine meets_bind (Q := fun s' r => (∃ env s, c.rely begun s ∧ c.assume env s ∧ c.rely s s' ∧
    (∀ e, r = .error e → env.faults ≠ {}) ∧ ∀ found, r = .ok found → found = s.sessions.find (fun r =>
      r.tokenHash == setup.hashing.hmac token && r.revokedAt.isNone && decide (env.now < r.expiresAt))))
    hrefl ?_ ?_ ?_
  · apply meets_lookUp heffect
    · intro env s s' hs hassume hs' found hfind
      refine ⟨env, s, hs, hassume, hs', nofun, ?_⟩
      rintro _ ⟨⟩
      exact hfind
    · intro env s s' e hs hassume hs' hne
      exact ⟨env, s, hs, hassume, hs', fun _ _ => hfault rfl hne, nofun⟩
  · rintro s₁' found ⟨env₁, s₁, hs₁, hassume₁, hs₁', -, hfind⟩
    have hfind := hfind found rfl
    cases found with
    | some session =>
        obtain ⟨hmem, hactive, htoken⟩ := hfound hfind
        intro s' hs'
        have h := hsome env₁ s₁ s' hs₁ hassume₁ (htrans _ _ _ hs₁' hs') session hmem hactive (.inl htoken)
        rwa [htoken] at h
    | none =>
        refine meets_bind (Q := fun s' (r : Except String (Option AuthSessionRow)) => ∀ s'', c.rely s' s'' →
            c.answer s'' (r.map (fun found : Option AuthSessionRow =>
              found.map (fun session => (session, setup.hashing.sha256 token))))) hrefl
          (meets_lookUp heffect ?_ ?_) (fun s' found h => h) (fun s' e h => h s' (hrefl s'))
        · intro env₂ s₂ s' hs₂ hassume₂ hs' found hfind₂ s'' hs''
          cases found with
          | some session =>
              obtain ⟨hmem, hactive, htoken⟩ := hfound hfind₂
              have h := hsome env₂ s₂ s'' (htrans _ _ _ (htrans _ _ _ hs₁ hs₁') hs₂) hassume₂
                (htrans _ _ _ hs' hs'') session hmem hactive (.inr htoken)
              rwa [htoken] at h
          | none =>
              exact hnone env₁ s₁ env₂ s₂ s'' hs₁ hassume₁ (htrans _ _ _ hs₁' hs₂) hassume₂
                (htrans _ _ _ hs' hs'')
                (hmissing hfind) (hmissing hfind₂)
        · intro env₂ s₂ s' e hs₂ hassume₂ hs' hne s'' hs''
          exact herror env₂ s₂ s'' e (htrans _ _ _ (htrans _ _ _ hs₁ hs₁') hs₂) hassume₂
            (htrans _ _ _ hs' hs'')
            (hfault rfl hne)
  · rintro s' e ⟨env, s, hs, hassume, hs', hfaults, -⟩
    exact herror env s s' e hs hassume hs' (hfaults e rfl)

def conduct {α : Type} (H : Hashing) (call : Call) (Q : UiStore → Except String α → Prop) :
    Contract Env UiStore String α :=
  ⟨Evolves H, Fresh H call, Affects H call, Q⟩

abbrev Conducts {α : Type} (H : Hashing) (call : Call) (x : SessionThread α) (begun : UiStore) : Prop :=
  Meets (conduct H call (fun _ _ => True)) x begun

theorem meets_conduct_atomic {α : Type} {x : Env → Program α} {begun : UiStore}
    (h : ∀ env s, Evolves H begun s → Fresh H call env s → Affects H call s (x env s).2) :
    Conducts H call (atomic x) begun :=
  meets_atomic (fun env s hs hfresh => ⟨h env s hs hfresh, fun _ _ => trivial⟩)

theorem meets_conduct_bind {α β : Type} {x : SessionThread α} {f : α → SessionThread β} {begun : UiStore}
    {P : UiStore → Prop} (hx : Meets (conduct H call (fun s _ => P s)) x begun)
    (hf : ∀ s a, P s → Conducts H call (f a) s) : Conducts H call (x >>= f) begun :=
  meets_bind evolves_refl hx hf (fun _ _ _ => trivial)

theorem revokeByTokenHash_snd (env : Env) (tokenHash : String) (s : UiStore) :
    (failing "Failed to revoke UI session" (revokeAuthSessionByTokenHash env tokenHash) s).2 =
      (revokeAuthSessions env (fun r => r.tokenHash == tokenHash) s).2 :=
  bind_leaves (x := revokeAuthSessions env _) (fun s => s) (fun _ => leaves_pure _) s

theorem meets_conduct_revokeByTokenHash {tokenHash : String} (csrfToken : Option String)
    (h : tokenHash = H.hmac token ∨ tokenHash = H.sha256 token) (begun : UiStore) :
    Conducts H (.logout token csrfToken) (revokeByTokenHash tokenHash) begun := by
  apply meets_conduct_atomic
  intro env s _ _
  have hmoves := (moves_revokeAuthSessions env (fun r => r.tokenHash == tokenHash)).moves s
  rw [← revokeByTokenHash_snd] at hmoves
  rw [bind_leaves (fun s => s) (fun _ => leaves_pure _) s]
  apply hmoves.affects
  intro r _ hr
  change Opens H token r
  rwa [Opens, beq_iff_eq.mp hr]

/-- The session of a token that was found, and its hash, however old. -/
def Known (H : Hashing) (token : String) (session : AuthSessionRow) (s : UiStore) : Prop :=
  Opens H token session ∧ ∃ r ∈ s.sessions.rows, Ages session r

theorem Known.mono {session : AuthSessionRow} (h : Known H token session s) (hs : Evolves H s s') :
    Known H token session s' := by
  obtain ⟨hopens, r, hr, hages⟩ := h
  obtain ⟨r', hr', hages'⟩ := hs.keeps r hr
  exact ⟨hopens, r', hr', ages_trans hages hages'⟩

theorem meets_conduct_findSession (call : Call) (token : String) (begun : UiStore) :
    Meets (conduct setup.hashing call (fun s r => ∀ session hash, r = .ok (some (session, hash)) →
      session.tokenHash = hash ∧ Known setup.hashing token session s)) (findSession setup token) begun := by
  apply meets_findSession setup evolves_refl evolves_trans (fun _ => affects_of_eq rfl)
  · rintro env s s' _ _ hs' session hmem - hopens _ _ ⟨⟩
    obtain ⟨r, hr, hages⟩ := hs'.keeps session hmem
    exact ⟨rfl, hopens, r, hr, hages⟩
  · intros
    intro _ _ h
    cases h
  · intros
    intro _ _ h
    cases h

theorem Known.touched {session : AuthSessionRow} (h : Known H token session s) {csrfToken : Option String}
    {requireCsrf : Bool} (env : Env) (ttl : Nat) :
    Affects H (.authenticate token csrfToken requireCsrf) s (touchAuthSession env session.id ttl s).2 := by
  obtain ⟨hopens, r, hr, hages⟩ := h
  apply ((moves_touchAuthSession env session.id ttl).moves s).affects
  intro x hx hid
  have hxr : x = r := eq_of_mem (p := fun y => y.id == session.id)
    (fun a b ha hb => .inl ((beq_iff_eq.mp ha).trans (beq_iff_eq.mp hb).symm)) hx hr (beq_iff_eq.mpr hid)
    (beq_iff_eq.mpr hages.id)
  rw [hxr]
  exact hages.opens_iff.mpr hopens

theorem meets_conduct_authenticate (token : String) (csrfToken : Option String) (requireCsrf : Bool)
    (begun : UiStore) :
    Conducts setup.hashing (.authenticate token csrfToken requireCsrf)
      (authenticate setup token csrfToken requireCsrf) begun := by
  simp only [authenticate]
  split
  · exact fun _ _ => trivial
  refine meets_bind evolves_refl
    (meets_conduct_findSession setup (.authenticate token csrfToken requireCsrf) token begun)
    (fun s found hfound => ?_) (fun _ _ _ => trivial)
  rcases found with _ | ⟨session, hash⟩
  · exact fun _ _ => trivial
  have hknown := (hfound session hash rfl).2
  apply meets_conduct_bind (P := Known setup.hashing token session)
  · exact fun _ hs => hknown.mono hs
  intro s _ hknown
  apply meets_conduct_bind (P := Known setup.hashing token session)
  · apply meets_atomic
    intro env s' hs' _
    have heq : (mapError ("Failed to resolve UI session memberships: " ++ ·)
        (resolveMembershipsForUser setup env session.userId none none) s').2.sessions = s'.sessions :=
      congrArg Prod.snd ((leaves_mapError (leaves_resolveMemberships env session.userId none none)).shows s')
    exact ⟨affects_of_eq heq, fun s'' hs'' => (hknown.mono hs').mono (evolves_trans _ _ _ (evolves_of_eq heq) hs'')⟩
  intro s memberships hknown
  apply meets_conduct_bind (P := fun _ => True)
  · apply meets_atomic
    intro env s' hs' _
    exact ⟨(hknown.mono hs').touched env _, fun _ _ => trivial⟩
  intro s touched _
  apply meets_conduct_atomic
  intro env s _ _
  rw [bind_leaves (fun s => s) (fun _ => leaves_pure _) s]
  exact affects_of_eq rfl

theorem meets_conduct_logout (token : String) (csrfToken : Option String) (begun : UiStore) :
    Conducts setup.hashing (.logout token csrfToken) (logout setup token csrfToken) begun := by
  simp only [logout]
  split
  · exact fun _ _ => trivial
  refine meets_bind evolves_refl (meets_conduct_findSession setup (.logout token csrfToken) token begun)
    (fun s found hfound => ?_) (fun _ _ _ => trivial)
  rcases found with _ | ⟨session, hash⟩
  · exact meets_conduct_revokeByTokenHash csrfToken (.inl rfl) s
  obtain ⟨rfl, hopens, -⟩ := hfound session hash rfl
  apply meets_conduct_bind (P := fun _ => True)
  · exact fun _ _ => trivial
  · intro s _ _
    exact meets_conduct_revokeByTokenHash csrfToken hopens s

section Cooperation

variable (hH : setup.hashing.Lawful) (hseparate : ∀ raw raw', setup.hashing.hmac raw ≠ setup.hashing.sha256 raw')

include hH hseparate

theorem meets_conduct_createSession (rawJwt : String) (begun : UiStore) :
    Conducts setup.hashing (.createSession rawJwt) (createSession setup rawJwt) begun := by
  simp only [createSession]
  split
  · exact fun _ _ => trivial
  apply meets_conduct_bind (P := fun _ => True)
  · apply meets_atomic
    intro env s _ _
    exact ⟨affects_of_eq ((leaves_resolveUiIdentityFromJwt setup env rawJwt).shows s), fun _ _ => trivial⟩
  intro s identity _
  apply meets_conduct_atomic
  intro env s _ hfresh
  rw [bind_leaves (fun s => s) (fun _ => leaves_pure _) s]
  exact (moves_insertAuthSession hH hseparate env identity.userId (hashWithHmac setup.hashing env.csrfToken)
    (env.now + setup.uiJwt.sessionTtlSeconds)).moves s hfresh

theorem conducts_body (call : Call) (begun : UiStore) : Conducts setup.hashing call (body setup call) begun := by
  cases call with
  | createSession rawJwt =>
      exact meets_conduct_bind (P := fun _ => True) (meets_conduct_createSession setup hH hseparate rawJwt begun)
        (fun _ _ _ _ _ => trivial)
  | authenticate token csrfToken requireCsrf =>
      exact meets_conduct_bind (P := fun _ => True)
        (meets_conduct_authenticate setup token csrfToken requireCsrf begun)
        (fun _ _ _ _ _ => trivial)
  | logout token csrfToken =>
      exact meets_conduct_bind (P := fun _ => True) (meets_conduct_logout setup token csrfToken begun)
        (fun _ _ _ _ _ => trivial)
  | revokeSession sessionId =>
      apply meets_conduct_bind (P := fun _ => True)
      · apply meets_conduct_atomic
        intro env s _ _
        have hmoves := (moves_revokeAuthSessions env (fun r => r.id == sessionId)).moves s
        have heq : (mapError SqliteError.message (revokeAuthSessionById env sessionId) s).2 =
            (revokeAuthSessions env (fun r => r.id == sessionId) s).2 :=
          bind_leaves (x := revokeAuthSessions env _) (fun s => s) (fun _ => leaves_pure _) s
        rw [heq]
        exact hmoves.affects (fun r _ hr => beq_iff_eq.mp hr)
      · exact fun _ _ _ _ _ => trivial
  | revokeAllSessions userId =>
      apply meets_conduct_bind (P := fun _ => True)
      · apply meets_conduct_atomic
        intro env s _ _
        have hmoves := (moves_revokeAuthSessions env (fun r => r.userId == userId)).moves s
        exact hmoves.affects (fun r _ hr => beq_iff_eq.mp hr)
      · exact fun _ _ _ _ _ => trivial

theorem cooperate : Cooperate (Evolves setup.hashing) (Fresh setup.hashing) (body setup) where
  refl := evolves_refl
  trans := evolves_trans
  moves call s := (conducts_body setup hH hseparate call s).weaken (fun _ _ h => h) (fun _ _ h => h)
    (fun _ _ h => h.evolves) (fun _ _ h => h)

end Cooperation

/-- The CSRF token that was handed out with a session. -/
def RightCsrf (H : Hashing) (csrfToken : Option String) (r : AuthSessionRow) : Prop :=
  ∃ value ∈ csrfToken, trim value ≠ "" ∧
    (H.hmac (trim value) = r.csrfHash ∨ H.sha256 (trim value) = r.csrfHash)

theorem checkCsrf_ok_iff (missing : String) {csrfToken : Option String} {session : AuthSessionRow} :
    checkCsrf setup missing csrfToken session = .ok () ↔ RightCsrf setup.hashing csrfToken session := by
  cases csrfToken with
  | none =>
      refine iff_of_false (fun h => ?_) (fun ⟨value, hvalue, _⟩ => ?_)
      · cases h
      · cases hvalue
  | some value =>
      by_cases hempty : trim value = ""
      · refine iff_of_false (fun h => ?_) ?_
        · simp [checkCsrf, hempty, Option.filter] at h
        · rintro ⟨_, ⟨⟩, hne, -⟩
          exact hne hempty
      · have hne : (trim value).isEmpty = false := by simpa using hempty
        simp [checkCsrf, RightCsrf, Option.filter, hne, hempty, hashWithHmac, imp_iff_not_or]

/-- The session of `x`, whether the row is as it was or older. -/
def Holds (x : AuthSessionRow) (P : AuthSessionRow → Prop) (s : UiStore) : Prop :=
  ∃ r ∈ s.sessions.rows, r.id = x.id ∧ P r

theorem eq_of_id {a b : AuthSessionRow} (ha : a ∈ s.sessions.rows) (hb : b ∈ s.sessions.rows) (h : a.id = b.id) :
    a = b :=
  eq_of_mem (p := fun y => y.id == b.id) (fun _ _ ha hb => .inl ((beq_iff_eq.mp ha).trans (beq_iff_eq.mp hb).symm))
    ha hb (beq_iff_eq.mpr h) (beq_iff_eq.mpr rfl)

variable {x : AuthSessionRow} {begun : UiStore}

theorem Holds.ages {P : AuthSessionRow → Prop} (hx : x ∈ begun.sessions.rows) (hs : Evolves H begun s)
    (h : Holds x P s) : ∃ r ∈ s.sessions.rows, Ages x r ∧ P r := by
  obtain ⟨r, hr, hid, hP⟩ := h
  obtain ⟨y, hy, hages⟩ := hs.keeps x hx
  obtain rfl := eq_of_id hy hr (hages.id.trans hid.symm)
  exact ⟨y, hy, hages, hP⟩

abbrev Revoked (x : AuthSessionRow) (s : UiStore) : Prop := Holds x (fun r => r.revokedAt ≠ none) s

theorem Holds.revoked_mono (h : Revoked x s) (hs : Evolves H s s') : Revoked x s' := by
  obtain ⟨r, hr, hid, hrevoked⟩ := h
  obtain ⟨r', hr', hages⟩ := hs.keeps r hr
  exact ⟨r', hr', hages.id.trans hid, hages.revoked hrevoked⟩

theorem meets_authenticate_dead (hbegun : Apart setup.hashing begun) (hx : x ∈ begun.sessions.rows)
    (hrevoked : x.revokedAt ≠ none) (hopens : Opens setup.hashing token x) (csrfToken : Option String)
    (requireCsrf : Bool) :
    Meets ⟨Evolves setup.hashing, fun _ _ => True, fun _ _ => True, fun _ r => ∃ e, r = .error e⟩
      (body setup (.authenticate token csrfToken requireCsrf)) begun := by
  refine meets_bind evolves_refl (Q := fun _ r => ∃ e, r = .error e) ?_ (fun _ _ h => ?_) (fun _ e _ => ⟨e, rfl⟩)
  · simp only [authenticate]
    split
    · exact fun _ _ => ⟨_, rfl⟩
    refine meets_bind evolves_refl (Q := fun _ r => ∀ found, r = .ok found → found = none)
      (meets_findSession setup evolves_refl evolves_trans (fun _ => trivial) ?_ ?_ ?_) (fun s found hfound => ?_)
      (fun _ e _ => ⟨e, rfl⟩)
    · intro env s s' hs _ _ session hmem hactive hsession
      exact absurd hactive ((hs.opened hbegun hx hopens hmem hsession).revoked hrevoked)
    · rintro _ _ _ _ _ _ _ _ _ _ _ _ _ ⟨⟩
      rfl
    · rintro _ _ _ _ _ _ _ _ _ ⟨⟩
    · rw [hfound found rfl]
      exact fun _ _ => ⟨_, rfl⟩
  · obtain ⟨e, he⟩ := h
    cases he

theorem meets_findSession_live {A : Env → UiStore → Prop} {effect : UiStore → UiStore → Prop}
    (hbegun : Apart setup.hashing begun) (hx : x ∈ begun.sessions.rows) (hopens : Opens setup.hashing token x)
    (heffect : ∀ s, effect s s)
    (hA : ∀ env s, A env s → Holds x (fun r => r.revokedAt ≠ none ∨ env.now < r.expiresAt) s) :
    Meets ⟨Evolves setup.hashing, A, effect, fun s r => Evolves setup.hashing begun s ∧
      (∀ session hash, r = .ok (some (session, hash)) → Ages x session ∧ hash = x.tokenHash) ∧
      (r = .ok none → Revoked x s) ∧ ∀ e, r = .error e → ∃ env s, A env s ∧ env.faults ≠ {}⟩
      (findSession setup token) begun := by
  have hrevoked : ∀ {env s hash}, Evolves setup.hashing begun s → A env s → x.tokenHash = hash →
      (∀ r ∈ s.sessions.rows, r.tokenHash = hash → r.revokedAt ≠ none ∨ r.expiresAt ≤ env.now) →
        Revoked x s := by
    intro env s hash hs hassume hhash hnone
    obtain ⟨r, hr, hages, hlive⟩ := (hA env s hassume).ages hx hs
    refine ⟨r, hr, hages.id, ?_⟩
    rcases hnone r hr (hages.tokenHash.trans hhash) with h | h
    · exact h
    · exact hlive.resolve_right (Nat.not_lt.mpr h)
  apply meets_findSession setup evolves_refl evolves_trans heffect
  · intro env s s' hs _ hs' session hmem _ hsession
    have hages := hs.opened hbegun hx hopens hmem hsession
    refine ⟨evolves_trans _ _ _ hs hs', ?_, nofun, nofun⟩
    rintro _ _ ⟨⟩
    exact ⟨hages, hages.tokenHash⟩
  · intro env₁ s₁ env₂ s₂ s' hs₁ hassume₁ hs₂ hassume₂ hs' hnone₁ hnone₂
    refine ⟨evolves_trans _ _ _ hs₁ (evolves_trans _ _ _ hs₂ hs'), nofun, fun _ => ?_, nofun⟩
    rcases hopens with hhash | hhash
    · exact ((hrevoked hs₁ hassume₁ hhash hnone₁).revoked_mono hs₂).revoked_mono hs'
    · exact (hrevoked (evolves_trans _ _ _ hs₁ hs₂) hassume₂ hhash hnone₂).revoked_mono hs'
  · intro env s s' e hs hassume hs' hfaults
    exact ⟨evolves_trans _ _ _ hs hs', nofun, nofun, fun _ _ => ⟨env, s, hassume, hfaults⟩⟩

theorem meets_logout_wrong (henabled : setup.uiJwt.enabled = true) (hbegun : Apart setup.hashing begun)
    (hx : x ∈ begun.sessions.rows) (hopens : Opens setup.hashing token x) {csrfToken : Option String}
    (hcsrf : ¬ RightCsrf setup.hashing csrfToken x) :
    Meets ⟨Evolves setup.hashing, fun env => Holds x (fun r => r.revokedAt = none ∧ env.now < r.expiresAt),
      fun s s' => s' = s, fun _ r => ∃ e, r = .error e⟩ (body setup (.logout token csrfToken)) begun := by
  refine meets_bind evolves_refl (Q := fun _ r => ∃ e, r = .error e) ?_ (fun _ _ h => ?_) (fun _ e _ => ⟨e, rfl⟩)
  · simp only [logout, henabled, Bool.not_true, Bool.false_eq_true, if_false]
    refine meets_bind evolves_refl (meets_findSession_live setup hbegun hx hopens (fun _ => rfl) ?_)
      (fun s found hfound => ?_) (fun _ e _ => ⟨e, rfl⟩)
    · rintro env s ⟨r, hr, hid, -, hlive⟩
      exact ⟨r, hr, hid, .inr hlive⟩
    rcases found with _ | ⟨session, hash⟩
    · have hrevoked := hfound.2.2.1 rfl
      intro env s' hs' hactive
      obtain ⟨r, hr, hid, hdead⟩ := hrevoked.revoked_mono hs'
      obtain ⟨r', hr', hid', hlive, -⟩ := hactive
      obtain rfl := eq_of_id hr hr' (hid.trans hid'.symm)
      exact absurd hlive hdead
    · have hages := (hfound.2.1 session hash rfl).1
      have hwrong : ¬ RightCsrf setup.hashing csrfToken session := by
        rwa [RightCsrf, hages.csrfHash]
      rw [← checkCsrf_ok_iff setup "Missing CSRF token."] at hwrong
      cases hcheck : checkCsrf setup "Missing CSRF token." csrfToken session with
      | ok u => exact absurd hcheck hwrong
      | error e => exact meets_done_error hcheck _ (fun _ _ => ⟨e, rfl⟩)
  · obtain ⟨e, he⟩ := h
    cases he

theorem revokeByTokenHash_ok {env : Env} (hfaults : env.faults = {}) (tokenHash : String) (s : UiStore) :
    ∃ s', (do let _ ← failing "Failed to revoke UI session" (revokeAuthSessionByTokenHash env tokenHash) :
        Program Unit) s = (.ok (), s') ∧
      s'.sessions.rows = s.sessions.rows.map (setWhere (fun r => r.tokenHash == tokenHash && r.revokedAt.isNone)
        (fun r => { r with revokedAt := some env.now })) := by
  obtain ⟨now, retryAfter, apiKey, userId, projectId, membershipId, sessionId, sessionToken, csrfToken, faults⟩ :=
    env
  cases hfaults
  exact ⟨_, rfl, rfl⟩

theorem meets_revokeByTokenHash {A : Env → UiStore → Prop} (hA : ∀ env s, A env s → env.faults = {})
    (hx : x ∈ begun.sessions.rows) {tokenHash : String} {s : UiStore} (hs : Evolves H begun s)
    (hends : tokenHash = x.tokenHash ∨ Revoked x s) :
    Meets ⟨Evolves H, A, fun _ _ => True, fun s r => r = .ok () ∧ Revoked x s⟩
      (revokeByTokenHash tokenHash) s := by
  apply meets_atomic
  intro env t ht hassume
  obtain ⟨t', hok, hrows⟩ := revokeByTokenHash_ok (hA env t hassume) tokenHash t
  rw [hok]
  refine ⟨trivial, fun u hu => ⟨rfl, Holds.revoked_mono ?_ hu⟩⟩
  obtain ⟨r, hr, hages⟩ := (evolves_trans _ _ _ hs ht).keeps x hx
  have hmem := List.mem_map_of_mem (f := setWhere (fun r => r.tokenHash == tokenHash && r.revokedAt.isNone)
    (fun r => { r with revokedAt := some env.now })) hr
  rw [← hrows] at hmem
  refine ⟨_, hmem, (setWhere_keeps AuthSessionRow.id (by intro _; rfl) r).trans hages.id, ?_⟩
  cases hrevoked : r.revokedAt with
  | some at_ => simp [setWhere, hrevoked]
  | none =>
      rcases hends with rfl | hends
      · simp [setWhere, hages.tokenHash, hrevoked]
      · obtain ⟨r', hr', hid, hdead⟩ := hends.revoked_mono ht
        obtain rfl := eq_of_id hr hr' (hages.id.trans hid.symm)
        exact absurd hrevoked hdead

theorem meets_logout_right (henabled : setup.uiJwt.enabled = true) (hbegun : Apart setup.hashing begun)
    (hx : x ∈ begun.sessions.rows) (hopens : Opens setup.hashing token x) {csrfToken : Option String}
    (hcsrf : RightCsrf setup.hashing csrfToken x) :
    Meets ⟨Evolves setup.hashing, fun env s => env.faults = {} ∧
        Holds x (fun r => r.revokedAt ≠ none ∨ env.now < r.expiresAt) s,
      fun _ _ => True, fun s r => r = .ok .loggedOut ∧ Revoked x s⟩
        (body setup (.logout token csrfToken)) begun := by
  refine meets_bind evolves_refl (Q := fun s r => r = .ok () ∧ Revoked x s) ?_ (fun s u h s' hs' => ?_)
    (fun _ e h => ?_)
  · simp only [logout, henabled, Bool.not_true, Bool.false_eq_true, if_false]
    refine meets_bind evolves_refl (meets_findSession_live setup hbegun hx hopens (fun _ => trivial)
      (fun env s h => h.2)) (fun s found hfound => ?_) (fun s e h => ?_)
    · rcases found with _ | ⟨session, hash⟩
      · exact meets_revokeByTokenHash (fun _ _ h => h.1) hx hfound.1 (.inr (hfound.2.2.1 rfl))
      · obtain ⟨hages, hhash⟩ := hfound.2.1 session hash rfl
        have hright : RightCsrf setup.hashing csrfToken session := by
          rwa [RightCsrf, hages.csrfHash]
        rw [← checkCsrf_ok_iff setup "Missing CSRF token."] at hright
        exact meets_done_ok hright (meets_revokeByTokenHash (fun _ _ h => h.1) hx hfound.1 (.inl hhash))
    · obtain ⟨env, s, ⟨hfaults, -⟩, hne⟩ := h.2.2.2 e rfl
      exact absurd hfaults hne
  · exact ⟨congrArg _ rfl, h.2.revoked_mono hs'⟩
  · cases h.1

end Contracts

abbrev SessionPool := Pool Call Env UiStore String Reply

abbrev SessionAnswer := Answered Call Env UiStore String Reply

/-- Nobody is authenticated by the token of a session that was revoked when the
call began. -/
def StaysDead (H : Hashing) (a : SessionAnswer) : Prop :=
  ∀ token csrfToken requireCsrf, a.call = .authenticate token csrfToken requireCsrf →
    ∀ x ∈ a.begun.sessions.rows, x.revokedAt ≠ none → Opens H token x → ∃ e, a.result = .error e

/-- A logout without the CSRF token of a session that is active when its
statements run fails and writes nothing. With the token it ends the session. -/
def NeedsCsrf (H : Hashing) (a : SessionAnswer) : Prop :=
  ∀ token csrfToken, a.call = .logout token csrfToken → ∀ x ∈ a.begun.sessions.rows, Opens H token x →
    (¬ RightCsrf H csrfToken x →
      (∀ m ∈ a.moments, Holds x (fun r => r.revokedAt = none ∧ m.input.now < r.expiresAt) m.before) →
      (∃ e, a.result = .error e) ∧ ∀ m ∈ a.moments, m.after = m.before) ∧
    (RightCsrf H csrfToken x →
      (∀ m ∈ a.moments, m.input.faults = {} ∧
        Holds x (fun r => r.revokedAt ≠ none ∨ m.input.now < r.expiresAt) m.before) →
      a.result = .ok .loggedOut ∧ Revoked x a.store)

/-- A turn of a call changes no session of a user whose sessions the call is not
about. -/
def SparesOthers (p : SessionPool) (t : Turn Call Env) : Prop :=
  ∀ r ∈ p.store.sessions.rows,
    (∀ index input flight, t = .advance index input → p.flights[index]? = some flight →
      ∀ x ∈ p.store.sessions.rows, Concerns setup.hashing flight.call x → x.userId ≠ r.userId) →
    r ∈ (turn (body setup) p t).2.store.sessions.rows

/-- While calls that create, use and revoke sessions take turns in any order, at
any times, revoked sessions stay dead, logging out needs the CSRF token and ends
the session, and the sessions of other users stay as they are. -/
theorem sessions_safe (hH : setup.hashing.Lawful)
    (hseparate : ∀ raw raw', setup.hashing.hmac raw ≠ setup.hashing.sha256 raw')
    (henabled : setup.uiJwt.enabled = true) {start : UiStore} (hstart : Apart setup.hashing start)
    {turns : List (Turn Call Env)}
    (hfresh : Guarded (turn (body setup)) (Allowed (Fresh setup.hashing)) [] (.idle start) turns) :
    (∀ t a, (t, some a) ∈ history (turn (body setup)) (.idle start) turns →
      StaysDead setup.hashing a ∧ NeedsCsrf setup.hashing a) ∧
    ∀ before t later, turns = before ++ t :: later →
      SparesOthers setup (after (turn (body setup)) (.idle start) before) t := by
  have hcooperate := cooperate setup hH hseparate
  constructor
  · intro t a ha
    obtain ⟨hreached, hmeets⟩ := answered_meets hcooperate hfresh ha
    have hbegun := hreached.apart hstart
    constructor
    · intro token csrfToken requireCsrf hcall x hx hrevoked hopens
      have h := meets_authenticate_dead setup hbegun hx hrevoked hopens csrfToken requireCsrf
      rw [← hcall] at h
      exact (hmeets _ rfl h (fun _ _ => trivial)).2
    · intro token csrfToken hcall x hx hopens
      constructor
      · intro hcsrf hactive
        have h := meets_logout_wrong setup henabled hbegun hx hopens hcsrf
        rw [← hcall] at h
        obtain ⟨hsame, herror⟩ := hmeets _ rfl h hactive
        exact ⟨herror, hsame⟩
      · intro hcsrf hlive
        have h := meets_logout_right setup henabled hbegun hx hopens hcsrf
        rw [← hcall] at h
        exact (hmeets _ rfl h hlive).2
  · rintro before t later rfl r hr hothers
    cases t with
    | begin call => exact hr
    | advance index input =>
        cases hindex : (after (turn (body setup)) (.idle start) before).flights[index]? with
        | none =>
            rw [turn_none hindex]
            exact hr
        | some flight =>
            have hguarded : Guarded (turn (body setup)) (Allowed (Fresh setup.hashing)) [] (.idle start)
                (before ++ [.advance index input]) := by
              rw [List.append_cons] at hfresh
              exact ((guarded_append _ _ _ _).mp hfresh).1
            have heffect := turn_effect hcooperate hguarded hindex (fun _ => affects_of_eq rfl)
              (conducts_body setup hH hseparate flight.call flight.begun)
            refine heffect.others r hr (fun hconcerns => ?_)
            exact hothers index input flight rfl hindex r hr hconcerns rfl

def taggedHashing : Hashing := { plainHashing with
  hmac := fun raw => "h" ++ raw
  sha256 := fun raw => "s" ++ raw }

theorem taggedHashing_lawful : taggedHashing.Lawful where
  hmac_inj h := by simpa [taggedHashing] using h
  sha256_inj h := by simpa [taggedHashing] using h
  sha256_plain raw := by simp only [taggedHashing, isArgon2, String.toList_append]; rfl
  argon2_marked {salt raw hash} h := @Hashing.Lawful.argon2_marked _ plainHashing_lawful salt raw hash h
  argon2_opens {salt raw hash} h := @Hashing.Lawful.argon2_opens _ plainHashing_lawful salt raw hash h

theorem taggedHashing_separate (raw raw' : String) : taggedHashing.hmac raw ≠ taggedHashing.sha256 raw' := by
  intro h
  have h := congrArg String.toList h
  simp only [taggedHashing, String.toList_append] at h
  exact absurd (List.cons.inj h).1 (by decide)

def oneUser : Setup := { DisabledUsers.oneUser with hashing := taggedHashing }

def loginLogout : List (Turn Call Env) :=
  [.begin (.createSession "jwt"), .advance 0 { now := 10, userId := "u1" },
    .advance 0 { now := 11, sessionToken := "s1", csrfToken := "c1" }, .advance 0 { now := 12 },
    .begin (.logout "s1" (some "c1")), .begin (.authenticate "s1" none false), .advance 0 { now := 20 },
    .advance 1 { now := 21 }, .advance 0 { now := 22 }, .advance 0 { now := 23 },
    .begin (.authenticate "s1" none false), .advance 1 { now := 24 }, .advance 1 { now := 25 },
      .advance 1 { now := 26 }]

theorem sessions_safe_loginLogout :
    (∀ t a, (t, some a) ∈ history (turn (body oneUser)) (.idle .empty) loginLogout →
      StaysDead oneUser.hashing a ∧ NeedsCsrf oneUser.hashing a) ∧
    ∀ before t later, loginLogout = before ++ t :: later →
      SparesOthers oneUser (after (turn (body oneUser)) (.idle .empty) before) t :=
  sessions_safe oneUser taggedHashing_lawful taggedHashing_separate rfl (fun _ h => absurd h List.not_mem_nil)
    (by decide +kernel)

/-- A store with one session, whose token is `s1` and whose CSRF token is `c1`. -/
def openSession : UiStore := { UiStore.empty with
  users := ⟨[⟨"u1", some "user@example.org", none, "oidc", "subject", none, false⟩],
    List.pairwise_singleton _ _⟩
  sessions := ⟨[⟨"x", "u1", "hs1", "hc1", 100, none⟩], List.pairwise_singleton _ _⟩ }

def loginDisabled : Setup := { oneUser with uiJwt := { oneUser.uiJwt with enabled := false } }

/-- The session lapses while its logout is under way, and is revived by a request
that had found it before. -/
def lapse : List (Turn Call Env) :=
  [.begin (.authenticate "s1" none false), .advance 0 { now := 90 }, .advance 0 { now := 91 },
    .begin (.logout "s1" none), .advance 1 { now := 101 }, .advance 1 { now := 101 }, .advance 0 { now := 102 },
    .advance 1 { now := 103 }]

theorem logged_out_without_csrf :
    (((turn (body loginDisabled) (after (turn (body loginDisabled)) (.idle openSession) [.begin (.logout "s1" none)])
        (.advance 0 { now := 50 })).1.map (fun a => (a.call, a.result, a.store.sessions.rows))) =
      some (.logout "s1" none, .ok .loggedOut, [⟨"x", "u1", "hs1", "hc1", 100, none⟩])) ∧
    ((turn (body oneUser) (after (turn (body oneUser)) (.idle openSession) lapse) (.advance 1 { now := 104 })).1.map
        (fun a => (a.call, a.result, a.begun.sessions.rows, a.store.sessions.rows))) =
      some (.logout "s1" none, .ok .loggedOut, [⟨"x", "u1", "hs1", "hc1", 100, none⟩],
        [⟨"x", "u1", "hs1", "hc1", 3702, some 103⟩]) := by
  decide +kernel

end MLRunX.UiSessions
