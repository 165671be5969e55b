import MLRunX.ShareLinks

namespace MLRunX.ShareSafety

open AuditLog Auth Commands Http Ingest RunInit RunTables Runs ShareLinks Sqlite Statements Tables

variable {env : LinkEnv} {faults : LinkFaults} {s s' : LinkStore}

/-- A link that has neither been revoked nor run out. -/
structure Live (now : String) (row : ShareTokenRow) : Prop where
  kept : row.revokedAt = none
  current : ∀ expires ∈ row.expiresAt, ¬ expires < now

theorem validateShareToken_ok {tokenHash : String} {legacy : Option String} {row : ShareTokenRow}
    (h : validateShareToken env faults tokenHash legacy s = (.ok row, s')) :
    s.shareTokens.find (ShareTokenRow.answers tokenHash legacy) = some row ∧ Live env.now row ∧ s' = s := by
  obtain ⟨found, s₁, hselect, hrest⟩ := bind_eq_ok h
  obtain ⟨hfound, rfl⟩ := query_eq_ok hselect
  cases found with
  | none => cases hrest
  | some r =>
      by_cases hrevoked : r.revokedAt.isSome
      · simp only [if_pos hrevoked] at hrest
        cases hrest
      · simp only [if_neg hrevoked] at hrest
        have hkept : r.revokedAt = none := by simpa using hrevoked
        cases hexpires : r.expiresAt with
        | none =>
            rw [hexpires] at hrest
            obtain ⟨rfl, rfl⟩ := pure_eq_ok hrest
            exact ⟨hfound.symm, ⟨hkept, by simp [hexpires]⟩, rfl⟩
        | some expires =>
            rw [hexpires] at hrest
            obtain ⟨now, s₂, hclock, hlast⟩ := bind_eq_ok hrest
            obtain ⟨rfl, rfl⟩ := query_eq_ok hclock
            by_cases hcurrent : expires < env.now
            · rw [if_pos hcurrent] at hlast
              cases hlast
            · rw [if_neg hcurrent] at hlast
              obtain ⟨rfl, rfl⟩ := pure_eq_ok hlast
              exact ⟨hfound.symm, ⟨hkept, by simpa [hexpires] using hcurrent⟩, rfl⟩

theorem validateShareToken_live {tokenHash : String} {legacy : Option String} {row : ShareTokenRow}
    (hfind : s.shareTokens.find (ShareTokenRow.answers tokenHash legacy) = some row) (hlive : Live env.now row) :
    validateShareToken env {} tokenHash legacy s = (.ok row, s) := by
  have hselect : (query none (fun s : LinkStore => s.shareTokens.find (ShareTokenRow.answers tokenHash legacy))) s =
      (.ok (some row), s) := query_ok hfind
  unfold validateShareToken
  rw [bind_ok hselect]
  have hrevoked : ¬ row.revokedAt.isSome = true := by simp [hlive.kept]
  have hcurrent := hlive.current
  cases hexpires : row.expiresAt with
  | none =>
      simp only [if_neg hrevoked, hexpires]
      rfl
  | some expires =>
      simp only [if_neg hrevoked, hexpires]
      refine (bind_ok (query_ok rfl)).trans ?_
      rw [if_neg (hcurrent expires hexpires)]
      rfl

theorem getRun_ok {fault : Option String} {runId : String} {run : RunRow}
    (h : ShareLinks.getRun fault runId s = (.ok run, s')) : s.runs.db.findRun runId = some run ∧ s' = s := by
  unfold ShareLinks.getRun at h
  obtain ⟨runs, hruns, rfl⟩ := zoom_eq_ok h
  obtain ⟨db, hdb, rfl⟩ := zoom_eq_ok hruns
  obtain ⟨hfound, rfl⟩ := RunTables.getRun_ok hdb
  exact ⟨hfound, rfl⟩

theorem getRun_found {runId : String} {run : RunRow} (h : s.runs.db.findRun runId = some run) :
    ShareLinks.getRun none runId s = (.ok run, s) := by
  simp only [ShareLinks.getRun, onRuns, RunInit.onDb, zoom, RunTables.getRun_found h]

/-- A request that presents a token to the page of a run succeeds. -/
def OpensRun (env : LinkEnv) (token : String) (s : LinkStore) : Prop :=
  ∃ faults response s', httpGetSharedRun env faults token s = (.ok response, s')

/-- A request that presents a token to the metrics of a run succeeds. -/
def OpensMetrics (env : LinkEnv) (token : String) (s : LinkStore) : Prop :=
  ∃ faults query response s', httpGetSharedMetrics env faults token query s = (.ok response, s')

structure Selects (env : LinkEnv) (token : String) (s : LinkStore) (row : ShareTokenRow) : Prop where
  enabled : env.shareLinksEnabled = true
  found : s.shareTokens.find (ShareTokenRow.answers (env.hmac token) (some token)) = some row
  live : Live env.now row
  leads : (s.runs.db.findRun row.runId).isSome = true

theorem opensRun_iff {token : String} : OpensRun env token s ↔ ∃ row, Selects env token s row := by
  constructor
  · rintro ⟨faults, response, s', h⟩
    unfold httpGetSharedRun at h
    split at h
    · rename_i henabled
      obtain ⟨share, s₁, hshare, hrest⟩ := bind_eq_ok h
      obtain ⟨hfound, hlive, rfl⟩ := validateShareToken_ok (mapError_eq_ok hshare)
      obtain ⟨run, s₂, hrun, -⟩ := bind_eq_ok hrest
      obtain ⟨hleads, rfl⟩ := getRun_ok (mapError_eq_ok hrun)
      exact ⟨share, henabled, hfound, hlive, by rw [hleads]; rfl⟩
    · cases h
  · rintro ⟨row, henabled, hfound, hlive, hleads⟩
    obtain ⟨run, hrun⟩ := Option.isSome_iff_exists.mp hleads
    refine ⟨{}, ?_⟩
    simp only [httpGetSharedRun, if_pos henabled, shareTokenHash]
    rw [bind_ok (mapError_ok (validateShareToken_live hfound hlive)), bind_ok (mapError_ok (getRun_found hrun))]
    exact ⟨_, _, rfl⟩

def noSteps : MetricsQuery := { startStep := some 1, endStep := some 0 }

theorem getMetrics_noSteps (overflowChecks : Bool) (rows : List MetricQuery.MetricRow) (runId : String) :
    ∃ series, MetricQuery.getMetrics overflowChecks rows runId noSteps.nameList noSteps.maxPoints
      (noSteps.startStep.map Int64.toInt) (noSteps.endStep.map Int64.toInt) = .ok series := by
  have hseries : ∀ name, ∃ series, MetricQuery.getSeries overflowChecks rows runId noSteps.maxPoints
      (noSteps.startStep.map Int64.toInt) (noSteps.endStep.map Int64.toInt) name = .ok series := by
    intro name
    have hnone : MetricQuery.selectRows rows runId (noSteps.startStep.map Int64.toInt)
        (noSteps.endStep.map Int64.toInt) name = [] := by
      apply List.filter_eq_nil_iff.mpr
      intro r _ h
      simp [MetricQuery.inRange, noSteps] at h
      omega
    refine ⟨_, MetricQuery.getSeries_few ?_⟩
    rw [hnone]
    exact Nat.zero_le _
  choose series hseries using hseries
  exact ⟨(MetricQuery.namesToQuery rows runId noSteps.nameList).map series,
    Fallible.mapM_eq_ok.mpr (List.forall₂_map_right_iff.mpr (List.forall₂_same.mpr (fun name _ => hseries name)))⟩

theorem opensMetrics_iff {token : String} : OpensMetrics env token s ↔ ∃ row, Selects env token s row := by
  constructor
  · rintro ⟨faults, q, response, s', h⟩
    unfold httpGetSharedMetrics at h
    split at h
    · rename_i henabled
      obtain ⟨share, s₁, hshare, hrest⟩ := bind_eq_ok h
      obtain ⟨hfound, hlive, rfl⟩ := validateShareToken_ok (mapError_eq_ok hshare)
      obtain ⟨run, s₂, hrun, -⟩ := bind_eq_ok hrest
      obtain ⟨hleads, rfl⟩ := getRun_ok (mapError_eq_ok hrun)
      exact ⟨share, henabled, hfound, hlive, by rw [hleads]; rfl⟩
    · cases h
  · rintro ⟨row, henabled, hfound, hlive, hleads⟩
    obtain ⟨run, hrun⟩ := Option.isSome_iff_exists.mp hleads
    obtain ⟨series, hseries⟩ := getMetrics_noSteps env.overflowChecks (metricRows s) row.runId
    refine ⟨{}, noSteps, ?_⟩
    have hmetrics : getMetrics env {} row.runId noSteps s = (.ok series, s) := by
      refine (bind_ok (mapError_ok (query_ok rfl))).trans ?_
      exact mapError_ok (Commands.ofExcept_ok hseries s)
    simp only [httpGetSharedMetrics, if_pos henabled, shareTokenHash]
    rw [bind_ok (mapError_ok (validateShareToken_live hfound hlive)), bind_ok (mapError_ok (getRun_found hrun)),
      bind_ok hmetrics]
    exact ⟨_, _, rfl⟩

/-- Every stored value is the fingerprint of an issued token. -/
structure FromIssued (hmac : String → String) (issued : List String) (s : LinkStore) : Prop where
  hashed : ∀ row ∈ s.shareTokens.rows, ∃ raw ∈ issued, row.token = hmac raw

def tokens (s : LinkStore) : List String := s.shareTokens.rows.map ShareTokenRow.token

theorem fromIssued_iff {hmac : String → String} {issued : List String} :
    FromIssued hmac issued s ↔ ∀ value ∈ tokens s, ∃ raw ∈ issued, value = hmac raw :=
  ⟨fun h _ hvalue => by
    obtain ⟨row, hrow, rfl⟩ := List.mem_map.mp hvalue
    exact h.hashed row hrow, fun h => ⟨fun row hrow => h row.token (List.mem_map_of_mem hrow)⟩⟩

inductive Op
  | create (auth : AuthContext) (runId : String) (expiresInDays : Option Int) (token : String)
  | showRun (token : String)
  | showMetrics (token : String) (query : MetricsQuery)
  | revoke (auth : AuthContext) (runId token : String)

/-- A request at some time and with some faults is answered. The reply is the token
it hands out. -/
def step (env : LinkEnv) : Machine LinkStore (String × LinkFaults × Op) (Option String) := fun s (now, faults, op) =>
  match op with
  | .create auth runId expiresInDays token =>
      let r := httpCreateShareToken { env with now } faults auth runId expiresInDays token s
      (r.1.toOption.map CreateShareResponse.token, r.2)
  | .showRun token => (none, (httpGetSharedRun { env with now } faults token s).2)
  | .showMetrics token query => (none, (httpGetSharedMetrics { env with now } faults token query s).2)
  | .revoke auth runId token => (none, (httpRevokeShareToken { env with now } faults auth runId token s).2)

theorem leaves_getRun (fault : Option String) (runId : String) : Leaves tokens (ShareLinks.getRun fault runId) :=
  ⟨fun _ => rfl⟩

theorem leaves_validateShareToken (tokenHash : String) (legacy : Option String) :
    Leaves tokens (validateShareToken env faults tokenHash legacy) := by
  refine leaves_bind (leaves_query _ _) (fun found => ?_)
  cases found with
  | none => exact leaves_fail _
  | some row =>
      by_cases hrevoked : row.revokedAt.isSome
      · simp only [if_pos hrevoked]
        exact leaves_fail _
      · simp only [if_neg hrevoked]
        cases row.expiresAt with
        | none => exact leaves_pure _
        | some expires =>
            refine leaves_bind (leaves_query _ _) (fun now => ?_)
            split
            · exact leaves_fail _
            · exact leaves_pure _

theorem leaves_httpGetSharedRun (token : String) : Leaves tokens (httpGetSharedRun env faults token) := by
  simp only [httpGetSharedRun]
  split
  · apply leaves_bind (leaves_mapError (leaves_validateShareToken _ _))
    intro share
    apply leaves_bind (leaves_mapError (leaves_getRun _ _))
    intro run
    apply leaves_bind (leaves_mapError (leaves_query _ _))
    intro times
    apply leaves_bind (leaves_attempt ⟨fun _ => rfl⟩)
    intro tags
    exact leaves_bind (leaves_attempt (leaves_query _ _)) (fun _ => leaves_pure _)
  · exact leaves_fail _

theorem leaves_httpGetSharedMetrics (token : String) (q : MetricsQuery) :
    Leaves tokens (httpGetSharedMetrics env faults token q) := by
  simp only [httpGetSharedMetrics]
  split
  · apply leaves_bind (leaves_mapError (leaves_validateShareToken _ _))
    intro share
    apply leaves_bind (leaves_mapError (leaves_getRun _ _))
    intro run
    apply leaves_bind (leaves_bind (leaves_mapError (leaves_query _ _)) (fun _ => leaves_mapError (leaves_ofExcept _)))
    intro series
    apply leaves_bind (leaves_attempt (leaves_query _ _))
    intro names
    exact leaves_bind (leaves_attempt (leaves_query _ _)) (fun _ => leaves_pure _)
  · exact leaves_fail _

theorem leaves_audited {ε : Type} (fault : Option String) (event : AuditEvent) :
    Leaves tokens (emitAuditEvent ledger fault event : Command LinkStore ε Unit) :=
  leaves_emitAuditEvent (fun _ => rfl) fault

theorem leaves_revokeShareToken (tokenHash : String) (legacy : Option String) :
    Leaves tokens (revokeShareToken env faults tokenHash legacy) := by
  apply leaves_bind
  · apply leaves_execute
    intro s changes s' h
    obtain ⟨-, rfl⟩ := Prod.mk.inj (Except.ok.inj h)
    simp only [tokens, rows_update, List.map_map]
    exact List.map_congr_left (fun row _ => setWhere_keeps ShareTokenRow.token (by intro _; rfl) row)
  · intro changes
    split
    · exact leaves_fail _
    · exact leaves_pure ()

theorem leaves_httpRevokeShareToken (auth : AuthContext) (runId token : String) :
    Leaves tokens (httpRevokeShareToken env faults auth runId token) := by
  apply leaves_bind (leaves_mapError (leaves_getRun _ _))
  intro run
  apply leaves_bind (leaves_requireEndpointAccess (fun _ _ => rfl))
  intro _
  apply leaves_bind (leaves_ofExcept _)
  intro _
  apply leaves_bind (leaves_ofExcept _)
  intro _
  apply leaves_bind (leaves_mapError (leaves_revokeShareToken _ _))
  intro _
  exact leaves_bind (leaves_audited _ _) (fun _ => leaves_pure _)

theorem triple_httpCreateShareToken (auth : AuthContext) (runId : String) (expiresInDays : Option Int)
    (token : String) (before : List String) :
    Triple (fun s => tokens s = before) (httpCreateShareToken env faults auth runId expiresInDays token)
      (fun response s => response.token = token ∧ tokens s = before ++ [env.hmac token])
      (fun s => tokens s = before) := by
  have hkeep : ∀ {ε α : Type} {x : Command LinkStore ε α}, Leaves tokens x →
      Keeps (fun s => tokens s = before) x :=
    fun hx => hx.keeps (fun _ _ h hs => h ▸ hs)
  apply triple_ite
  · intro _
    apply triple_bind (hkeep (leaves_ofExcept _))
    intro _
    apply triple_bind (hkeep (leaves_mapError (leaves_getRun _ _)))
    intro run
    apply triple_bind (hkeep (leaves_requireEndpointAccess (fun _ _ => rfl)))
    intro _
    apply triple_bind (hkeep (leaves_ofExcept _))
    intro _
    apply triple_bind (hkeep (leaves_ofExcept _))
    intro _
    apply triple_bind (hkeep (leaves_ofExcept _))
    intro expiresAt
    apply triple_bind (Q := fun _ s => tokens s = before ++ [env.hmac token])
    · apply triple_mapError
      apply triple_execute
      · intro s u s' hs hinsert
        split at hinsert
        · split at hinsert
          · rename_i hrow
            obtain ⟨-, rfl⟩ := Prod.mk.inj (Except.ok.inj hinsert)
            simp only [tokens, (insert_eq_some hrow).1, List.map_append, ← hs]
            rfl
          · cases hinsert
        · cases hinsert
      · exact fun _ hs => hs
    · intro _
      apply triple_bind (Q := fun _ s => tokens s = before ++ [env.hmac token])
      · constructor
        intro s hs
        rw [emitAuditEvent_eq]
        split <;> exact hs
      · exact fun _ => triple_pure (fun _ hs => ⟨rfl, hs⟩)
  · exact fun _ => triple_fail (fun _ hs => hs)

def issued (past : List ((String × LinkFaults × Op) × Option String)) : List String := past.filterMap Prod.snd

theorem fromIssued_step {past : List ((String × LinkFaults × Op) × Option String)} (i : String × LinkFaults × Op)
    (hs : FromIssued env.hmac (issued past) s) :
    FromIssued env.hmac (issued (past ++ [(i, (step env s i).1)])) (step env s i).2 := by
  rw [fromIssued_iff] at hs ⊢
  have hmore : ∀ {s'}, tokens s' = tokens s → ∀ value ∈ tokens s',
      ∃ raw ∈ issued (past ++ [(i, (step env s i).1)]), value = env.hmac raw := by
    intro s' hsame value hvalue
    obtain ⟨raw, hraw, hhash⟩ := hs value (hsame ▸ hvalue)
    refine ⟨raw, ?_, hhash⟩
    rw [issued, List.filterMap_append]
    exact List.mem_append_left _ hraw
  obtain ⟨now, faults, op⟩ := i
  cases op with
  | showRun token => exact hmore ((leaves_httpGetSharedRun token).shows s)
  | showMetrics token query => exact hmore ((leaves_httpGetSharedMetrics token query).shows s)
  | revoke auth runId token => exact hmore ((leaves_httpRevokeShareToken auth runId token).shows s)
  | create auth runId expiresInDays token =>
      have hcreate := @triple_httpCreateShareToken { env with now } faults auth runId expiresInDays
        token (tokens s)
      rcases hrun : httpCreateShareToken { env with now } faults auth runId expiresInDays token s with
        ⟨e | response, s'⟩
      · have hsame := hcreate.of_error rfl hrun
        rw [step, hrun] at hmore ⊢
        exact hmore hsame
      · obtain ⟨rfl, hadded⟩ := hcreate.of_ok rfl hrun
        rw [step, hrun] at hmore ⊢
        intro value hvalue
        change value ∈ tokens s' at hvalue
        rw [hadded] at hvalue
        rcases List.mem_append.mp hvalue with hold | hnew
        · obtain ⟨raw, hraw, hhash⟩ := hs value hold
          refine ⟨raw, ?_, hhash⟩
          rw [issued, List.filterMap_append]
          exact List.mem_append_left _ hraw
        · obtain rfl := List.mem_singleton.mp hnew
          exact ⟨response.token, by simp [issued, Except.toOption], rfl⟩

theorem fromIssued_run (hs : FromIssued env.hmac [] s) (is : List (String × LinkFaults × Op)) :
    FromIssued env.hmac (issued (history (step env) s is)) (after (step env) s is) := by
  have h := invariant_history (G := fun _ _ _ => True) (fun past s => FromIssued env.hmac (issued past) s)
    (fun _ _ i hs _ => fromIssued_step i hs) [] s is hs (guarded_true _ _ _ _)
  simpa using h

theorem selects_stored {token : String} {row : ShareTokenRow} (h : Selects env token s row) :
    row ∈ s.shareTokens.rows ∧ (row.token = env.hmac token ∨ row.token = token) := by
  obtain ⟨hmem, hanswers⟩ := find_some h.found
  exact ⟨hmem, answers_iff.mp hanswers⟩

/-- The tokens that open a run are the issued ones just when the stored value of no
live link is presented. -/
theorem onlyIssued_iff {issued : List String} (hinj : Function.Injective env.hmac)
    (hapart : ∀ raw ∈ issued, ∀ value, env.hmac value ≠ raw) (hs : FromIssued env.hmac issued s)
      (token : String) :
    ((OpensRun env token s → token ∈ issued) ∧ (OpensMetrics env token s → token ∈ issued)) ↔
      ¬ (env.shareLinksEnabled = true ∧ ∃ row ∈ s.shareTokens.rows, row.token = token ∧ Live env.now row ∧
        (s.runs.db.findRun row.runId).isSome = true) := by
  rw [opensRun_iff, opensMetrics_iff, and_self]
  constructor
  · rintro h ⟨henabled, row, hrow, rfl, hlive, hleads⟩
    obtain ⟨raw, hraw, hhash⟩ := hs.hashed row hrow
    have hstored : row.token ∉ issued := fun hissued => hapart _ hissued raw hhash.symm
    have hanswers : row.answers (env.hmac row.token) (some row.token) = true := answers_iff.mpr (.inr rfl)
    cases hfind : s.shareTokens.find (ShareTokenRow.answers (env.hmac row.token) (some row.token)) with
    | none => exact absurd hanswers (by rw [find_none_iff.mp hfind row hrow]; exact Bool.false_ne_true)
    | some found =>
        obtain ⟨hfound, hmatch⟩ := find_some hfind
        obtain ⟨raw', hraw', hhash'⟩ := hs.hashed found hfound
        have htoken : found.token = row.token := by
          rcases answers_iff.mp hmatch with hkeyed | hplain
          · exact absurd (hinj (hhash'.symm.trans hkeyed) ▸ hraw') hstored
          · exact hplain
        have hsame : found = row := eq_of_mem (p := fun r => r.token == row.token)
          (fun a b ha hb => (beq_iff_eq.mp ha).trans (beq_iff_eq.mp hb).symm) hfound hrow (beq_iff_eq.mpr htoken)
          (beq_self_eq_true row.token)
        exact hstored (h ⟨found, henabled, hfind, hsame ▸ hlive, hsame ▸ hleads⟩)
  · rintro h ⟨row, hselects⟩
    obtain ⟨hrow, hkeyed | hplain⟩ := selects_stored hselects
    · obtain ⟨raw, hraw, hhash⟩ := hs.hashed row hrow
      exact hinj (hhash.symm.trans hkeyed) ▸ hraw
    · exact absurd ⟨hselects.enabled, row, hrow, hplain, hselects.live, hselects.leads⟩ h

def oneRun : LinkStore where
  runs := { MetadataStore.empty with
    db := { Database.empty with runs :=
      ⟨[⟨"run", "research", none, "running", none, none, 0, 0⟩], .cons (by simp) .nil⟩ } }
  apiKeys := .empty
  aliases := []
  shareTokens := .empty
  auditEvents := []

def linksOn : LinkEnv where
  shareLinksEnabled := true
  shareLinkMaxTtlDays := 1
  now := "2026-01-01 00:00:00"
  expiry _ := "2026-01-02 00:00:00"
  hmac token := "fp:" ++ token
  overflowChecks := false
  lists := RunListing.listEnv

def shared (token : String) : LinkStore :=
  after (step linksOn) oneRun [("2026-01-01 00:00:00", {}, .create (.devMode 0) "run" (some 1) token)]

theorem hmac_inj : Function.Injective linksOn.hmac := fun _ _ h => (String.append_right_inj _).mp h

theorem hmac_apart : ∀ raw ∈ ["secret"], ∀ value, linksOn.hmac value ≠ raw := by
  intro raw hraw value h
  obtain rfl := List.mem_singleton.mp hraw
  have hchars := congrArg String.toList h
  simp [linksOn] at hchars

theorem shared_fromIssued : FromIssued linksOn.hmac ["secret"] (shared "secret") := by
  have h : FromIssued linksOn.hmac [] oneRun := ⟨fun _ h => absurd h List.not_mem_nil⟩
  exact fromIssued_run h [("2026-01-01 00:00:00", {}, .create (.devMode 0) "run" (some 1) "secret")]

theorem onlyIssued_guess :
    (OpensRun linksOn "guess" (shared "secret") → "guess" ∈ ["secret"]) ∧
      (OpensMetrics linksOn "guess" (shared "secret") → "guess" ∈ ["secret"]) :=
  (onlyIssued_iff hmac_inj hmac_apart shared_fromIssued "guess").mpr (by
    rintro ⟨-, row, hrow, htoken, -⟩
    obtain rfl := List.mem_singleton.mp hrow
    exact absurd htoken (by decide))

theorem selects_stored_value : Selects linksOn "fp:secret" (shared "secret")
    ⟨"fp:secret", "run", some "dev", "2026-01-01 00:00:00", some "2026-01-02 00:00:00", none⟩ :=
  ⟨rfl, by decide +kernel, ⟨rfl, by decide⟩, rfl⟩

theorem stored_value_opens :
    Function.Injective linksOn.hmac ∧ (∀ raw ∈ ["secret"], ∀ value, linksOn.hmac value ≠ raw) ∧
      FromIssued linksOn.hmac ["secret"] (shared "secret") ∧ OpensRun linksOn "fp:secret" (shared "secret") ∧
      OpensMetrics linksOn "fp:secret" (shared "secret") ∧ "fp:secret" ∉ ["secret"] :=
  ⟨hmac_inj, hmac_apart, shared_fromIssued, opensRun_iff.mpr ⟨_, selects_stored_value⟩,
    opensMetrics_iff.mpr ⟨_, selects_stored_value⟩, by decide⟩

end MLRunX.ShareSafety
