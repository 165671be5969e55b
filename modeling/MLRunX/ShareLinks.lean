import MLRunX.AuditLog
import MLRunX.MetricQuery
import MLRunX.RunListing
import MLRunX.RunServer

namespace MLRunX.ShareLinks

open AuditLog Auth Commands Http Ingest KeyStore PayloadHash RunInit RunTables Runs Sqlite SqlArith Statements Tables

/-- The column `token` holds the fingerprint of a token, or in old rows the token itself. -/
structure ShareTokenRow where
  token : String
  runId : String
  createdByKeyPrefix : Option String
  createdAt : String
  expiresAt : Option String
  revokedAt : Option String
  deriving DecidableEq, Repr

def ShareTokenRow.clash (a b : ShareTokenRow) : Prop := a.token = b.token

instance : DecidableRel ShareTokenRow.clash := fun a b => by unfold ShareTokenRow.clash; infer_instance

theorem ShareTokenRow.clash_setWhere {p : ShareTokenRow → Bool} {g : ShareTokenRow → ShareTokenRow}
    (htoken : ∀ r, (g r).token = r.token) (a b : ShareTokenRow)
    (h : ShareTokenRow.clash (setWhere p g a) (setWhere p g b)) : ShareTokenRow.clash a b := by
  simpa only [ShareTokenRow.clash, setWhere_keeps ShareTokenRow.token htoken] using h

structure MetricAliasRow where
  projectId : String
  metricName : String
  displayName : String
  isActive : Bool
  deriving DecidableEq, Repr

/-- The tables that the handlers of share links read and write. -/
structure LinkStore where
  runs : MetadataStore
  apiKeys : ApiKeys
  aliases : List MetricAliasRow
  shareTokens : Table ShareTokenRow ShareTokenRow.clash
  auditEvents : List AuditEvent

def ledger : Ledger LinkStore where
  events s := s.auditEvents
  append event s := { s with auditEvents := s.auditEvents ++ [event] }
  hasUser s userId := (s.runs.ui.users.find (fun r => r.id == userId)).isSome
  hasKey s keyId := (s.apiKeys.find (fun r => r.id == keyId)).isSome
  hasProject s projectId := (s.runs.ui.projects.find (fun r => r.id == projectId)).isSome
  hasRun s runId := (s.runs.db.findRun runId).isSome

/-- What the handlers rely on: the policy from the environment, the clock of the
database, the time some days from now, and the keyed hash. -/
structure LinkEnv where
  shareLinksEnabled : Bool
  shareLinkMaxTtlDays : Int
  now : String
  expiry : Int → String
  hmac : String → String
  overflowChecks : Bool
  lists : RunListing.ListEnv

/-- The statements that the database refuses. -/
structure LinkFaults where
  getRun : Option String := none
  createToken : Option String := none
  selectToken : Option String := none
  clock : Option String := none
  tags : Option String := none
  metricNames : Option String := none
  metrics : Option String := none
  aliases : Option String := none
  revoke : Option String := none
  audit : Option String := none

def onRuns {ε α : Type} (x : Command MetadataStore ε α) : Command LinkStore ε α :=
  zoom LinkStore.runs (fun runs s => { s with runs }) x

def getRun (fault : Option String) (runId : String) : Command LinkStore SqliteError RunRow :=
  onRuns (RunInit.onDb (RunTables.getRun fault runId))

def doubleValue (x : F64) : ℚ :=
  let fraction : ℚ := (x &&& 0xFFFFFFFFFFFFF).toNat
  let exponent : ℤ := ((x >>> 52) &&& 0x7FF).toNat
  let magnitude := if exponent = 0 then fraction * 2 ^ (-1074 : ℤ) else (2 ^ 52 + fraction) * 2 ^ (exponent - 1075)
  if x >>> 63 = 1 then -magnitude else magnitude

theorem fits_toInt (step : Int64) : fitsInt64 step.toInt := ⟨step.le_toInt, step.toInt_lt⟩

def metricRows (s : LinkStore) : List MetricQuery.MetricRow :=
  s.runs.db.metrics.map (fun m => ⟨m.1, m.2.name, m.2.step.toInt, doubleValue m.2.value, fits_toInt m.2.step⟩)

def getMetricNames (fault : Option String) (runId : String) : Command LinkStore SqliteError (List String) :=
  query fault (fun s => MetricQuery.namesToQuery (metricRows s) runId [])

def getMetricAliasMap (fault : Option String) (projectId : String) :
    Command LinkStore SqliteError (List (String × String)) :=
  query fault (fun s => (s.aliases.filter (fun a => a.projectId == projectId && a.isActive)).map
    (fun a => (a.metricName, a.displayName)))

def createShareToken (fault : Option String) (tokenHash runId : String) (createdByKeyPrefix expiresAt : Option String)
    (createdAt : String) : Command LinkStore SqliteError Unit :=
  execute fault (fun s =>
    if ledger.hasRun s runId then
      match s.shareTokens.insert ⟨tokenHash, runId, createdByKeyPrefix, createdAt, expiresAt, none⟩ with
      | some shareTokens => .ok ((), { s with shareTokens })
      | none => .error (uniqueViolation "share_tokens.token")
    else .error (.database "FOREIGN KEY constraint failed"))

/-- The column is compared with the fingerprint, and with the token as it was presented. -/
def ShareTokenRow.answers (tokenHash : String) (legacyRawToken : Option String) (row : ShareTokenRow) : Bool :=
  row.token == tokenHash || legacyRawToken == some row.token

theorem answers_iff {tokenHash token : String} {row : ShareTokenRow} :
    row.answers tokenHash (some token) = true ↔ row.token = tokenHash ∨ row.token = token := by
  simp [ShareTokenRow.answers, eq_comm (a := token)]

section Validation

variable (env : LinkEnv) (faults : LinkFaults)

def validateShareToken (tokenHash : String) (legacyRawToken : Option String) :
    Command LinkStore SqliteError ShareTokenRow := do
  let found ← query faults.selectToken (fun s => s.shareTokens.find (ShareTokenRow.answers tokenHash legacyRawToken))
  match found with
  | none => fail (.notFound "Invalid or expired share link.")
  | some row =>
      if row.revokedAt.isSome then fail (.notFound "This share link has been revoked.")
      else match row.expiresAt with
        | none => pure row
        | some expires => do
            let now ← query faults.clock (fun _ => env.now)
            if expires < now then fail (.notFound "This share link has expired.") else pure row

def revokeShareToken (tokenHash : String) (legacyRawToken : Option String) : Command LinkStore SqliteError Unit := do
  let revoked := fun row : ShareTokenRow => row.answers tokenHash legacyRawToken && row.revokedAt.isNone
  let changes ← execute faults.revoke (fun s => .ok ((s.shareTokens.select revoked).length, { s with
    shareTokens := s.shareTokens.update (setWhere revoked (fun r => { r with revokedAt := some env.now }))
      (ShareTokenRow.clash_setWhere (fun _ => rfl)) }))
  if changes = 0 then fail (.notFound "Share token not found or already revoked.") else pure ()

def resolveShareExpiry (expiresInDays : Option Int) : Answer String :=
  match expiresInDays with
  | none => .error ⟨.badRequest, "expires_in_days is required for share links."⟩
  | some days =>
      if days ≤ 0 then .error ⟨.badRequest, "expires_in_days must be greater than zero."⟩
      else if env.shareLinkMaxTtlDays < days then
        .error ⟨.badRequest, s!"expires_in_days exceeds policy maximum of {env.shareLinkMaxTtlDays} days."⟩
      else .ok (env.expiry days)

def shareTokenHash (token : String) : String := env.hmac token

def shareTokenResourceId (tokenHash : String) : String := "share_token:" ++ String.ofList (tokenHash.toList.take 16)

structure CreateShareResponse where
  token : String
  shareUrl : String
  runId : String
  expiresAt : Option String
  deriving DecidableEq, Repr

def httpCreateShareToken (auth : AuthContext) (runId : String) (expiresInDays : Option Int) (token : String) :
    Command LinkStore HttpError CreateShareResponse :=
  if env.shareLinksEnabled then do
    ofExcept (RunServer.validatePathId runId "run_id")
    let run ← mapError runError (getRun faults.getRun runId)
    requireEndpointAccess ledger faults.audit env.lists.flags auth .read (some run.projectId) (some runId)
      "share_token.create" "run" (some runId)
    ofExcept (requireUiRunOwner auth run)
    ofExcept (requireApiKeyRunOwnerForMutation auth run "share")
    let tokenHash := shareTokenHash env token
    let expiresAt ← ofExcept (resolveShareExpiry env expiresInDays)
    mapError (fun _ => internalError)
      (createShareToken faults.createToken tokenHash runId (some auth.apiKey.keyPrefix) (some expiresAt) env.now)
    emitAuditEvent ledger faults.audit (auditEvent (some auth) (some run.projectId) (some runId)
      "share_token.create" "share_token" (some (shareTokenResourceId tokenHash)) "success")
    pure ⟨token, s!"/api/v1/shared/{token}", runId, some expiresAt⟩
  else fail ⟨.forbidden, "Run share links are disabled by server policy."⟩

structure SharedRunResponse where
  runId : String
  projectId : String
  name : Option String
  status : String
  metricsCount : Nat
  paramsCount : Nat
  tags : List (String × String)
  createdAt : String
  updatedAt : String
  durationSeconds : Option ℚ
  availableMetrics : List String

def httpGetSharedRun (token : String) : Command LinkStore HttpError SharedRunResponse :=
  if env.shareLinksEnabled then do
    let share ← mapError runError (validateShareToken env faults (shareTokenHash env token) (some token))
    let run ← mapError (fun _ => internalError) (getRun faults.getRun share.runId)
    let times ← mapError (fun _ : SqliteError => internalError) (query none (fun s => s.runs.times share.runId))
    let tags ← attempt (onRuns (RunListing.getTags faults.tags share.runId))
    let availableMetrics ← attempt (getMetricNames faults.metricNames share.runId)
    pure ⟨run.id, run.projectId, run.name, run.status, run.metricsCount.toNat, run.paramsCount.toNat, tags.getD [],
      times.createdAt, times.updatedAt, RunListing.durationSeconds env.lists times, availableMetrics.getD []⟩
  else fail ⟨.notFound, "Not found"⟩

structure MetricsQuery where
  names : String := ""
  maxPoints : UInt64 := 1000
  startStep : Option Int64 := none
  endStep : Option Int64 := none
  deriving DecidableEq

structure MetricsQueryResponse where
  runId : String
  series : List MetricQuery.MetricSeriesRow
  availableMetrics : List String
  metricAliases : List (String × String)

def MetricsQuery.nameList (q : MetricsQuery) : List String :=
  if q.names.isEmpty then [] else (Text.split ',' q.names).map Text.trim

def queryFailure : MetricQuery.QueryFailure → Failure
  | .sqlite _ => .http internalError
  | .overflow => .panic

def getMetrics (runId : String) (q : MetricsQuery) : Command LinkStore Failure (List MetricQuery.MetricSeriesRow) := do
  let rows ← mapError (fun _ : SqliteError => .http internalError) (query faults.metrics metricRows)
  mapError queryFailure (ofExcept (MetricQuery.getMetrics env.overflowChecks rows runId q.nameList q.maxPoints
    (q.startStep.map Int64.toInt) (q.endStep.map Int64.toInt)))

def httpGetSharedMetrics (token : String) (q : MetricsQuery) : Command LinkStore Failure MetricsQueryResponse :=
  if env.shareLinksEnabled then do
    let share ← mapError (fun e => .http (runError e))
      (validateShareToken env faults (shareTokenHash env token) (some token))
    let run ← mapError (fun _ => .http internalError) (getRun faults.getRun share.runId)
    let series ← getMetrics env faults share.runId q
    let availableMetrics ← attempt (getMetricNames faults.metricNames share.runId)
    let metricAliases ← attempt (getMetricAliasMap faults.aliases run.projectId)
    pure ⟨share.runId, series, availableMetrics.getD [], metricAliases.getD []⟩
  else fail (.http ⟨.notFound, "Not found"⟩)

/-- The run decides whether the caller is let in, the token alone which row is revoked. -/
def httpRevokeShareToken (auth : AuthContext) (runId token : String) : Command LinkStore HttpError String := do
  let tokenHash := shareTokenHash env token
  let tokenResourceId := shareTokenResourceId tokenHash
  let run ← mapError runError (getRun faults.getRun runId)
  requireEndpointAccess ledger faults.audit env.lists.flags auth .read (some run.projectId) (some runId)
    "share_token.revoke" "share_token" (some tokenResourceId)
  ofExcept (requireUiRunOwner auth run)
  ofExcept (requireApiKeyRunOwnerForMutation auth run "revoke share links for")
  mapError runError (revokeShareToken env faults tokenHash (some token))
  emitAuditEvent ledger faults.audit (auditEvent (some auth) (some run.projectId) (some runId)
    "share_token.revoke" "share_token" (some tokenResourceId) "success")
  pure tokenResourceId

end Validation

end MLRunX.ShareLinks
