import MLRunX.ShareLifetimes

namespace MLRunX.SharedViews

open AuditLog Auth Commands Http Ingest PayloadHash RunInit RunTables ShareLifetimes ShareLinks ShareSafety Sqlite
open Statements Tables

structure MetricSummaryResponse where
  name : String
  lastValue : F64
  lastStep : Int64
  deriving DecidableEq

structure RunDetailResponse where
  runId : String
  projectId : String
  name : Option String
  status : String
  metricsCount : Nat
  paramsCount : Nat
  tags : List (String × String)
  createdAt : String
  updatedAt : String
  durationSeconds : Option ℚ
  metricsSummary : List MetricSummaryResponse

section Handlers

variable (env : LinkEnv) (faults : LinkFaults) (auth : AuthContext) (runId : String)

def httpGetRun : Command LinkStore HttpError RunDetailResponse := do
  ofExcept (RunServer.validatePathId runId "run_id")
  let run ← mapError runError (getRun faults.getRun runId)
  requireEndpointAccess ledger faults.audit env.lists.flags auth .read (some run.projectId) (some runId)
    "run.read" "run" (some runId)
  ofExcept (requireUiRunOwner auth run)
  let times ← mapError (fun _ : SqliteError => internalError) (query none (fun s => s.runs.times runId))
  let tags ← attempt (onRuns (RunListing.getTags faults.tags runId))
  pure ⟨run.id, run.projectId, run.name, run.status, run.metricsCount.toNat, run.paramsCount.toNat, tags.getD [],
    times.createdAt, times.updatedAt, RunListing.durationSeconds env.lists times, []⟩

/-- A run that cannot be read counts as missing. -/
def httpGetMetrics (q : MetricsQuery) : Command LinkStore Failure MetricsQueryResponse := do
  mapError .http (ofExcept (RunServer.validatePathId runId "run_id"))
  let run ← mapError (fun _ => .http ⟨.notFound, s!"Run not found: {runId}"⟩) (getRun faults.getRun runId)
  mapError .http (requireEndpointAccess ledger faults.audit env.lists.flags auth .read (some run.projectId) (some runId)
    "run.metrics.read" "run" (some runId))
  mapError .http (ofExcept (requireUiRunOwner auth run))
  let series ← getMetrics env faults runId q
  let availableMetrics ← attempt (getMetricNames faults.metricNames runId)
  let metricAliases ← attempt (getMetricAliasMap faults.aliases run.projectId)
  pure ⟨runId, series, availableMetrics.getD [], metricAliases.getD []⟩

end Handlers

/-- What the tables hold of one run. -/
structure RunView where
  run : RunRow
  times : RunTimes
  tags : List (String × String)
  metrics : List MetricQuery.MetricRow
  aliases : List (String × String)

def viewOf (s : LinkStore) (run : RunRow) : RunView where
  run := run
  times := s.runs.times run.id
  tags := RunListing.metadataOf s.runs.db run.id .tags
  metrics := (metricRows s).filter (fun r => r.runId == run.id)
  aliases := (s.aliases.filter (fun a => a.projectId == run.projectId && a.isActive)).map
    (fun a => (a.metricName, a.displayName))

def unlessRefused {α : Type} (fault : Option String) (as : List α) : List α := if fault.isNone then as else []

section Views

variable (env : LinkEnv) (faults : LinkFaults) (view : RunView)

def RunView.detail : RunDetailResponse :=
  ⟨view.run.id, view.run.projectId, view.run.name, view.run.status, view.run.metricsCount.toNat,
    view.run.paramsCount.toNat, unlessRefused faults.tags view.tags, view.times.createdAt, view.times.updatedAt,
    RunListing.durationSeconds env.lists view.times, []⟩

def RunView.names : List String :=
  unlessRefused faults.metricNames (MetricQuery.namesToQuery view.metrics view.run.id [])

def RunView.shared : SharedRunResponse :=
  ⟨view.run.id, view.run.projectId, view.run.name, view.run.status, view.run.metricsCount.toNat,
    view.run.paramsCount.toNat, unlessRefused faults.tags view.tags, view.times.createdAt, view.times.updatedAt,
    RunListing.durationSeconds env.lists view.times, view.names faults⟩

def RunView.series (q : MetricsQuery) : Except Failure MetricsQueryResponse :=
  if faults.metrics.isSome then .error (.http internalError)
  else ((MetricQuery.getMetrics env.overflowChecks view.metrics view.run.id q.nameList q.maxPoints
    (q.startStep.map Int64.toInt) (q.endStep.map Int64.toInt)).mapError queryFailure).map
      (fun series => ⟨view.run.id, series, view.names faults, unlessRefused faults.aliases view.aliases⟩)

end Views

/-! A query of the metrics of a run reads the rows of that run. -/

section Rows

variable {rows : List MetricQuery.MetricRow} {runId : String}

theorem selectRows_ofRun (startStep endStep : Option ℤ) (name : String) :
    MetricQuery.selectRows (rows.filter (fun r => r.runId == runId)) runId startStep endStep name =
      MetricQuery.selectRows rows runId startStep endStep name := by
  rw [MetricQuery.selectRows, List.filter_filter, MetricQuery.selectRows]
  congr 1
  funext r
  cases r.runId == runId <;> simp

theorem namesToQuery_ofRun (names : List String) :
    MetricQuery.namesToQuery (rows.filter (fun r => r.runId == runId)) runId names =
      MetricQuery.namesToQuery rows runId names := by
  simp only [MetricQuery.namesToQuery, List.filter_filter, Bool.and_self]

theorem getMetrics_ofRun (overflowChecks : Bool) (names : List String) (maxPoints : UInt64)
    (startStep endStep : Option ℤ) :
    MetricQuery.getMetrics overflowChecks
      (rows.filter (fun r => r.runId == runId)) runId names maxPoints startStep endStep =
      MetricQuery.getMetrics overflowChecks rows runId names maxPoints startStep endStep := by
  rw [MetricQuery.getMetrics, namesToQuery_ofRun, MetricQuery.getMetrics]
  congr 1
  funext name
  rw [MetricQuery.getSeries, selectRows_ofRun, MetricQuery.getSeries]

end Rows

/-- The statements that decide whether anything is shown are answered. -/
structure Answering (faults : LinkFaults) : Prop where
  selectToken : faults.selectToken = none
  clock : faults.clock = none
  getRun : faults.getRun = none

structure MayRead (env : LinkEnv) (auth : AuthContext) (run : RunRow) : Prop where
  path : RunServer.validatePathId run.id "run_id" = .ok ()
  access : Auth.requireEndpointAccess auth env.lists.flags .read (some run.projectId) = .ok ()
  owner : requireUiRunOwner auth run = .ok ()

section Shown

variable {env : LinkEnv} {faults : LinkFaults} {auth : AuthContext} {token runId : String} {s : LinkStore}
    {run : RunRow}

theorem names_view : (viewOf s run).names faults =
    unlessRefused faults.metricNames (MetricQuery.namesToQuery (metricRows s) run.id []) := by
  rw [RunView.names, viewOf, namesToQuery_ofRun]

theorem attempt_query {ε α : Type} (fault : Option String) (f : LinkStore → List α) (s : LinkStore) :
    ∃ found, (attempt (query fault f) : Command LinkStore ε _) s = (.ok found, s) ∧
      found.getD [] = unlessRefused fault (f s) := by
  cases fault with
  | none => exact ⟨some (f s), rfl, rfl⟩
  | some text => exact ⟨none, rfl, rfl⟩

theorem attempt_getMetricNames {ε : Type} (faults : LinkFaults) (run : RunRow) (s : LinkStore) :
    ∃ found, (attempt (getMetricNames faults.metricNames run.id) : Command LinkStore ε _) s = (.ok found, s) ∧
      found.getD [] = (viewOf s run).names faults := by
  rw [names_view]
  exact attempt_query _ _ s

theorem attempt_getMetricAliasMap {ε : Type} (faults : LinkFaults) (run : RunRow) (s : LinkStore) :
    ∃ found, (attempt (getMetricAliasMap faults.aliases run.projectId) : Command LinkStore ε _) s =
      (.ok found, s) ∧
      found.getD [] = unlessRefused faults.aliases (viewOf s run).aliases :=
  attempt_query _ _ s

theorem attempt_getTags {ε : Type} (fault : Option String) (runId : String) (s : LinkStore) :
    ∃ found, (attempt (onRuns (RunListing.getTags fault runId)) : Command LinkStore ε _) s = (.ok found, s) ∧
      found.getD [] = unlessRefused fault (RunListing.metadataOf s.runs.db runId .tags) := by
  cases fault with
  | none => exact ⟨some _, rfl, rfl⟩
  | some text => exact ⟨none, rfl, rfl⟩

/-- What both handlers do once they have found the run. -/
def answerMetrics (env : LinkEnv) (faults : LinkFaults) (run : RunRow) (q : MetricsQuery) :
    Command LinkStore Failure MetricsQueryResponse := do
  let series ← getMetrics env faults run.id q
  let availableMetrics ← attempt (getMetricNames faults.metricNames run.id)
  let metricAliases ← attempt (getMetricAliasMap faults.aliases run.projectId)
  pure ⟨run.id, series, availableMetrics.getD [], metricAliases.getD []⟩

theorem answerMetrics_view (q : MetricsQuery) :
    answerMetrics env faults run q s = ((viewOf s run).series env faults q, s) := by
  have hrows : (mapError (fun _ : SqliteError => Failure.http internalError) (query faults.metrics metricRows)) s =
      (if faults.metrics.isSome then .error (.http internalError) else .ok (metricRows s), s) := by
    cases faults.metrics <;> rfl
  rw [RunView.series]
  split
  · rename_i hfault
    rw [if_pos hfault] at hrows
    exact bind_error (bind_error hrows)
  · rename_i hfault
    rw [if_neg hfault] at hrows
    have hmetrics : getMetrics env faults run.id q s =
        ((MetricQuery.getMetrics env.overflowChecks (viewOf s run).metrics
        run.id q.nameList q.maxPoints (q.startStep.map Int64.toInt) (q.endStep.map Int64.toInt)).mapError
          queryFailure, s) := by
      rw [viewOf, getMetrics_ofRun]
      exact bind_ok hrows
    change _ = (((MetricQuery.getMetrics env.overflowChecks (viewOf s run).metrics run.id q.nameList q.maxPoints
      (q.startStep.map Int64.toInt) (q.endStep.map Int64.toInt)).mapError queryFailure).map _, s)
    generalize (MetricQuery.getMetrics env.overflowChecks (viewOf s run).metrics run.id q.nameList q.maxPoints
      (q.startStep.map Int64.toInt) (q.endStep.map Int64.toInt)).mapError queryFailure = answer at hmetrics ⊢
    cases answer with
    | error e => exact bind_error hmetrics
    | ok series =>
        obtain ⟨names, hnames, hnameList⟩ := attempt_getMetricNames faults run s
        obtain ⟨aliases, haliases, haliasList⟩ := attempt_getMetricAliasMap faults run s
        rw [answerMetrics, bind_ok hmetrics, bind_ok hnames, bind_ok haliases, hnameList, haliasList]
        rfl

theorem validateShareToken_selects {row : ShareTokenRow} (hfaults : Answering faults) (h : Selects env token s row) :
    validateShareToken env faults (shareTokenHash env token) (some token) s = (.ok row, s) := by
  have hsame : validateShareToken env faults (shareTokenHash env token) (some token) =
      validateShareToken env {} (env.hmac token) (some token) := by
    simp only [validateShareToken, hfaults.selectToken, hfaults.clock, shareTokenHash]
  rw [hsame]
  exact validateShareToken_live h.found h.live

theorem getRun_stored (hfaults : Answering faults) (hrun : s.runs.db.findRun run.id = some run) :
    getRun faults.getRun run.id s = (.ok run, s) := by
  rw [hfaults.getRun]
  exact getRun_found hrun

theorem httpGetSharedRun_view {row : ShareTokenRow} (hfaults : Answering faults) (h : Selects env token s row)
    (hid : row.runId = run.id) (hrun : s.runs.db.findRun run.id = some run) :
    httpGetSharedRun env faults token s = (.ok ((viewOf s run).shared env faults), s) := by
  obtain ⟨tags, htags, htagList⟩ := attempt_getTags faults.tags run.id s
  obtain ⟨names, hnames, hnameList⟩ := attempt_getMetricNames faults run s
  rw [httpGetSharedRun, if_pos h.enabled, bind_ok (mapError_ok (validateShareToken_selects hfaults h)), hid,
    bind_ok (mapError_ok (getRun_stored hfaults hrun)), bind_ok (mapError_ok (query_ok rfl)), bind_ok htags,
    bind_ok hnames, htagList, hnameList]
  rfl

theorem httpGetSharedMetrics_view {row : ShareTokenRow} (hfaults : Answering faults) (h : Selects env token s row)
    (hid : row.runId = run.id) (hrun : s.runs.db.findRun run.id = some run) (q : MetricsQuery) :
    httpGetSharedMetrics env faults token q s = ((viewOf s run).series env faults q, s) := by
  rw [httpGetSharedMetrics, if_pos h.enabled, bind_ok (mapError_ok (validateShareToken_selects hfaults h)), hid,
    bind_ok (mapError_ok (getRun_stored hfaults hrun))]
  exact answerMetrics_view q

theorem httpGetRun_view (hfaults : Answering faults) (h : MayRead env auth run)
    (hrun : s.runs.db.findRun run.id = some run) :
    httpGetRun env faults auth run.id s = (.ok ((viewOf s run).detail env faults), s) := by
  obtain ⟨tags, htags, htagList⟩ := attempt_getTags faults.tags run.id s
  rw [httpGetRun, bind_ofExcept_ok h.path, bind_ok (mapError_ok (getRun_stored hfaults hrun)),
    bind_ok (requireEndpointAccess_eq h.access s), bind_ofExcept_ok h.owner, bind_ok (mapError_ok (query_ok rfl)),
    bind_ok htags, htagList]
  rfl

theorem httpGetMetrics_view (hfaults : Answering faults) (h : MayRead env auth run)
    (hrun : s.runs.db.findRun run.id = some run) (q : MetricsQuery) :
    httpGetMetrics env faults auth run.id q s = ((viewOf s run).series env faults q, s) := by
  rw [httpGetMetrics, bind_ok (mapError_ok (ofExcept_ok h.path s)), bind_ok (mapError_ok (getRun_stored hfaults hrun)),
    bind_ok (mapError_ok (requireEndpointAccess_eq h.access s)), bind_ok (mapError_ok (ofExcept_ok h.owner s))]
  exact answerMetrics_view q

end Shown

/-- A token that shows a run shows what the tables hold of that run and of no other, and shows it as
the handlers for those who may read the run do. -/
theorem shows_view {env : LinkEnv} {faults : LinkFaults} {token runId : String} {s : LinkStore}
    (hshows : ShowsRun env token runId s) (hfaults : Answering faults) :
    ∃ run, s.runs.db.findRun runId = some run ∧
      httpGetSharedRun env faults token s = (.ok ((viewOf s run).shared env faults), s) ∧
      (∀ q, httpGetSharedMetrics env faults token q s = ((viewOf s run).series env faults q, s)) ∧
      ∀ auth, MayRead env auth run →
        httpGetRun env faults auth runId s = (.ok ((viewOf s run).detail env faults), s) ∧
        ∀ q, httpGetMetrics env faults auth runId q s = ((viewOf s run).series env faults q, s) := by
  obtain ⟨row, hselects, rfl⟩ := showsRun_iff.mp hshows
  obtain ⟨run, hrun⟩ := Option.isSome_iff_exists.mp hselects.leads
  have hid : row.runId = run.id := (beq_iff_eq.mp (find_some hrun).2).symm
  rw [hid] at hrun ⊢
  exact ⟨run, hrun, httpGetSharedRun_view hfaults hselects hid hrun,
    httpGetSharedMetrics_view hfaults hselects hid hrun, fun auth hauth =>
      ⟨httpGetRun_view hfaults hauth hrun, httpGetMetrics_view hfaults hauth hrun⟩⟩

theorem showsRun_secret : ShowsRun linksOn "secret" "run" (shared "secret") :=
  showsRun_iff.mpr ⟨⟨"fp:secret", "run", some "dev", "2026-01-01 00:00:00", some "2026-01-02 00:00:00", none⟩,
    ⟨rfl, by decide +kernel, ⟨rfl, by decide⟩, rfl⟩, rfl⟩

theorem shows_view_secret : ∃ run, (shared "secret").runs.db.findRun "run" = some run ∧
    httpGetSharedRun linksOn {} "secret" (shared "secret") =
      (.ok ((viewOf (shared "secret") run).shared linksOn {}), shared "secret") ∧
    (∀ q, httpGetSharedMetrics linksOn {} "secret" q (shared "secret") =
      ((viewOf (shared "secret") run).series linksOn {} q, shared "secret")) ∧
    ∀ auth, MayRead linksOn auth run →
      httpGetRun linksOn {} auth "run" (shared "secret") =
        (.ok ((viewOf (shared "secret") run).detail linksOn {}), shared "secret") ∧
      ∀ q, httpGetMetrics linksOn {} auth "run" q (shared "secret") =
        ((viewOf (shared "secret") run).series linksOn {} q, shared "secret") :=
  shows_view showsRun_secret ⟨rfl, rfl, rfl⟩

end MLRunX.SharedViews
