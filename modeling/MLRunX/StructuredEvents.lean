import MLRunX.Ingest
import MLRunX.JsonValues
import MLRunX.Paging
import MLRunX.UiRequests

namespace MLRunX.StructuredEvents

open Auth Http Ingest JsonValues Paging PayloadHash RunTables Sqlite Tables Text UiRequests

structure RunEventRow where
  id : Int
  runId : String
  level : String
  source : String
  message : String
  step : Option Int64
  timestamp : Option F64
  createdAt : String
  deriving DecidableEq, Repr

/-- The events of all runs. Ids are handed out in ascending order. -/
structure EventLog where
  rows : List RunEventRow
  ascending : rows.Pairwise (fun a b => a.id < b.id)

structure EventStore where
  runs : Table RunRow RunRow.clash
  events : EventLog

structure StructuredEnvelope where
  kind : String
  payload : Json
  truncated : Bool

/-- The flags of the access check, and the library that reads JSON. -/
structure EventEnv where
  flags : EndpointRbacTier → Bool
  fromStr : String → Option StructuredEnvelope

structure ReadFaults where
  getRun : Option String := none
  listEvents : Option String := none

structure StructuredRunLogsQuery where
  afterId : Option Int
  limit : Nat := 200
  names : Option String

structure RunChartLogResponse where
  id : Int
  runId : String
  name : String
  chartType : String
  rendererHint : Option String
  data : Json
  layout : Json
  options : Json
  metadata : Json
  step : Option Int64
  timestamp : Option F64
  createdAt : String

structure RunImageLogResponse where
  id : Int
  runId : String
  name : String
  path : String
  caption : Option String
  metadata : Json
  step : Option Int64
  timestamp : Option F64
  createdAt : String

structure ListRunChartsResponse where
  runId : String
  charts : List RunChartLogResponse
  nextAfterId : Option Int
  hasMore : Bool

structure ListRunImagesResponse where
  runId : String
  images : List RunImageLogResponse
  nextAfterId : Option Int
  hasMore : Bool

def clamp (low high n : Nat) : Nat := max low (min n high)

def parseNameFilter (raw : Option String) : List String :=
  (raw.map (fun value => ((split ',' value).map trim).filter (fun entry => entry ≠ ""))).getD []

def listRunEvents (fault : Option String) (runId : String) (afterId : Option Int) (limit : Nat) (s : EventStore) :
    Sql (List RunEventRow) :=
  statement fault (.ok ((s.events.rows.filter (fun row =>
    row.runId == runId && afterId.all (fun after => decide (after < row.id)))).take (clamp 1 1000 limit)))

variable (env : EventEnv)

def parseStructuredPayloadForKind (message expectedKind : String) : Option Json := do
  let envelope ← env.fromStr message
  if envelope.kind == expectedKind && !envelope.truncated then some envelope.payload else none

def chartLogFromEventRow (row : RunEventRow) : Option RunChartLogResponse := do
  let payload ← parseStructuredPayloadForKind env row.message "chart"
  let object ← payload.asObject
  let name ← textAt object "name"
  pure {
    name
    id := row.id
    runId := row.runId
    chartType := (textAt object "chart_type").getD "custom"
    rendererHint := textAt object "renderer_hint"
    data := valueAt object "data"
    layout := valueAt object "layout"
    options := valueAt object "options"
    metadata := valueAt object "metadata"
    step := row.step
    timestamp := row.timestamp
    createdAt := row.createdAt }

def imageLogFromEventRow (row : RunEventRow) : Option RunImageLogResponse := do
  let payload ← parseStructuredPayloadForKind env row.message "image"
  let object ← payload.asObject
  let name ← textAt object "name"
  let path ← ((object.lookup "path").orElse (fun _ => object.lookup "uri")).bind Json.asStr
  pure {
    name, path
    id := row.id
    runId := row.runId
    caption := textAt object "caption"
    metadata := valueAt object "metadata"
    step := row.step
    timestamp := row.timestamp
    createdAt := row.createdAt }

variable (auth : AuthContext) (runId : String)

def openRun (fault : Option String) (s : EventStore) : Answer RunRow := do
  validatePathId runId "run_id"
  match statement fault (.ok (s.runs.find (fun r => r.id == runId))) with
  | .ok (some run) => do
      requireEndpointAccess auth env.flags .read (some run.projectId)
      requireUiRunOwner auth run
      pure run
  | _ => .error ⟨.notFound, s!"Run not found: {runId}"⟩

/-- What the two handlers share: the logs of one kind in a window of events. A
limit of at most 200 is multiplied without overflow. -/
def structuredLogs {τ : Type} (log : RunEventRow → Option τ) (name : τ → String) (id : τ → Int)
    (query : StructuredRunLogsQuery) (faults : ReadFaults) (s : EventStore) : Answer (Page τ) := do
  let _ ← openRun env auth runId faults.getRun s
  let limit := clamp 1 200 query.limit
  let names := parseNameFilter query.names
  match listRunEvents faults.listEvents runId query.afterId (clamp 20 1000 (limit * 10)) s with
  | .error _ => .error internalError
  | .ok rows =>
      let logs := (rows.filterMap log).filter (fun l => names.isEmpty || names.contains (name l))
      let hasMore := decide (limit < logs.length)
      let page := if hasMore then logs.take limit else logs
      .ok ⟨page, (page.getLast?.map id).or query.afterId, hasMore⟩

def httpGetRunCharts (query : StructuredRunLogsQuery) (faults : ReadFaults) (s : EventStore) :
    Answer ListRunChartsResponse := do
  let page ← structuredLogs env auth runId (chartLogFromEventRow env) RunChartLogResponse.name RunChartLogResponse.id
    query faults s
  pure ⟨runId, page.items, page.next, page.hasMore⟩

def httpGetRunImages (query : StructuredRunLogsQuery) (faults : ReadFaults) (s : EventStore) :
    Answer ListRunImagesResponse := do
  let page ← structuredLogs env auth runId (imageLogFromEventRow env) RunImageLogResponse.name RunImageLogResponse.id
    query faults s
  pure ⟨runId, page.items, page.next, page.hasMore⟩

/-- The page behind a cursor as a client sees it. -/
def chartPage (limit : Nat) (names : Option String) (s : EventStore) (cursor : Option Int) : Page RunChartLogResponse :=
  match httpGetRunCharts env auth runId ⟨cursor, limit, names⟩ {} s with
  | .ok response => ⟨response.charts, response.nextAfterId, response.hasMore⟩
  | .error _ => ⟨[], none, false⟩

def imagePage (limit : Nat) (names : Option String) (s : EventStore) (cursor : Option Int) : Page RunImageLogResponse :=
  match httpGetRunImages env auth runId ⟨cursor, limit, names⟩ {} s with
  | .ok response => ⟨response.images, response.nextAfterId, response.hasMore⟩
  | .error _ => ⟨[], none, false⟩

def eventsOf (s : EventStore) : List RunEventRow := s.events.rows.filter (fun row => row.runId == runId)

/-- The log of an event, if its name passes the filter. -/
def selected {τ : Type} (names : Option String) (log : RunEventRow → Option τ) (name : τ → String)
    (row : RunEventRow) : Option τ :=
  (log row).filter (fun l => (parseNameFilter names).isEmpty || (parseNameFilter names).contains (name l))

def selectedChart (names : Option String) : RunEventRow → Option RunChartLogResponse :=
  selected names (chartLogFromEventRow env) RunChartLogResponse.name

def selectedImage (names : Option String) : RunEventRow → Option RunImageLogResponse :=
  selected names (imageLogFromEventRow env) RunImageLogResponse.name

def pageLimit (limit : Nat) : Nat := clamp 1 200 limit

def pageWindow (limit : Nat) : Nat := clamp 20 1000 (pageLimit limit * 10)

theorem clamp_bounds {low high : Nat} (h : low ≤ high) (n : Nat) :
    low ≤ clamp low high n ∧ clamp low high n ≤ high :=
  ⟨Nat.le_max_left _ _, Nat.max_le.mpr ⟨h, Nat.min_le_right _ _⟩⟩

theorem clamp_self {low high n : Nat} (hlow : low ≤ n) (hhigh : n ≤ high) : clamp low high n = n := by
  rw [clamp, Nat.min_eq_left hhigh, Nat.max_eq_right hlow]

theorem pageLimit_pos (limit : Nat) : 0 < pageLimit limit := (clamp_bounds (by decide) limit).1

variable {env auth runId} {s : EventStore}

theorem listRunEvents_window (limit : Nat) (cursor : Option Int) :
    listRunEvents none runId cursor (pageWindow limit) s =
      .ok ((behind RunEventRow.id cursor (eventsOf runId s)).take (pageWindow limit)) := by
  have hsafe : clamp 1 1000 (pageWindow limit) = pageWindow limit := by
    have hwindow : 20 ≤ pageWindow limit ∧ pageWindow limit ≤ 1000 := clamp_bounds (by decide) _
    exact clamp_self (Nat.le_trans (by decide) hwindow.1) hwindow.2
  rw [listRunEvents, hsafe, statement_none, behind, eventsOf, List.filter_filter]
  congr 3
  funext row
  exact Bool.and_comm _ _

theorem structuredLogs_eq {τ : Type} {run : RunRow} (hopen : openRun env auth runId none s = .ok run)
    (log : RunEventRow → Option τ) (name : τ → String) (id : τ → Int) (limit : Nat) (names : Option String)
    (cursor : Option Int) :
    structuredLogs env auth runId log name id ⟨cursor, limit, names⟩ {} s =
      .ok (windowPage RunEventRow.id (selected names log name) id (pageLimit limit) (pageWindow limit)
        (eventsOf runId s) cursor) := by
  have hlist : listRunEvents none runId cursor (clamp 20 1000 (clamp 1 200 limit * 10)) s = _ :=
    listRunEvents_window limit cursor
  have hlogs (rows : List RunEventRow) : (rows.filterMap log).filter
      (fun l => (parseNameFilter names).isEmpty || (parseNameFilter names).contains (name l)) =
        rows.filterMap (selected names log name) := List.filter_filterMap
  have hpage (logs : List τ) :
      (if decide (pageLimit limit < logs.length) = true then logs.take (pageLimit limit) else logs) =
        logs.take (pageLimit limit) := by
    split
    · rfl
    · rename_i hmore
      exact (List.take_of_length_le (by simpa using hmore)).symm
  simp only [structuredLogs, hopen, bind, Except.bind, hlist, hlogs]
  exact congrArg _ (by rw [windowPage, ← hpage]; rfl)

theorem selectedChart_id (env : EventEnv) (names : Option String) (row : RunEventRow) (chart : RunChartLogResponse)
    (h : selectedChart env names row = some chart) : chart.id = row.id := by
  obtain ⟨hlog, -⟩ := Option.filter_eq_some_iff.mp h
  obtain ⟨_, _, hlog⟩ := Option.bind_eq_some_iff.mp hlog
  obtain ⟨_, _, hlog⟩ := Option.bind_eq_some_iff.mp hlog
  obtain ⟨_, _, hlog⟩ := Option.bind_eq_some_iff.mp hlog
  obtain rfl := Option.some.inj hlog
  rfl

theorem selectedImage_id (env : EventEnv) (names : Option String) (row : RunEventRow) (image : RunImageLogResponse)
    (h : selectedImage env names row = some image) : image.id = row.id := by
  obtain ⟨hlog, -⟩ := Option.filter_eq_some_iff.mp h
  obtain ⟨_, _, hlog⟩ := Option.bind_eq_some_iff.mp hlog
  obtain ⟨_, _, hlog⟩ := Option.bind_eq_some_iff.mp hlog
  obtain ⟨_, _, hlog⟩ := Option.bind_eq_some_iff.mp hlog
  obtain ⟨_, _, hlog⟩ := Option.bind_eq_some_iff.mp hlog
  obtain rfl := Option.some.inj hlog
  rfl

theorem behind_none (rows : List RunEventRow) : behind RunEventRow.id none rows = rows :=
  List.filter_eq_self.mpr (fun _ _ => rfl)

/-- Paging through the charts, and through the images, of a run gives all of them
exactly when they are spread evenly enough among the run's events. -/
theorem structuredPages_iff {run : RunRow} (hopen : openRun env auth runId none s = .ok run) (limit : Nat)
    (names : Option String) :
    (Paged (chartPage env auth runId limit names s) none ((eventsOf runId s).filterMap (selectedChart env names)) ↔
        Spread (selectedChart env names) (pageLimit limit) (pageWindow limit) (eventsOf runId s)) ∧
      (Paged (imagePage env auth runId limit names s) none ((eventsOf runId s).filterMap (selectedImage env names)) ↔
        Spread (selectedImage env names) (pageLimit limit) (pageWindow limit) (eventsOf runId s)) := by
  have hrows : (eventsOf runId s).Pairwise (fun a b => a.id < b.id) := s.events.ascending.filter _
  have hcharts : chartPage env auth runId limit names s =
      windowPage RunEventRow.id (selectedChart env names) RunChartLogResponse.id (pageLimit limit) (pageWindow limit)
        (eventsOf runId s) := by
    funext cursor
    rw [chartPage, httpGetRunCharts, structuredLogs_eq hopen, selectedChart]
    generalize windowPage RunEventRow.id _ RunChartLogResponse.id _ _ _ cursor = page
    rfl
  have himages : imagePage env auth runId limit names s =
      windowPage RunEventRow.id (selectedImage env names) RunImageLogResponse.id (pageLimit limit) (pageWindow limit)
        (eventsOf runId s) := by
    funext cursor
    rw [imagePage, httpGetRunImages, structuredLogs_eq hopen, selectedImage]
    generalize windowPage RunEventRow.id _ RunImageLogResponse.id _ _ _ cursor = page
    rfl
  constructor
  · have h := paged_iff_spread none hrows (selectedChart_id env names) (pageLimit_pos limit) (pageWindow limit)
    rwa [behind_none, ← hcharts] at h
  · have h := paged_iff_spread none hrows (selectedImage_id env names) (pageLimit_pos limit) (pageWindow limit)
    rwa [behind_none, ← himages] at h

def chartMessage : String := "\x7b\"kind\":\"chart\",\"payload\":\x7b\"name\":\"loss\"\x7d\x7d"

def eventEnv : EventEnv where
  flags := fun _ => true
  fromStr message :=
    if message = chartMessage then some ⟨"chart", .object [("name", .string "loss")], false⟩ else none

def eventAt (plain i : Nat) : RunEventRow :=
  ⟨i, "r", "info", "sdk", if i < plain then "epoch" else chartMessage, none, none, "2026-01-01 00:00:00"⟩

def runningRun : RunRow := ⟨"r", "p", none, "running", none, none, 0, 0⟩

/-- A run with so many plain events, and a chart behind them. -/
def chartBehind (plain : Nat) : EventStore where
  runs := ⟨[runningRun], .cons (by simp) .nil⟩
  events := {
    rows := (List.range (plain + 1)).map (eventAt plain)
    ascending := List.pairwise_lt_range.map (eventAt plain) (fun _ _ h => Int.ofNat_lt.mpr h) }

theorem structuredPages_iff_near_chart :
    openRun eventEnv (.devMode 0) "r" none (chartBehind 2) = .ok runningRun ∧
      Paged (chartPage eventEnv (.devMode 0) "r" 1 none (chartBehind 2)) none
        ((eventsOf "r" (chartBehind 2)).filterMap (selectedChart eventEnv none)) := by
  have hopen : openRun eventEnv (.devMode 0) "r" none (chartBehind 2) = .ok runningRun := by
    rfl
  refine ⟨hopen, (structuredPages_iff hopen 1 none).1.mpr ?_⟩
  rw [spread_iff]
  exact ⟨by decide, spread_of_items_nil rfl⟩

theorem chart_behind_window :
    ¬ Paged (chartPage eventEnv (.devMode 0) "r" 1 none (chartBehind 20)) none
        ((eventsOf "r" (chartBehind 20)).filterMap (selectedChart eventEnv none)) := by
  intro h
  rw [Paged.last_iff rfl] at h
  exact absurd (congrArg List.length h) (by decide)

end MLRunX.StructuredEvents
