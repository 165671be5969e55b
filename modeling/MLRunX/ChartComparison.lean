import MLRunX.RunComparison
import MLRunX.StructuredEvents

namespace MLRunX.ChartComparison

open Auth Http Ingest IngestRequest JsonValues RunComparison RunTables Sqlite StructuredEvents

def maxCompareCharts : Nat := 100

structure CompareRunChartsRequest where
  runIds : List String
  chartNames : List String := []
  limitPerRun : Nat := 20

structure RunChartsCompareData where
  runId : String
  runName : Option String
  status : String
  charts : List RunChartLogResponse

structure CompareRunChartsResponse where
  runs : List RunChartsCompareData
  commonChartNames : List String

structure ChartFaults where
  getRun : String → Option String := fun _ => none
  listEvents : String → Option String := fun _ => none

variable (env : EventEnv) (auth : AuthContext)

def passes (req : CompareRunChartsRequest) (chart : RunChartLogResponse) : Bool :=
  req.chartNames.isEmpty || req.chartNames.contains chart.name

def chartLimit (req : CompareRunChartsRequest) : Nat := clamp 1 200 req.limitPerRun

def chartsIn (req : CompareRunChartsRequest) (rows : List RunEventRow) : List RunChartLogResponse :=
  (rows.filterMap (chartLogFromEventRow env)).filter (passes req)

def compareRun (req : CompareRunChartsRequest) (faults : ChartFaults) (s : EventStore) (runId : String) :
    Answer RunChartsCompareData := do
  let run ← readableRun env.flags auth (faults.getRun runId) runId s.runs
  match listRunEvents (faults.listEvents runId) runId none 1000 s with
  | .error _ => .error internalError
  | .ok rows =>
      let charts := chartsIn env req rows
      .ok ⟨runId, run.name, run.status,
        if chartLimit req < charts.length then charts.take (chartLimit req) else charts⟩

def httpCompareRunCharts (req : CompareRunChartsRequest) (faults : ChartFaults) (s : EventStore) :
    Answer CompareRunChartsResponse := do
  if req.runIds = [] then .error (badRequest "run_ids cannot be empty")
  else if maxCompareCharts < req.runIds.length then
    .error (badRequest s!"Maximum {maxCompareCharts} runs can be compared")
  else
    let runs ← req.runIds.mapM (compareRun env auth req faults s)
    .ok ⟨runs, intersection (runs.map (fun run => (run.charts.map RunChartLogResponse.name).dedup))⟩

/-- All charts of a run that pass the filter, in the order of their ids. -/
def chartsOf (req : CompareRunChartsRequest) (s : EventStore) (runId : String) : List RunChartLogResponse :=
  chartsIn env req (eventsOf runId s)

def shownOf (req : CompareRunChartsRequest) (s : EventStore) (runId : String) : List RunChartLogResponse :=
  (chartsIn env req ((eventsOf runId s).take 1000)).take (chartLimit req)

def named (charts : List RunChartLogResponse) (name : String) : Prop := ∃ chart ∈ charts, chart.name = name

/-- The comparison sees every chart: it shows the first ones of each run, and it
names the charts that all runs have. -/
structure SeesAll (req : CompareRunChartsRequest) (s : EventStore) (response : CompareRunChartsResponse) : Prop where
  runs : response.runs.map (fun run => (run.runId, run.charts)) =
    req.runIds.map (fun runId => (runId, (chartsOf env req s runId).take (chartLimit req)))
  common : ∀ name, name ∈ response.commonChartNames ↔
    ∀ runId ∈ req.runIds, named (chartsOf env req s runId) name

/-- The first charts of each run are among its first thousand events, and what
all runs have is among the first charts of each. -/
structure ChartsNear (req : CompareRunChartsRequest) (s : EventStore) : Prop where
  window : ∀ runId ∈ req.runIds, min (chartLimit req) (chartsOf env req s runId).length ≤
    (chartsIn env req ((eventsOf runId s).take 1000)).length
  names : ∀ name, (∀ runId ∈ req.runIds, named (chartsOf env req s runId) name) →
    ∀ runId ∈ req.runIds, named ((chartsOf env req s runId).take (chartLimit req)) name

variable {env auth} {req : CompareRunChartsRequest} {s : EventStore}

theorem take_if {α : Type} (items : List α) (n : Nat) :
    (if n < items.length then items.take n else items) = items.take n := by
  split
  · rfl
  · rename_i h
    exact (List.take_of_length_le (Nat.le_of_not_lt h)).symm

theorem compareRun_ok {runId : String} {data : RunChartsCompareData}
    (h : compareRun env auth req {} s runId = .ok data) :
    data.runId = runId ∧ data.charts = shownOf env req s runId := by
  obtain ⟨run, -, hread⟩ := Fallible.bind_eq_ok.mp h
  have hrows : listRunEvents none runId none 1000 s = .ok ((eventsOf runId s).take 1000) := by
    rw [listRunEvents, clamp_self (by decide) (Nat.le_refl _), statement_none]
    simp [eventsOf]
  simp only [hrows, take_if] at hread
  obtain rfl := Except.ok.inj hread
  exact ⟨rfl, rfl⟩

theorem shownOf_isPrefix (runId : String) :
    shownOf env req s runId <+: (chartsOf env req s runId).take (chartLimit req) := by
  apply List.IsPrefix.take
  apply List.IsPrefix.filter
  exact (List.take_prefix 1000 _).filterMap _

theorem shownOf_eq_iff (runId : String) : shownOf env req s runId = (chartsOf env req s runId).take (chartLimit req) ↔
    min (chartLimit req) (chartsOf env req s runId).length ≤
      (chartsIn env req ((eventsOf runId s).take 1000)).length := by
  constructor
  · intro h
    have hlen := congrArg List.length h
    rw [shownOf, List.length_take, List.length_take] at hlen
    omega
  · intro h
    apply (shownOf_isPrefix runId).eq_of_length_le
    rw [shownOf, List.length_take, List.length_take]
    omega

theorem httpCompareRunCharts_ok {response : CompareRunChartsResponse}
    (h : httpCompareRunCharts env auth req {} s = .ok response) :
    req.runIds ≠ [] ∧
      response.runs.map (fun run => (run.runId, run.charts)) =
        req.runIds.map (fun runId => (runId, shownOf env req s runId)) ∧
      response.commonChartNames =
        intersection (req.runIds.map (fun runId =>
          ((shownOf env req s runId).map RunChartLogResponse.name).dedup)) := by
  rw [httpCompareRunCharts] at h
  split at h
  · cases h
  · rename_i hne
    split at h
    · cases h
    · obtain ⟨runs, hruns, hresponse⟩ := Fallible.bind_eq_ok.mp h
      obtain rfl := Except.ok.inj hresponse
      refine ⟨hne, ?_, congrArg intersection ?_⟩
      · apply Fallible.map_mapM _ hruns
        intro runId data hdata
        rw [(compareRun_ok hdata).1, (compareRun_ok hdata).2]
      · apply Fallible.map_mapM _ hruns
        intro runId data hdata
        rw [(compareRun_ok hdata).2]

theorem named_of_prefix {charts more : List RunChartLogResponse} (h : charts <+: more) {name : String}
    (hname : named charts name) : named more name := by
  obtain ⟨chart, hchart, rfl⟩ := hname
  exact ⟨chart, h.subset hchart, rfl⟩

/-- The comparison sees every chart exactly when the charts it shows stand near
enough to the beginning, and among them are all that the runs have in common. -/
theorem seesAll_iff {response : CompareRunChartsResponse}
    (h : httpCompareRunCharts env auth req {} s = .ok response) :
    SeesAll env req s response ↔ ChartsNear env req s := by
  obtain ⟨hne, hruns, hcommon⟩ := httpCompareRunCharts_ok h
  have hshown : response.runs.map (fun run => (run.runId, run.charts)) =
      req.runIds.map (fun runId => (runId, (chartsOf env req s runId).take (chartLimit req))) ↔
      ∀ runId ∈ req.runIds, min (chartLimit req) (chartsOf env req s runId).length ≤
        (chartsIn env req ((eventsOf runId s).take 1000)).length := by
    rw [hruns, List.map_inj_left]
    simp only [Prod.mk.injEq, true_and, shownOf_eq_iff]
  have hnames : ∀ name, name ∈ response.commonChartNames ↔
      ∀ runId ∈ req.runIds, named (shownOf env req s runId) name := by
    intro name
    rw [hcommon, mem_intersection (fun hnil => hne (List.map_eq_nil_iff.mp hnil)), List.forall_mem_map]
    simp only [List.mem_dedup, List.mem_map, named]
  constructor
  · rintro ⟨hall, hfull⟩
    refine ⟨hshown.mp hall, fun name hname runId hrunId => ?_⟩
    exact named_of_prefix (shownOf_isPrefix runId) ((hnames name).mp ((hfull name).mpr hname) runId hrunId)
  · rintro ⟨hwindow, hfirst⟩
    refine ⟨hshown.mpr hwindow, fun name =>
      (hnames name).trans ⟨fun hname runId hrunId => ?_, fun hname runId hrunId => ?_⟩⟩
    · exact named_of_prefix ((shownOf_isPrefix runId).trans (List.take_prefix _ _)) (hname runId hrunId)
    · rw [(shownOf_eq_iff runId).mpr (hwindow runId hrunId)]
      exact hfirst name hname runId hrunId

def lossMessage : String := "\x7b\"kind\":\"chart\",\"payload\":\x7b\"name\":\"loss\"\x7d\x7d"

def accMessage : String := "\x7b\"kind\":\"chart\",\"payload\":\x7b\"name\":\"acc\"\x7d\x7d"

def chartEnv : EventEnv where
  flags := fun _ => true
  fromStr message :=
    if message = lossMessage then some ⟨"chart", .object [("name", .string "loss")], false⟩
    else if message = accMessage then some ⟨"chart", .object [("name", .string "acc")], false⟩
    else none

def chartEvent (id : Int) (runId message : String) : RunEventRow :=
  ⟨id, runId, "info", "sdk", message, none, none, "2026-01-01 00:00:00"⟩

theorem apart_runs : [runA, runB].Pairwise (fun a b => ¬ RunRow.clash a b) := by decide

theorem ascending_charts : [chartEvent 1 "a" lossMessage, chartEvent 2 "a" accMessage,
    chartEvent 3 "b" accMessage].Pairwise (fun a b => a.id < b.id) := by decide

/-- One run has logged two charts, the other one the second of them. -/
def sharedChart : EventStore where
  runs := ⟨_, apart_runs⟩
  events := ⟨_, ascending_charts⟩

def bothRuns (limitPerRun : Nat) : CompareRunChartsRequest := { runIds := ["a", "b"], limitPerRun }

def comparison (limitPerRun : Nat) : Answer CompareRunChartsResponse :=
  httpCompareRunCharts chartEnv (.devMode 0) (bothRuns limitPerRun) {} sharedChart

theorem seesAll_iff_two : ∃ response, comparison 2 = .ok response ∧
    SeesAll chartEnv (bothRuns 2) sharedChart response := by
  have hcomparison : comparison 2 = .ok _ := rfl
  refine ⟨_, hcomparison, (seesAll_iff hcomparison).mpr ⟨by decide, fun name hname runId hrunId => ?_⟩⟩
  have hall := hname runId hrunId
  simp only [bothRuns, List.mem_cons, List.not_mem_nil, or_false] at hrunId
  rcases hrunId with rfl | rfl
  · exact hall
  · exact hall

theorem shared_chart_cut : ¬ ∀ (env : EventEnv) (auth : AuthContext) (req : CompareRunChartsRequest) (s : EventStore)
    (response : CompareRunChartsResponse),
    httpCompareRunCharts env auth req {} s = .ok response → SeesAll env req s response := by
  intro h
  have hsees := h chartEnv (.devMode 0) (bothRuns 1) sharedChart _ rfl
  have hacc : "acc" ∈ _ := (hsees.common "acc").mpr (by
    intro runId hrunId
    simp only [bothRuns, List.mem_cons, List.not_mem_nil, or_false] at hrunId
    rcases hrunId with rfl | rfl
    · exact ⟨_, List.mem_cons_of_mem _ List.mem_cons_self, rfl⟩
    · exact ⟨_, List.mem_cons_self, rfl⟩)
  revert hacc
  decide +kernel

end MLRunX.ChartComparison
