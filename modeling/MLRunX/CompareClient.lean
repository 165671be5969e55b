import MLRunX.NextPath
import MLRunX.CodeUnits
import MLRunX.RunComparison
import MLRunX.Runs

namespace MLRunX.CompareClient

open Auth Http Ingest RunComparison Runs
open NextPath (trim)

def compareMaxPoints : UInt64 := 5000

def comparePageSize : Nat := 200

/-- The ids without space around them, each where it comes first. -/
def normalizeRunIds (seen : List String) : List String → List String
  | [] => []
  | id :: ids =>
      let trimmed := trim id
      if trimmed.isEmpty || seen.contains trimmed then normalizeRunIds seen ids
      else trimmed :: normalizeRunIds (trimmed :: seen) ids

/-- The order of texts in the language is that of their code units. -/
def sortNames (names : List String) : List String :=
  names.insertionSort (fun a b => CodeUnits.units a ≤ CodeUnits.units b)

def seriesNames (run : RunCompareData) : List String := run.series.map (fun series => series.name)

def computeCommonMetricNames : List RunCompareData → List String
  | [] => []
  | first :: runs =>
      sortNames (runs.foldl (fun common run => common.filter (fun name => (seriesNames run).contains name))
        (uniqueRunIds [] (seriesNames first)))

def computeAllMetricNames (runs : List RunCompareData) : List String :=
  sortNames (uniqueRunIds [] (runs.flatMap seriesNames))

structure Fetch where
  ids : List String
  silent : Bool
  collected : List RunCompareData
  offset : Nat
  total : Nat

def Fetch.request (f : Fetch) : CompareRunsRequest where
  runIds := f.ids
  metricNames := []
  maxPoints := compareMaxPoints
  limit := comparePageSize
  offset := f.offset

structure View where
  runs : List RunCompareData
  commonMetrics : List String
  allMetrics : List String
  selectedMetric : String
  loading : Bool
  error : Option String
  notice : Option String

def View.initial : View := ⟨[], [], [], "", true, none, none⟩

def selectMetric (common all : List String) (previous : String) : String :=
  if common.isEmpty then all.head?.getD ""
  else if previous ≠ "" ∧ (common.contains previous || all.contains previous) then previous
  else (common.head?.or all.head?).getD ""

def noticeOf (count : Nat) : Option String :=
  if comparePageSize < count then
    some s!"Loaded {count} runs across {(count + comparePageSize - 1) / comparePageSize} compare pages."
  else none

def View.show (view : View) (runs : List RunCompareData) : View :=
  { view with
    runs
    commonMetrics := computeCommonMetricNames runs
    allMetrics := computeAllMetricNames runs
    selectedMetric := selectMetric (computeCommonMetricNames runs) (computeAllMetricNames runs) view.selectedMetric
    notice := (noticeOf runs.length).or view.notice }

def View.settle (view : View) (silent : Bool) : View := { view with loading := if silent then view.loading else false }

variable {τ : Type}

/-- The panel with the comparisons under way: another may begin before one has ended. -/
structure Panel (τ : Type) where
  view : View
  pending : τ → Option Fetch

/-- Who asks for a page and what the server has when it answers. -/
structure Served where
  env : CompareEnv
  auth : AuthContext
  store : CompareStore
  faults : CompareFaults

inductive Op (τ : Type)
  | fetch (t : τ) (runIds : List String) (silent : Bool)
  | answer (t : τ) (served : Served)
  | fail (t : τ) (message : String)

def Served.respond (served : Served) (request : CompareRunsRequest) : Except Failure CompareRunsResponse :=
  httpCompareRuns served.env served.auth request served.faults served.store

section Steps

variable [DecidableEq τ]

def begin (t : τ) (runIds : List String) (silent : Bool) (panel : Panel τ) : Panel τ :=
  let ids := normalizeRunIds [] runIds
  if ids.isEmpty then
    { panel with view := { panel.view with
        runs := [], commonMetrics := [], selectedMetric := "", notice := none, loading := false } }
  else
    { view := { panel.view with loading := if silent then panel.view.loading else true, error := none, notice := none }
      pending := Function.update panel.pending t (some ⟨ids, silent, [], 0, ids.length⟩) }

def finish (t : τ) (f : Fetch) (panel : Panel τ) : Panel τ where
  view := (panel.view.show f.collected).settle f.silent
  pending := Function.update panel.pending t none

def abandon (t : τ) (f : Fetch) (message : String) (panel : Panel τ) : Panel τ where
  view := { panel.view with error := some message }.settle f.silent
  pending := Function.update panel.pending t none

def Fetch.extend (f : Fetch) (response : CompareRunsResponse) : Fetch :=
  { f with
    collected := f.collected ++ response.runs
    total := response.total
    offset := f.offset + response.runs.length }

variable (errorMessage : Failure → String)

def receive (t : τ) (f : Fetch) (panel : Panel τ) : Except Failure CompareRunsResponse → Panel τ
  | .error e => abandon t f (errorMessage e) panel
  | .ok response =>
      let f' := f.extend response
      if response.runs.isEmpty then finish t f' panel
      else if f'.offset < f'.total then { panel with pending := Function.update panel.pending t (some f') }
      else finish t f' panel

def step : Machine (Panel τ) (Op τ) Unit
  | panel, .fetch t runIds silent =>
      ((), if (panel.pending t).isSome then panel else begin t runIds silent panel)
  | panel, .answer t served => match panel.pending t with
      | some f => ((), receive errorMessage t f panel (served.respond f.request))
      | none => ((), panel)
  | panel, .fail t message => match panel.pending t with
      | some f => ((), abandon t f message panel)
      | none => ((), panel)

end Steps

def Panel.initial : Panel τ := ⟨View.initial, fun _ => none⟩

/-! What a comparison reads. -/

def ReadFrom (served : Served) (data : RunCompareData) : Prop :=
  ∃ run series, readableRun served.env.flags served.auth (served.faults.getRun data.runId) data.runId
      served.store.runs = .ok run ∧ data.runName = run.name ∧ data.status = run.status ∧ data.series = series ∧
    MetricQuery.getMetrics served.env.overflowChecks served.store.metrics data.runId [] compareMaxPoints none none =
      .ok series

theorem mem_normalizeRunIds {seen runIds : List String} {id : String} :
    id ∈ normalizeRunIds seen runIds ↔ id ≠ "" ∧ id ∉ seen ∧ ∃ runId ∈ runIds, trim runId = id := by
  induction runIds generalizing seen with
  | nil => simp [normalizeRunIds]
  | cons runId runIds ih =>
      rw [normalizeRunIds]
      split
      · rename_i hskip
        rw [ih]
        simp only [Bool.or_eq_true, List.contains_iff_mem, String.isEmpty_iff] at hskip
        simp only [List.mem_cons, exists_eq_or_imp]
        constructor
        · rintro ⟨hne, hnew, hmem⟩
          exact ⟨hne, hnew, .inr hmem⟩
        · rintro ⟨hne, hnew, rfl | hmem⟩
          · exact absurd hskip (by simp [hne, hnew])
          · exact ⟨hne, hnew, hmem⟩
      · rename_i hskip
        simp only [Bool.or_eq_true, List.contains_iff_mem, String.isEmpty_iff, not_or] at hskip
        simp only [List.mem_cons, exists_eq_or_imp, ih, not_or]
        constructor
        · rintro (rfl | ⟨hne, ⟨-, hnew⟩, hmem⟩)
          · exact ⟨hskip.1, hskip.2, .inl rfl⟩
          · exact ⟨hne, hnew, .inr hmem⟩
        · rintro ⟨hne, hnew, hmem⟩
          by_cases hid : id = trim runId
          · exact .inl hid
          · exact .inr ⟨hne, ⟨hid, hnew⟩, hmem.resolve_left (Ne.symm hid)⟩

theorem nodup_normalizeRunIds (seen runIds : List String) : (normalizeRunIds seen runIds).Nodup := by
  induction runIds generalizing seen with
  | nil => exact List.nodup_nil
  | cons runId runIds ih =>
      rw [normalizeRunIds]
      split
      · exact ih seen
      · refine List.nodup_cons.mpr ⟨?_, ih _⟩
        intro hmem
        exact (mem_normalizeRunIds.mp hmem).2.1 List.mem_cons_self

theorem uniqueRunIds_of_nodup {seen ids : List String} (h : ids.Nodup) (hnew : ∀ id ∈ ids, id ∉ seen) :
    uniqueRunIds seen ids = ids := by
  induction ids generalizing seen with
  | nil => rfl
  | cons id ids ih =>
      obtain ⟨hid, hids⟩ := List.nodup_cons.mp h
      obtain ⟨hfirst, hrest⟩ := List.forall_mem_cons.mp hnew
      rw [uniqueRunIds, if_neg (by simpa using hfirst), ih hids]
      intro other hother hseen
      rcases List.mem_cons.mp hseen with rfl | hseen
      · exact hid hother
      · exact hrest other hother hseen

theorem compareLoop_read {served : Served} {req : CompareRunsRequest} {runIds : List String}
    {cache : List (String × List (String × String))} {page : List (RunCompareData × List String)}
    (hreq : req.metricNames = [] ∧ req.maxPoints = compareMaxPoints)
    (h : compareLoop served.env served.auth req served.faults served.store runIds cache = .ok page) :
    page.map (fun entry => entry.1.runId) = runIds ∧ ∀ entry ∈ page, ReadFrom served entry.1 := by
  induction runIds generalizing cache page with
  | nil =>
      obtain rfl := Except.ok.inj h
      exact ⟨rfl, fun _ hm => absurd hm List.not_mem_nil⟩
  | cons runId runIds ih =>
      obtain ⟨run, hrun, h₁⟩ := Fallible.bind_eq_ok.mp h
      obtain ⟨series, hseries, h₂⟩ := Fallible.bind_eq_ok.mp h₁
      obtain ⟨rest, hrest, h₃⟩ := Fallible.bind_eq_ok.mp h₂
      obtain ⟨hids, hread⟩ := ih hrest
      obtain rfl := Except.ok.inj h₃
      refine ⟨by rw [List.map_cons, hids], List.forall_mem_cons.mpr ⟨?_, hread⟩⟩
      refine ⟨run, series, Fallible.mapError_eq_ok.mp hrun, rfl, rfl, rfl, ?_⟩
      simp only [runSeries, hreq.1, hreq.2] at hseries
      split at hseries
      · cases hseries
      · exact Fallible.mapError_eq_ok.mp hseries

theorem respond_ok {served : Served} {f : Fetch} {response : CompareRunsResponse}
    (h : served.respond f.request = .ok response) (hids : f.ids.Nodup) :
    response.runs.map RunCompareData.runId = (f.ids.drop f.offset).take comparePageSize ∧
      response.total = f.ids.length ∧ ∀ data ∈ response.runs, ReadFrom served data := by
  obtain ⟨_, -, h₁⟩ := Fallible.bind_eq_ok.mp h
  obtain ⟨page, hpage, h₂⟩ := Fallible.bind_eq_ok.mp h₁
  obtain ⟨hmap, hread⟩ := compareLoop_read ⟨rfl, rfl⟩ hpage
  obtain rfl := Except.ok.inj h₂
  have hunique : uniqueRunIds [] f.ids = f.ids := uniqueRunIds_of_nodup hids (fun _ _ => List.not_mem_nil)
  refine ⟨?_, congrArg List.length hunique, ?_⟩
  · rw [List.map_map]
    refine hmap.trans ?_
    rw [pagedRunIds]
    exact congrArg (fun ids => (ids.drop f.offset).take comparePageSize) hunique
  · rintro data hdata
    obtain ⟨entry, hentry, rfl⟩ := List.mem_map.mp hdata
    exact hread entry hentry

/-- Runs that were asked for together, in this order, each as an answer told. -/
structure Comparison (ops : List (Op τ)) (ids : List String) (runs : List RunCompareData) : Prop where
  asked : ∃ t runIds silent, .fetch t runIds silent ∈ ops ∧ ids = normalizeRunIds [] runIds
  runIds : runs.map RunCompareData.runId = ids.take runs.length
  read : ∀ data ∈ runs, ∃ t served, .answer t served ∈ ops ∧ ReadFrom served data

theorem Comparison.nodup {ops : List (Op τ)} {ids : List String} {runs : List RunCompareData}
    (h : Comparison ops ids runs) : ids.Nodup := by
  obtain ⟨t, runIds, silent, -, rfl⟩ := h.asked
  exact nodup_normalizeRunIds [] runIds

theorem Comparison.later {ops more : List (Op τ)} {ids : List String} {runs : List RunCompareData}
    (h : Comparison ops ids runs) : Comparison (ops ++ more) ids runs where
  asked := by
    obtain ⟨t, runIds, silent, hm, heq⟩ := h.asked
    exact ⟨t, runIds, silent, List.mem_append_left _ hm, heq⟩
  runIds := h.runIds
  read data hdata := by
    obtain ⟨t, served, hm, hread⟩ := h.read data hdata
    exact ⟨t, served, List.mem_append_left _ hm, hread⟩

/-- What is shown is a comparison of all runs that were asked for, and what is being
read is the first part of one. -/
structure Sound (ops : List (Op τ)) (panel : Panel τ) : Prop where
  whole : panel.view.runs ≠ [] → ∃ ids, Comparison ops ids panel.view.runs ∧ ids.length = panel.view.runs.length
  common : panel.view.commonMetrics = computeCommonMetricNames panel.view.runs
  all : panel.view.runs ≠ [] → panel.view.allMetrics = computeAllMetricNames panel.view.runs
  reading : ∀ t f, panel.pending t = some f → Comparison ops f.ids f.collected ∧ f.total = f.ids.length ∧
    f.offset = f.collected.length ∧ f.offset < f.total

theorem sound_initial : Sound ([] : List (Op τ)) Panel.initial :=
  ⟨fun h => absurd rfl h, rfl, fun h => absurd rfl h, nofun⟩

variable {ops : List (Op τ)} {panel : Panel τ} {t : τ} {f : Fetch}

theorem Sound.later (h : Sound ops panel) (more : List (Op τ)) : Sound (ops ++ more) panel where
  whole hruns := by
    obtain ⟨ids, hids, hlen⟩ := h.whole hruns
    exact ⟨ids, hids.later, hlen⟩
  common := h.common
  all := h.all
  reading t f hf := by
    obtain ⟨hcomparison, hrest⟩ := h.reading t f hf
    exact ⟨hcomparison.later, hrest⟩

theorem comparison_extend (t : τ) {served : Served} {response : CompareRunsResponse}
    (hc : Comparison ops f.ids f.collected)
    (hoffset : f.offset = f.collected.length) (h : served.respond f.request = .ok response) :
    Comparison (ops ++ [.answer t served]) f.ids (f.extend response).collected ∧ response.total = f.ids.length ∧
      response.runs.length = min comparePageSize (f.ids.length - f.offset) := by
  obtain ⟨hids, htotal, hread⟩ := respond_ok h hc.nodup
  have hlen : response.runs.length = min comparePageSize (f.ids.length - f.offset) := by
    rw [← List.length_map RunCompareData.runId, hids, List.length_take, List.length_drop]
  refine ⟨⟨hc.later.asked, ?_, ?_⟩, htotal, hlen⟩
  · have htake : (f.ids.drop f.offset).take comparePageSize = (f.ids.drop f.offset).take response.runs.length := by
      rw [hlen, ← List.length_drop]
      exact List.take_eq_take_min
    rw [Fetch.extend, List.map_append, hc.runIds, hids, List.length_append, List.take_add, htake, hoffset]
  · intro data hdata
    rcases List.mem_append.mp hdata with hdata | hdata
    · exact hc.later.read data hdata
    · exact ⟨t, served, by simp, hread data hdata⟩

variable [DecidableEq τ] (errorMessage : Failure → String)

theorem sound_drop (h : Sound ops panel) (view : View) (hruns : view.runs = panel.view.runs)
    (hcommon : view.commonMetrics = panel.view.commonMetrics) (hall : view.allMetrics = panel.view.allMetrics) :
    Sound ops ⟨view, Function.update panel.pending t none⟩ where
  whole := by
    rw [hruns]
    exact h.whole
  common := by rw [hcommon, hruns, h.common]
  all hne := by
    rw [hall, hruns]
    exact h.all (hruns ▸ hne)
  reading u g hg := by
    simp only [Function.update_apply] at hg
    split at hg
    · cases hg
    · exact h.reading u g hg

theorem sound_begin (h : Sound ops panel) (t : τ) (runIds : List String) (silent : Bool) :
    Sound (ops ++ [.fetch t runIds silent]) (begin t runIds silent panel) := by
  have hlater := h.later [.fetch t runIds silent]
  simp only [begin]
  split
  · exact ⟨fun hne => absurd rfl hne, rfl, fun hne => absurd rfl hne, hlater.reading⟩
  · rename_i hids
    refine ⟨hlater.whole, hlater.common, hlater.all, fun u g hg => ?_⟩
    simp only [Function.update_apply] at hg
    split at hg
    · obtain rfl := Option.some.inj hg
      refine ⟨⟨⟨t, runIds, silent, by simp, rfl⟩, by simp, by simp⟩, rfl, rfl, ?_⟩
      exact List.length_pos_iff.mpr (by simpa using hids)
    · exact hlater.reading u g hg

theorem sound_finish (h : Sound ops panel) (hc : Comparison ops f.ids f.collected)
    (hlen : f.collected.length = f.ids.length) : Sound ops (finish t f panel) where
  whole _ := ⟨f.ids, hc, hlen.symm⟩
  common := rfl
  all _ := rfl
  reading u g hg := by
    simp only [finish, Function.update_apply] at hg
    split at hg
    · cases hg
    · exact h.reading u g hg

theorem sound_receive (h : Sound ops panel) (hf : panel.pending t = some f) (served : Served) :
    Sound (ops ++ [.answer t served]) (receive errorMessage t f panel (served.respond f.request)) := by
  have hlater := h.later [.answer t served]
  obtain ⟨hc, htotal, hoffset, hlt⟩ := h.reading t f hf
  cases hr : served.respond f.request with
  | error e => exact sound_drop hlater _ rfl rfl rfl
  | ok response =>
      obtain ⟨hcollected, htotal', hlen⟩ := comparison_extend t hc hoffset hr
      have hextend : (f.extend response).offset = (f.extend response).collected.length := by
        rw [Fetch.extend, List.length_append, hoffset]
      have hmore : 0 < response.runs.length := by
        rw [hlen, htotal] at *
        exact Nat.lt_min.mpr ⟨by decide, by omega⟩
      simp only [receive, List.isEmpty_eq_false_iff.mpr (List.length_pos_iff.mp hmore), Bool.false_eq_true, if_false]
      split
      · rename_i hrest
        refine ⟨hlater.whole, hlater.common, hlater.all, fun u g hg => ?_⟩
        simp only [Function.update_apply] at hg
        split at hg
        · obtain rfl := Option.some.inj hg
          exact ⟨hcollected, htotal', hextend, hrest⟩
        · exact hlater.reading u g hg
      · rename_i hdone
        refine sound_finish hlater hcollected ?_
        rw [← hextend]
        simp only [Fetch.extend] at hdone ⊢
        omega

theorem sound_step (h : Sound ops panel) (op : Op τ) : Sound (ops ++ [op]) (step errorMessage panel op).2 := by
  cases op with
  | fetch t runIds silent =>
      simp only [step]
      split
      · exact h.later _
      · exact sound_begin h t runIds silent
  | answer t served =>
      simp only [step]
      split
      · exact sound_receive errorMessage h ‹_› served
      · exact h.later _
  | fail t message =>
      simp only [step]
      split
      · exact sound_drop (h.later _) _ rfl rfl rfl
      · exact h.later _

theorem sound_after (h : Sound ops panel) (more : List (Op τ)) :
    Sound (ops ++ more) (after (step errorMessage) panel more) := by
  induction more generalizing ops panel with
  | nil => simpa using h
  | cons op more ih =>
      have hnext := ih (sound_step errorMessage h op)
      rwa [List.append_assoc, List.singleton_append] at hnext

/-! The names of the metrics. -/

theorem mem_sortNames {names : List String} {name : String} : name ∈ sortNames names ↔ name ∈ names :=
  List.mem_insertionSort _

theorem mem_computeCommonMetricNames {runs : List RunCompareData} {name : String} :
    name ∈ computeCommonMetricNames runs ↔ runs ≠ [] ∧ ∀ data ∈ runs, name ∈ seriesNames data := by
  cases runs with
  | nil => simp [computeCommonMetricNames]
  | cons first runs =>
      have hfold : ∀ common : List String,
          name ∈ runs.foldl (fun common run => common.filter (fun name => (seriesNames run).contains name)) common ↔
            name ∈ common ∧ ∀ data ∈ runs, name ∈ seriesNames data := by
        induction runs with
        | nil => simp
        | cons run runs ih =>
            intro common
            rw [List.foldl_cons, ih, List.mem_filter, List.forall_mem_cons, List.contains_iff_mem, and_assoc]
      rw [computeCommonMetricNames, mem_sortNames, hfold, mem_uniqueRunIds, List.forall_mem_cons]
      simp

theorem mem_computeAllMetricNames {runs : List RunCompareData} {name : String} :
    name ∈ computeAllMetricNames runs ↔ ∃ data ∈ runs, name ∈ seriesNames data := by
  rw [computeAllMetricNames, mem_sortNames, mem_uniqueRunIds]
  simp

theorem name_of_getSeries {overflowChecks : Bool} {rows : List MetricQuery.MetricRow} {runId name : String}
    {maxPoints : UInt64} {series : MetricQuery.MetricSeriesRow}
    (h : MetricQuery.getSeries overflowChecks rows runId maxPoints none none name = .ok series) :
      series.name = name := by
  by_cases hfew : (MetricQuery.selectRows rows runId none none name).length ≤ maxPoints.toNat
  · rw [MetricQuery.getSeries_few hfew] at h
    obtain rfl := Except.ok.inj h
    rfl
  · obtain ⟨points, -, rfl⟩ := (MetricQuery.getSeries_many (Nat.lt_of_not_le hfew)).mp h
    rfl

theorem mem_seriesNames {served : Served} {data : RunCompareData} (h : ReadFrom served data) {name : String} :
    name ∈ seriesNames data ↔ Logged served.store data.runId name := by
  obtain ⟨run, series, -, -, -, hseries, hread⟩ := h
  have hnames : name ∈ MetricQuery.namesToQuery served.store.metrics data.runId [] ↔
      Logged served.store data.runId name := by
    simp [MetricQuery.namesToQuery, Logged, and_assoc]
  rw [seriesNames, hseries, List.mem_map, ← hnames]
  constructor
  · rintro ⟨one, hone, rfl⟩
    obtain ⟨asked, hasked, hget⟩ := Fallible.exists_of_mapM hread one hone
    rwa [name_of_getSeries hget]
  · intro hname
    obtain ⟨one, hone, hget⟩ := Fallible.mapM_exists hread name hname
    exact ⟨one, hone, name_of_getSeries hget⟩

theorem comparison_after (ops : List (Op τ))
    (hruns : (after (step errorMessage) Panel.initial ops).view.runs ≠ []) :
    ∃ t runIds silent, .fetch t runIds silent ∈ ops ∧
      (after (step errorMessage) Panel.initial ops).view.runs.map RunCompareData.runId = normalizeRunIds [] runIds ∧
      Sound ops (after (step errorMessage) Panel.initial ops) ∧
      ∀ data ∈ (after (step errorMessage) Panel.initial ops).view.runs, ∃ t served,
        .answer t served ∈ ops ∧ ReadFrom served data := by
  have h := sound_after errorMessage sound_initial ops
  rw [List.nil_append] at h
  obtain ⟨ids, hcomparison, hlen⟩ := h.whole hruns
  obtain ⟨t, runIds, silent, hasked, rfl⟩ := hcomparison.asked
  refine ⟨t, runIds, silent, hasked, ?_, h, hcomparison.read⟩
  rw [hcomparison.runIds, ← hlen, List.take_length]

/-- However comparisons overlap and fail, the runs that are shown were asked for together and are
all of them, and the metrics are those that all or some of these runs had when they were read. -/
theorem shown_run (ops : List (Op τ)) {view : View}
    (hview : (after (step errorMessage) Panel.initial ops).view = view) (hruns : view.runs ≠ []) :
    (∃ t runIds silent, .fetch t runIds silent ∈ ops ∧
        view.runs.map RunCompareData.runId = normalizeRunIds [] runIds) ∧
      (∀ data ∈ view.runs, ∃ t served, .answer t served ∈ ops ∧ ReadFrom served data) ∧
      (∀ name, name ∈ view.commonMetrics ↔ ∀ data ∈ view.runs, name ∈ seriesNames data) ∧
      ∀ name, name ∈ view.allMetrics ↔ ∃ data ∈ view.runs, name ∈ seriesNames data := by
  subst hview
  obtain ⟨t, runIds, silent, hasked, hids, h, hread⟩ := comparison_after errorMessage ops hruns
  refine ⟨⟨t, runIds, silent, hasked, hids⟩, hread, fun name => ?_, fun name => ?_⟩
  · rw [h.common, mem_computeCommonMetricNames, and_iff_right hruns]
  · rw [h.all hruns, mem_computeAllMetricNames]

def servedTwo : Served := ⟨localEnv, .devMode 0, twoRuns "loss" "loss", {}⟩

def readTwo : List (Op Nat) :=
  [.fetch 0 ["b"] false, .fetch 1 ["a ", "b", "a"] true, .fail 0 "Failed to fetch", .answer 1 servedTwo]

theorem readTwo_runs : (after (step (fun _ => "")) Panel.initial readTwo).view.runs ≠ [] := by
  refine List.length_pos_iff.mp ?_
  decide +kernel

theorem shown_run_readTwo :
    (∃ t runIds silent, .fetch t runIds silent ∈ readTwo ∧
        (after (step (fun _ => "")) Panel.initial readTwo).view.runs.map RunCompareData.runId =
          normalizeRunIds [] runIds) ∧
      (∀ data ∈ (after (step (fun _ => "")) Panel.initial readTwo).view.runs, ∃ t served,
        .answer t served ∈ readTwo ∧ ReadFrom served data) ∧
      (∀ name, name ∈ (after (step (fun _ => "")) Panel.initial readTwo).view.commonMetrics ↔
        ∀ data ∈ (after (step (fun _ => "")) Panel.initial readTwo).view.runs, name ∈ seriesNames data) ∧
      ∀ name, name ∈ (after (step (fun _ => "")) Panel.initial readTwo).view.allMetrics ↔
        ∃ data ∈ (after (step (fun _ => "")) Panel.initial readTwo).view.runs, name ∈ seriesNames data :=
  shown_run _ readTwo rfl readTwo_runs

/-- While nothing is written, the metrics that are called common are those of all runs that were
asked for, however many pages these take. -/
theorem common_run (ops : List (Op τ)) (store : CompareStore)
    (hstore : ∀ t served, .answer t served ∈ ops → served.store = store)
    {view : View} (hview : (after (step errorMessage) Panel.initial ops).view = view) (hruns : view.runs ≠ []) :
    ∃ t runIds silent, .fetch t runIds silent ∈ ops ∧
      view.runs.map RunCompareData.runId = normalizeRunIds [] runIds ∧
      ∀ name, name ∈ view.commonMetrics ↔ ∀ runId ∈ normalizeRunIds [] runIds, Logged store runId name := by
  subst hview
  obtain ⟨t, runIds, silent, hasked, hids, h, hread⟩ := comparison_after errorMessage ops hruns
  refine ⟨t, runIds, silent, hasked, hids, fun name => ?_⟩
  rw [h.common, mem_computeCommonMetricNames, and_iff_right hruns, ← hids, List.forall_mem_map]
  refine forall₂_congr (fun data hdata => ?_)
  obtain ⟨u, served, hserved, hfrom⟩ := hread data hdata
  rw [mem_seriesNames hfrom, hstore u served hserved]

theorem common_run_readTwo :
    ∃ t runIds silent, .fetch t runIds silent ∈ readTwo ∧
      (after (step (fun _ => "")) Panel.initial readTwo).view.runs.map RunCompareData.runId =
        normalizeRunIds [] runIds ∧
      ∀ name, name ∈ (after (step (fun _ => "")) Panel.initial readTwo).view.commonMetrics ↔
        ∀ runId ∈ normalizeRunIds [] runIds, Logged (twoRuns "loss" "loss") runId name := by
  refine common_run _ readTwo (twoRuns "loss" "loss") ?_ rfl readTwo_runs
  intro t served hserved
  simp only [readTwo, List.mem_cons, reduceCtorEq, Op.answer.injEq, false_or, List.not_mem_nil, or_false] at hserved
  rw [hserved.2, servedTwo]

/-! How long a comparison is read. -/

def answers (t : τ) (ops : List (Op τ)) : Nat :=
  (ops.filter (fun | .answer u _ => decide (u = t) | _ => false)).length

/-- What others do, and answers to the page that is asked for. -/
def Continues (t : τ) (_ : List (Op τ × Unit)) (panel : Panel τ) : Op τ → Prop
  | .fetch u _ _ => u ≠ t
  | .answer u served => u = t → ∀ f ∈ panel.pending t, ∃ response, served.respond f.request = .ok response
  | .fail u _ => u ≠ t

theorem pending_step_other {past : List (Op τ × Unit)} {op : Op τ} (hop : Continues t past panel op)
    (hother : ∀ served, op ≠ .answer t served) :
    (step errorMessage panel op).2.pending t = panel.pending t ∧ answers t [op] = 0 := by
  have hupdate : ∀ {u : τ} {value : Option Fetch}, u ≠ t →
      Function.update panel.pending u value t = panel.pending t :=
    fun hne => Function.update_of_ne (Ne.symm hne) _ _
  cases op with
  | fetch u runIds silent =>
      refine ⟨?_, rfl⟩
      simp only [step, begin]
      split
      · rfl
      · split
        · rfl
        · exact hupdate hop
  | fail u message =>
      refine ⟨?_, rfl⟩
      simp only [step]
      split
      · exact hupdate hop
      · rfl
  | answer u served =>
      have hne : u ≠ t := fun heq => hother served (heq ▸ rfl)
      refine ⟨?_, by simp [answers, hne]⟩
      simp only [step]
      split
      · simp only [receive]
        split
        · exact hupdate hne
        · split
          · exact hupdate hne
          · split <;> exact hupdate hne
      · rfl

theorem answers_cons (t : τ) (op : Op τ) (ops : List (Op τ)) :
    answers t (op :: ops) = answers t [op] + answers t ops := by
  rw [answers, answers, answers, ← List.length_append, ← List.filter_append, List.singleton_append]

theorem pending_none {past : List (Op τ × Unit)} (h : panel.pending t = none)
    (hops : Guarded (step errorMessage) (Continues t) past panel ops) :
    (after (step errorMessage) panel ops).pending t = none := by
  induction ops generalizing past panel with
  | nil => exact h
  | cons op ops ih =>
      obtain ⟨hop, hrest⟩ := hops
      refine ih ?_ hrest
      by_cases hanswer : ∃ served, op = .answer t served
      · obtain ⟨served, rfl⟩ := hanswer
        simp only [step, h]
      · rw [(pending_step_other errorMessage hop (fun served heq => hanswer ⟨served, heq⟩)).1, h]

theorem pending_after {past : List (Op τ × Unit)} (hids : f.ids.Nodup) (hf : panel.pending t = some f)
    (hoffset : f.offset < f.ids.length) (hops : Guarded (step errorMessage) (Continues t) past panel ops) :
    ((after (step errorMessage) panel ops).pending t).isSome ↔
      f.offset + comparePageSize * answers t ops < f.ids.length := by
  induction ops generalizing past panel f with
  | nil => simpa [answers, hf] using hoffset
  | cons op ops ih =>
      obtain ⟨hop, hrest⟩ := hops
      rw [after_cons, answers_cons, Nat.mul_add]
      by_cases hanswer : ∃ served, op = .answer t served
      · obtain ⟨served, rfl⟩ := hanswer
        obtain ⟨response, hr⟩ := hop rfl f hf
        obtain ⟨hmap, htotal, -⟩ := respond_ok hr hids
        have hlen : response.runs.length = min comparePageSize (f.ids.length - f.offset) := by
          rw [← List.length_map RunCompareData.runId, hmap, List.length_take, List.length_drop]
        have hone : answers t [Op.answer t served] = 1 := by simp [answers]
        have hsize : comparePageSize = 200 := rfl
        have hmore : response.runs ≠ [] := by
          apply List.length_pos_iff.mp
          omega
        rw [hone, Nat.mul_one]
        by_cases hlast : (f.extend response).offset < (f.extend response).total
        · have hnext : (step errorMessage panel (.answer t served)).2.pending t = some (f.extend response) := by
            simp [step, hf, hr, receive, hmore, hlast]
          have hlater := ih (f := f.extend response) hids hnext (by simpa [Fetch.extend, htotal] using hlast) hrest
          rw [hlater]
          simp only [Fetch.extend, htotal] at hlast ⊢
          omega
        · have hnext : (step errorMessage panel (.answer t served)).2.pending t = none := by
            simp [step, hf, hr, receive, hmore, hlast, finish]
          rw [pending_none errorMessage hnext hrest]
          simp only [Fetch.extend, htotal] at hlast
          simp only [Option.isSome_none, Bool.false_eq_true, false_iff]
          omega
      · obtain ⟨hsame, hzero⟩ := pending_step_other errorMessage hop
          (fun served heq => hanswer ⟨served, heq⟩)
        rw [ih hids (hsame.trans hf) hoffset hrest, hzero, Nat.mul_zero, Nat.zero_add]

/-- A comparison of `n` runs takes a page for every 200 of them, whatever others are read beside it. -/
theorem fetch_pages (runIds : List String) (silent : Bool) (hnew : panel.pending t = none)
    (hids : normalizeRunIds [] runIds ≠ [])
    (hops : Guarded (step errorMessage) (Continues t) [] (step errorMessage panel (.fetch t runIds silent)).2 ops) :
    ((after (step errorMessage) panel (.fetch t runIds silent :: ops)).pending t).isSome ↔
      comparePageSize * answers t ops < (normalizeRunIds [] runIds).length := by
  have hbegun : (step errorMessage panel (.fetch t runIds silent)).2.pending t =
      some ⟨normalizeRunIds [] runIds, silent, [], 0, (normalizeRunIds [] runIds).length⟩ := by
    simp [step, hnew, begin, hids]
  have h := pending_after errorMessage (nodup_normalizeRunIds [] runIds) hbegun (List.length_pos_iff.mpr hids) hops
  rwa [Nat.zero_add] at h

theorem fetch_pages_one :
    ((after (step (fun _ => "")) (Panel.initial : Panel Nat) [.fetch 0 ["a"] false,
      .answer 0 servedTwo]).pending 0).isSome ↔
      comparePageSize * answers 0 [.answer 0 servedTwo] < (normalizeRunIds [] ["a"]).length := by
  apply fetch_pages (fun _ => "") ["a"] false rfl (by decide +kernel)
  refine ⟨?_, trivial⟩
  rintro - f hf
  obtain rfl : f = ⟨normalizeRunIds [] ["a"], false, [], 0, (normalizeRunIds [] ["a"]).length⟩ := by
    refine (Option.some.inj ?_).symm
    rw [← show _ = some f from hf]
    rfl
  exact ⟨_, rfl⟩

end MLRunX.CompareClient
