import MLRunX.IngestPipeline
import MLRunX.MutatorAtomicity
import MLRunX.RunServer

namespace MLRunX.RunCounters

open Commands Http Ingest Processor RunInit RunServer RunTables Runs Sqlite Statements Tables

def metricRowCount (db : Database) (runId : String) : Nat := (db.metrics.filter (fun m => m.1 == runId)).length

def paramRowCount (db : Database) (runId : String) : Nat := (db.params.select (fun p => p.runId == runId)).length

/-- The counters of every run are the numbers of its rows. -/
structure CountersMatch (db : Database) : Prop where
  metrics : ∀ run ∈ db.runs.rows, run.metricsCount = metricRowCount db run.id
  params : ∀ run ∈ db.runs.rows, run.paramsCount = paramRowCount db run.id

def HasRun (db : Database) (runId : String) : Prop := ∃ run ∈ db.runs.rows, run.id = runId

structure Counted (db : Database) : Prop extends CountersMatch db where
  metricOwners : ∀ m ∈ db.metrics, HasRun db m.1
  paramOwners : ∀ p ∈ db.params.rows, HasRun db p.runId

variable {db db' : Database} {runId : String}

theorem hasRun_iff : HasRun db runId ↔ (db.findRun runId).isSome := by
  simp [HasRun, Database.findRun, Table.find, List.find?_isSome]

theorem metricRowCount_congr (h : db'.metrics = db.metrics) (id : String) :
    metricRowCount db' id = metricRowCount db id := by
  rw [metricRowCount, h, metricRowCount]

theorem Counted.congr (h : Counted db) (hruns : db'.runs = db.runs) (hmetrics : db'.metrics = db.metrics)
    (hparams : db'.params.rows = db.params.rows) : Counted db' where
  metrics run hrun := by rw [metricRowCount_congr hmetrics, h.metrics run (hruns ▸ hrun)]
  params run hrun := by rw [paramRowCount, Table.select, hparams, h.params run (hruns ▸ hrun),
    paramRowCount, Table.select]
  metricOwners m hm := by
    obtain ⟨run, hrun, hid⟩ := h.metricOwners m (hmetrics ▸ hm)
    exact ⟨run, hruns ▸ hrun, hid⟩
  paramOwners p hp := by
    obtain ⟨run, hrun, hid⟩ := h.paramOwners p (hparams ▸ hp)
    exact ⟨run, hruns ▸ hrun, hid⟩

theorem counted_empty : Counted .empty where
  metrics _ h := absurd h List.not_mem_nil
  params _ h := absurd h List.not_mem_nil
  metricOwners _ h := absurd h List.not_mem_nil
  paramOwners _ h := absurd h List.not_mem_nil

section Rows

theorem hasRun_setRun {g : RunRow → RunRow} {hid : ∀ r, (g r).id = r.id} {id : String} :
    HasRun (db.setRun runId g hid) id ↔ HasRun db id := by
  simp only [HasRun, Database.setRun, rows_update, List.mem_map, exists_exists_and_eq_and,
    setWhere_keeps RunRow.id hid]

theorem mem_setRun {g : RunRow → RunRow} {hid : ∀ r, (g r).id = r.id} {run : RunRow}
    (h : run ∈ (db.setRun runId g hid).runs.rows) :
    ∃ old ∈ db.runs.rows, run.id = old.id ∧
      (old.id = runId ∧ run = g old ∨ old.id ≠ runId ∧ run = old) := by
  obtain ⟨old, hold, rfl⟩ := List.mem_map.mp h
  refine ⟨old, hold, setWhere_keeps RunRow.id hid old, ?_⟩
  by_cases hrun : old.id = runId
  · exact .inl ⟨hrun, by simp [setWhere, hrun]⟩
  · exact .inr ⟨hrun, by simp [setWhere, hrun]⟩

theorem select_replace_length {ρ : Type} {clash : ρ → ρ → Prop} [DecidableRel clash] {t : Table ρ clash}
    {new old : ρ}
    {p : ρ → Bool} (hold : old ∈ t.rows) (hclash : clash old new)
    (hone : ∀ a b, clash a new → clash b new → clash a b ∧ p a = p b) (hnew : p old = p new) :
    ((t.replace new).select p).length = (t.select p).length := by
  obtain ⟨front, back, hrows⟩ := List.append_of_mem hold
  have hapart := t.apart
  rw [hrows] at hapart
  obtain ⟨-, hback, hfront⟩ := List.pairwise_append.mp hapart
  have hother : ∀ r ∈ front ++ back, ¬ clash r new := by
    intro r hr hrnew
    rcases List.mem_append.mp hr with hr | hr
    · exact hfront r hr old List.mem_cons_self (hone r old hrnew hclash).1
    · exact (List.pairwise_cons.mp hback).1 r hr (hone old r hclash hrnew).1
  have hkept : t.rows.filter (fun r => ¬ clash r new) = front ++ back := by
    rw [hrows, List.filter_append, List.filter_cons, if_neg (by simpa using hclash), ← List.filter_append]
    exact List.filter_eq_self.mpr (fun r hr => decide_eq_true (hother r hr))
  change ((t.rows.filter (fun r => ¬ clash r new) ++ [new]).filter p).length = (t.rows.filter p).length
  rw [hkept, hrows]
  simp only [List.filter_append, List.length_append, List.filter_cons, hnew, List.filter_nil]
  split
  · simp only [List.length_cons, List.length_nil]
    omega
  · simp

theorem paramRowCount_setParam_present {param : String × String}
    (h : ∃ row ∈ db.params.rows, row.runId = runId ∧ row.name = param.1) (id : String) :
    paramRowCount (db.setParam runId param) id = paramRowCount db id := by
  obtain ⟨row, hrow, hrun, hname⟩ := h
  refine select_replace_length hrow ⟨hrun, hname⟩ ?_ (by rw [hrun])
  rintro a b ⟨hrun, hname⟩ ⟨hrun', hname'⟩
  exact ⟨⟨hrun.trans hrun'.symm, hname.trans hname'.symm⟩, by rw [hrun, hrun']⟩

theorem paramRowCount_setParam_other {param : String × String} {id : String} (h : id ≠ runId) :
    paramRowCount (db.setParam runId param) id = paramRowCount db id := by
  simp only [paramRowCount, Database.setParam, Table.select, Table.replace, List.filter_append, List.filter_filter]
  have hnew : ([⟨runId, param.1, param.2⟩] : List ParamRow).filter (fun p => p.runId == id) = [] := by
    simp [Ne.symm h]
  rw [hnew, List.append_nil]
  congr 1
  apply List.filter_congr
  intro r _
  by_cases hr : r.runId = id
  · simp [hr, ParamRow.clash, h]
  · simp [hr]

theorem paramRowCount_setParams_other (params : List (String × String)) {id : String} (h : id ≠ runId)
    (db : Database) :
    paramRowCount (db.setParams runId params) id = paramRowCount db id := by
  induction params generalizing db with
  | nil => rfl
  | cons param params ih =>
      calc paramRowCount (db.setParams runId (param :: params)) id
          = paramRowCount (db.setParam runId param) id := ih (db.setParam runId param)
        _ = paramRowCount db id := paramRowCount_setParam_other h

theorem mem_setParam {param : String × String} {row : ParamRow} (h : row ∈ (db.setParam runId param).params.rows) :
    row ∈ db.params.rows ∨ row.runId = runId := by
  rcases List.mem_append.mp h with h | h
  · exact .inl (List.mem_filter.mp h).1
  · exact .inr (by rw [List.mem_singleton.mp h])

theorem mem_setParams {params : List (String × String)} {row : ParamRow} {db : Database}
    (h : row ∈ (db.setParams runId params).params.rows) : row ∈ db.params.rows ∨ row.runId = runId := by
  induction params generalizing db with
  | nil => exact .inl h
  | cons param params ih =>
      rcases @ih (db.setParam runId param) h with h | h
      · exact mem_setParam h
      · exact .inr h

end Rows

theorem counted_setParam (h : Counted db) {param : String × String}
    (hrow : ∃ row ∈ db.params.rows, row.runId = runId ∧ row.name = param.1) :
    Counted (db.setParam runId param) where
  metrics := h.metrics
  params run hrun := by rw [paramRowCount_setParam_present hrow, h.params run hrun]
  metricOwners := h.metricOwners
  paramOwners row hmem := by
    rcases mem_setParam hmem with hmem | hmem
    · exact h.paramOwners row hmem
    · obtain ⟨old, hold, hrun, -⟩ := hrow
      rw [hmem, ← hrun]
      exact h.paramOwners old hold

theorem runs_setParams (params : List (String × String)) (db : Database) :
    (db.setParams runId params).runs = db.runs ∧ (db.setParams runId params).metrics = db.metrics := by
  induction params generalizing db with
  | nil => exact ⟨rfl, rfl⟩
  | cons param params ih => exact ih (db.setParam runId param)

theorem counted_countParams (h : Counted db) (hrun : HasRun db runId) (params : List (String × String)) :
    Counted ((db.setParams runId params).countParams runId) := by
  obtain ⟨hruns, hmetrics⟩ := @runs_setParams runId params db
  have howner : ∀ id, HasRun db id → HasRun ((db.setParams runId params).countParams runId) id := by
    rintro id ⟨run, hmem, hid⟩
    exact hasRun_setRun.mpr ⟨run, hruns.symm ▸ hmem, hid⟩
  refine ⟨⟨fun run hmem => ?_, fun run hmem => ?_⟩, fun m hm => ?_, fun p hp => ?_⟩
  · have hcount := @metricRowCount_congr db ((db.setParams runId params).countParams runId) hmetrics
    obtain ⟨old, hold, hid, ⟨-, rfl⟩ | ⟨-, rfl⟩⟩ := mem_setRun hmem
    · rw [hcount]
      exact h.metrics old (hruns ▸ hold)
    · rw [hcount]
      exact h.metrics run (hruns ▸ hold)
  · obtain ⟨old, hold, hid, ⟨hrun', rfl⟩ | ⟨hrun', rfl⟩⟩ := mem_setRun hmem
    · exact congrArg (fun id => (paramRowCount (db.setParams runId params) id : Int)) hrun'.symm
    · rw [h.params run (hruns ▸ hold), ← paramRowCount_setParams_other params hrun']
      rfl
  · exact howner m.1 (h.metricOwners m (hmetrics ▸ hm))
  · rcases mem_setParams hp with hp | hp
    · exact howner _ (h.paramOwners p hp)
    · exact howner _ (hp ▸ hrun)

theorem counted_addMetrics (h : Counted db) (hrun : HasRun db runId) (metrics : List MetricRow) :
    Counted ((db.addMetrics runId metrics).countMetrics runId metrics.length) := by
  have hcount : ∀ id, metricRowCount ((db.addMetrics runId metrics).countMetrics runId metrics.length) id =
      metricRowCount db id + if id = runId then metrics.length else 0 := by
    intro id
    change ((db.metrics ++ metrics.map (fun metric => (runId, metric))).filter (fun m => m.1 == id)).length = _
    rw [List.filter_append, List.length_append, List.filter_map, List.length_map]
    by_cases hid : id = runId
    · simp [metricRowCount, hid, Function.comp_def]
    · simp [metricRowCount, hid, Function.comp_def, Ne.symm hid]
  refine ⟨⟨fun run hmem => ?_, fun run hmem => ?_⟩, fun m hm => ?_, fun p hp =>
    hasRun_setRun.mpr (h.paramOwners p hp)⟩
  · obtain ⟨old, hold, hid, ⟨hrun', rfl⟩ | ⟨hrun', rfl⟩⟩ := mem_setRun hmem
    · simp [hcount, hrun', h.metrics old hold]
    · simp [hcount, hrun', h.metrics run hold]
  · obtain ⟨old, hold, hid, ⟨-, rfl⟩ | ⟨-, rfl⟩⟩ := mem_setRun hmem
    · exact h.params old hold
    · exact h.params run hold
  · rcases List.mem_append.mp hm with hm | hm
    · exact hasRun_setRun.mpr (h.metricOwners m hm)
    · obtain ⟨metric, -, rfl⟩ := List.mem_map.mp hm
      exact hasRun_setRun.mpr hrun

theorem counted_addRun (h : Counted db) {row : RunRow} {runs : Table RunRow RunRow.clash}
    (hinsert : db.runs.insert row = some runs) (hmetrics : row.metricsCount = 0) (hparams : row.paramsCount = 0) :
    Counted { db with runs } ∧ HasRun { db with runs } row.id := by
  obtain ⟨hrows, hfresh⟩ := insert_eq_some hinsert
  have hnew : ∀ id, HasRun db id → id ≠ row.id := by
    rintro id ⟨run, hrun, rfl⟩
    exact hfresh run hrun
  have howner : ∀ id, HasRun db id → HasRun { db with runs } id := by
    rintro id ⟨run, hrun, hid⟩
    exact ⟨run, hrows ▸ List.mem_append_left _ hrun, hid⟩
  have hmetricRows : metricRowCount db row.id = 0 := by
    apply List.length_eq_zero_iff.mpr
    exact List.filter_eq_nil_iff.mpr (fun m hm => by simpa using hnew _ (h.metricOwners m hm))
  have hparamRows : paramRowCount db row.id = 0 := by
    apply List.length_eq_zero_iff.mpr
    exact List.filter_eq_nil_iff.mpr (fun p hp => by simpa using hnew _ (h.paramOwners p hp))
  refine ⟨⟨⟨fun run hrun => ?_, fun run hrun => ?_⟩, fun m hm => howner _ (h.metricOwners m hm),
    fun p hp => howner _ (h.paramOwners p hp)⟩, row, hrows ▸ List.mem_append_right _ List.mem_cons_self, rfl⟩
  · rcases List.mem_append.mp (hrows ▸ hrun) with hrun | hrun
    · exact h.metrics run hrun
    · rw [List.mem_singleton.mp hrun, hmetrics]
      exact congrArg Int.ofNat hmetricRows.symm
  · rcases List.mem_append.mp (hrows ▸ hrun) with hrun | hrun
    · exact h.params run hrun
    · rw [List.mem_singleton.mp hrun, hparams]
      exact congrArg Int.ofNat hparamRows.symm

section Programs

def Present (params : Table ParamRow ParamRow.clash) (runId name : String) : Prop :=
  ∃ row ∈ params.rows, row.runId = runId ∧ row.name = name

/-- Of the statements that insert metrics and count them the first is refused or none is. -/
def MetricsSpared (faults : Nat → Option String) (fault : Option String) (metrics : List MetricRow) : Prop :=
  metrics = [] ∨ (faults 0).isSome ∨ (∀ i < metrics.length, faults i = none) ∧ fault = none

/-- No statement that inserts parameters is refused, or none that stores a new one
goes through before. -/
def ParamsSpared (table : Table ParamRow ParamRow.clash) (runId : String) (faults : Nat → Option String)
    (params : List (String × String)) : Prop :=
  (∀ i ≤ params.length, faults i = none) ∨
    ∃ j ≤ params.length, (faults j).isSome ∧ ∀ param ∈ params.take j, Present table runId param.1

/-- The metrics of a run are counted with what is written to them, and its
parameters are as they were. -/
structure Owned (runId : String) (table : Table ParamRow ParamRow.clash) (db : Database) : Prop where
  counted : Counted db
  run : HasRun db runId
  params : db.params = table

variable {table : Table ParamRow ParamRow.clash} {faults : Nat → Option String} {fault : Option String}

theorem Owned.congr (h : Owned runId table db) (hruns : db'.runs = db.runs) (hmetrics : db'.metrics = db.metrics)
    (hparams : db'.params = db.params) : Owned runId table db' where
  counted := h.counted.congr hruns hmetrics (congrArg Table.rows hparams)
  run := by
    obtain ⟨run, hrun, hid⟩ := h.run
    exact ⟨run, hruns ▸ hrun, hid⟩
  params := hparams.trans h.params

theorem owned_addMetrics (h : Owned runId table db) (metrics : List MetricRow) :
    Owned runId table ((db.addMetrics runId metrics).countMetrics runId metrics.length) where
  counted := counted_addMetrics h.counted h.run metrics
  run := hasRun_setRun.mpr h.run
  params := h.params

/-- The metrics of a batch are stored, and their count can be. -/
def Uncounted (runId : String) (table : Table ParamRow ParamRow.clash) (metrics : List MetricRow)
    (fault : Option String)
    (db' : Database) : Prop :=
  fault = none ∧ ∃ db, Owned runId table db ∧ db' = db.addMetrics runId metrics

theorem triple_insertMetrics {metrics : List MetricRow} (hne : metrics ≠ [])
    (hspared : MetricsSpared faults fault metrics) :
    Triple (Owned runId table) (insertMetrics faults runId metrics) (fun _ => Uncounted runId table metrics fault)
      (Owned runId table) := by
  constructor
  intro db hdb
  rcases hspared.resolve_left hne with hfirst | ⟨hnone, hcount⟩
  · obtain ⟨text, htext⟩ := Option.isSome_iff_exists.mp hfirst
    cases metrics with
    | nil => exact absurd rfl hne
    | cons metric metrics =>
        simp only [insertMetrics, executeEach, bind, execute, htext]
        exact hdb
  · obtain ⟨n, db', hok⟩ := (completes_insertMetrics runId hnone).exists_ok db
    rw [hok]
    exact ⟨hcount, db, hdb, (insertMetrics_ok hok).2⟩

theorem triple_incrementMetricsCount {metrics : List MetricRow} (hlength : metrics.length ≤ 2 ^ 63 - 1) :
    Triple (Uncounted runId table metrics fault)
      (incrementMetricsCount fault runId (saturate (2 ^ 63 - 1) metrics.length)) (fun _ => Owned runId table)
      (Owned runId table) := by
  constructor
  rintro _ ⟨hcount, db, hdb, rfl⟩
  rw [hcount, saturate, Nat.min_eq_left hlength]
  exact owned_addMetrics hdb metrics

/-- The counters match, and a run has the parameters of a table among others. -/
structure Covered (runId : String) (table : Table ParamRow ParamRow.clash) (db : Database) : Prop where
  counted : Counted db
  run : HasRun db runId
  params : ∀ name, Present table runId name → Present db.params runId name

theorem present_setParam {param : String × String} {name : String} (h : Present db.params runId name) :
    Present (db.setParam runId param).params runId name := by
  obtain ⟨row, hrow, hrun, hname⟩ := h
  by_cases hclash : ParamRow.clash row ⟨runId, param.1, param.2⟩
  · exact ⟨_, List.mem_append_right _ List.mem_cons_self, rfl, hclash.2.symm.trans hname⟩
  · exact ⟨row, List.mem_append_left _ (List.mem_filter.mpr ⟨hrow, decide_eq_true hclash⟩), hrun, hname⟩

theorem covered_setParams {params : List (String × String)}
    (hpresent : ∀ param ∈ params, Present table runId param.1)
    (h : Covered runId table db) : Covered runId table (db.setParams runId params) := by
  induction params generalizing db with
  | nil => exact h
  | cons param params ih =>
      apply @ih (db.setParam runId param) (fun p hp => hpresent p (List.mem_cons_of_mem _ hp))
      exact ⟨counted_setParam h.counted (h.params _ (hpresent param List.mem_cons_self)), h.run,
        fun name hname => present_setParam (h.params name hname)⟩

theorem triple_insertParams {params : List (String × String)} (hspared : ParamsSpared table runId faults params) :
    Triple (Owned runId table) (insertParams faults runId params) (fun _ => Counted) Counted := by
  apply triple_of_after
  intro db hdb
  rcases hspared with hnone | ⟨j, -, hj, hpresent⟩
  · obtain ⟨n, db', hok⟩ := (completes_insertParams runId hnone).exists_ok db
    rw [hok]
    obtain ⟨-, rfl⟩ := insertParams_ok hok
    exact counted_countParams hdb.counted hdb.run params
  · obtain ⟨n, hn, hfold⟩ := executeEach_stops (Database.setParam runId) hj params db
    have hcovered : Covered runId table (executeEach (Database.setParam runId) faults params db).2 := by
      rw [hfold]
      apply covered_setParams
      · exact fun param hparam => hpresent param (List.take_subset_take_left params hn hparam)
      · exact ⟨hdb.counted, hdb.run, fun name hname => hdb.params ▸ hname⟩
    have hrest : ∀ u : Unit, Triple (Covered runId table) (do
        execute (faults params.length) (fun db => .ok ((), db.countParams runId))
        pure params.length : Statement Nat) (fun _ => Counted) Counted := by
      refine fun _ => triple_bind (triple_execute ?_ (fun _ h => h.counted)) (fun _ => triple_pure (fun _ h => h))
      intro db₁ _ db₂ h hcount
      obtain ⟨-, rfl⟩ := Prod.mk.inj (Except.ok.inj hcount)
      exact counted_countParams h.counted h.run []
    have hinsert : Triple (fun db₁ => db₁ = db) (insertParams faults runId params) (fun _ => Counted) Counted := by
      refine triple_bind (triple_weaken (triple_of_after (I := Covered runId table) ?_) (fun _ h => h)
        (fun _ _ h => h) (fun _ h => h.counted)) hrest
      rintro _ rfl
      exact hcovered
    exact hinsert.after (fun _ _ h => h) (fun _ h => h) rfl

theorem keeps_setTags (tags : List (String × String)) : Keeps (Owned runId table) (setTags faults runId tags) :=
  keeps_executeEach faults (fun _ _ _ h => h.congr rfl rfl rfl)

theorem keeps_insertRunEvents (events : List RunEventInput) :
    Keeps Counted (insertRunEvents faults runId events) := by
  refine keeps_bind (keeps_executeEach faults (fun _ _ _ h => h.congr rfl rfl rfl))
    (fun _ => keeps_bind ?_ (fun _ => ?_))
  · exact (leaves_stampRun _ _).keeps (fun s s' (h : s = s') hs => h ▸ hs)
  · exact triple_pure (fun _ hs => hs)

structure PersistSpared (table : Table ParamRow ParamRow.clash) (runId : String) (faults : PersistFaults)
    (metrics : List MetricRow) (params : List (String × String)) : Prop where
  length : metrics.length ≤ 2 ^ 63 - 1
  metrics : MetricsSpared faults.metrics faults.metricsCount metrics
  params : ParamsSpared table runId faults.params params

theorem keeps_persistMetrics {faults : PersistFaults} {metrics : List MetricRow}
    (hlength : metrics.length ≤ 2 ^ 63 - 1)
    (h : MetricsSpared faults.metrics faults.metricsCount metrics) :
    Keeps (Owned runId table) (persistMetrics faults runId metrics) := by
  rw [persistMetrics]
  split
  · exact triple_pure (fun _ hs => hs)
  · exact triple_bind (triple_mapError (triple_insertMetrics ‹_› h))
      (fun _ => triple_mapError (triple_incrementMetricsCount hlength))

theorem triple_persistParams {faults : PersistFaults} {params : List (String × String)}
    (h : ParamsSpared table runId faults.params params) :
    Triple (Owned runId table) (persistParams faults runId params) (fun _ => Counted) Counted := by
  rw [persistParams]
  split
  · exact triple_pure (fun _ hs => hs.counted)
  · exact triple_bind (triple_mapError (triple_insertParams h)) (fun _ => triple_pure (fun _ hs => hs))

theorem triple_persist {faults : PersistFaults} {contents : Contents}
    (h : PersistSpared table runId faults contents.metrics contents.params) :
    Triple (Owned runId table) (persistIngestBatchToSqlite faults runId contents) (fun _ => Counted) Counted := by
  have htags : Keeps (Owned runId table) (persistTags faults runId contents.tags) := by
    rw [persistTags]
    split
    · exact triple_pure (fun _ hs => hs)
    · exact triple_mapError (keeps_setTags contents.tags)
  have hevents : Keeps Counted (persistEvents faults runId contents.events) := by
    rw [persistEvents]
    split
    · exact triple_pure (fun _ hs => hs)
    · exact triple_mapError (keeps_insertRunEvents contents.events)
  have hwarnings : Keeps Counted (persistWarnings faults runId contents.warnings) := by
    rw [persistWarnings]
    split
    · exact triple_pure (fun _ hs => hs)
    · exact keeps_bind (keeps_attempt (keeps_insertRunEvents _)) (fun _ => triple_pure (fun _ hs => hs))
  exact triple_bind ((keeps_persistMetrics h.length h.metrics).fails (fun _ hs => hs.counted)) (fun _ =>
    triple_bind (htags.fails (fun _ hs => hs.counted)) (fun _ => triple_bind (triple_persistParams h.params) (fun _ =>
      keeps_bind hevents (fun _ => keeps_bind hwarnings (fun _ => triple_pure (fun _ hs => hs))))))

end Programs

section Handlers

variable {table : Table ParamRow ParamRow.clash}

structure ProcessSpared (db : Database) (faults : ProcessFaults) (batch : QueuedIngestBatch) : Prop where
  length : batch.metrics.length ≤ 2 ^ 63 - 1
  metrics : MetricsSpared faults.metrics faults.metricsCount batch.metrics
  params : ParamsSpared db.params batch.runId faults.params batch.params

theorem triple_sqlite {α : Type} {P E : Database → Prop} {Q : α → Database → Prop}
    {x : Command Database SqliteError α}
    (h : Triple P x Q E) :
    Triple (fun s : ProcessorStore => P s.db) (sqlite x) (fun a s => Q a s.db) (fun s => E s.db) :=
  triple_mapError (triple_zoom (fun _ _ => rfl) h)

theorem leaves_storePoints (faults : ProcessFaults) (batch : QueuedIngestBatch) :
    Leaves ProcessorStore.db (storePoints faults batch) := by
  rw [storePoints]
  split
  · exact leaves_pure ()
  · constructor
    intro s
    simp only [insertBatch]
    split <;> rfl

theorem triple_applyBatch {faults : ProcessFaults} {batch : QueuedIngestBatch} {db : Database}
    (h : ProcessSpared db faults batch) :
    Triple (fun s => Owned batch.runId db.params s.db) (applyBatch faults batch) (fun _ s => Counted s.db)
      (fun s => Counted s.db) := by
  have hcounted : ∀ s : ProcessorStore, Owned batch.runId db.params s.db → Counted s.db := fun _ hs => hs.counted
  have hmetrics : Keeps (fun s : ProcessorStore => Owned batch.runId db.params s.db) (storeMetrics faults batch) := by
    rw [storeMetrics]
    split
    · exact triple_pure (fun _ hs => hs)
    · exact triple_bind (triple_sqlite (triple_insertMetrics ‹_› h.metrics))
        (fun _ => triple_sqlite (triple_incrementMetricsCount h.length))
  have htags : Keeps (fun s : ProcessorStore => Owned batch.runId db.params s.db) (storeTags faults batch) := by
    rw [storeTags]
    split
    · exact triple_pure (fun _ hs => hs)
    · exact triple_sqlite (keeps_setTags batch.tags)
  have hparams : Triple (fun s : ProcessorStore => Owned batch.runId db.params s.db) (storeParams faults batch)
      (fun _ s => Counted s.db) (fun s => Counted s.db) := by
    rw [storeParams]
    split
    · exact triple_pure hcounted
    · exact triple_bind (triple_sqlite (triple_insertParams h.params)) (fun _ => triple_pure (fun _ hs => hs))
  have hevents : Keeps (fun s : ProcessorStore => Counted s.db) (storeEvents faults batch) := by
    rw [storeEvents]
    split
    · exact triple_pure (fun _ hs => hs)
    · exact keeps_bind (triple_sqlite (keeps_insertRunEvents _)) (fun _ => triple_pure (fun _ hs => hs))
  have hrecord : ∀ row, Leaves ProcessorStore.db (recordBatch faults.recordBatch row) := by
    intro row
    apply leaves_execute
    intro s a s' hwrite
    split at hwrite
    · obtain ⟨-, rfl⟩ := Prod.mk.inj (Except.ok.inj hwrite)
      rfl
    · cases hwrite
  have hleave : ∀ {ε α : Type} {x : Command ProcessorStore ε α} {I : Database → Prop},
    Leaves ProcessorStore.db x →
      Keeps (fun s => I s.db) x := fun hx => hx.keeps (fun _ _ heq hs => heq ▸ hs)
  refine triple_bind (hmetrics.fails hcounted) (fun _ => triple_bind ?_ (fun _ => triple_mapError (hleave (hrecord _))))
  exact triple_bind ((hleave (leaves_storePoints faults batch)).fails hcounted)
    (fun _ => triple_bind (htags.fails hcounted)
    (fun _ => triple_bind hparams (fun _ => hevents)))

theorem counted_processBatch {faults : ProcessFaults} {batch : QueuedIngestBatch} {s : ProcessorStore}
    (hcounted : Counted s.db) (hrun : HasRun s.db batch.runId) (h : ProcessSpared s.db faults batch) :
    Counted (processBatch faults batch s).2.db := by
  by_cases hknown : faults.batchExists = none ∧ QueuedIngest.Known s batch
  · rw [QueuedIngest.processBatch_known hknown.1 hknown.2]
    exact hcounted
  · rw [QueuedIngest.processBatch_new hknown]
    exact (triple_applyBatch h).after (fun _ _ hs => hs) (fun _ hs => hs) ⟨hcounted, hrun, rfl⟩

structure Refused (faults : ProcessFaults) : Prop where
  metrics : (faults.metrics 0).isSome
  tags : (faults.tags 0).isSome
  params : (faults.params 0).isSome
  events : (faults.events 0).isSome
  recordBatch : faults.recordBatch.isSome

theorem leaves_refused {faults : ProcessFaults} (h : Refused faults) (batch : QueuedIngestBatch) :
    Leaves ProcessorStore.db (applyBatch faults batch) := by
  have hstop : ∀ {ρ α β : Type} {write : ρ → Database → Database} {f : Nat →
    Option String} {rows : List ρ},
      (f 0).isSome → rows ≠ [] → ∀ (rest : Unit → Statement α) (last : α → Program β),
        Leaves ProcessorStore.db (sqlite (executeEach write f rows >>= rest) >>= last) := by
    intro ρ α β write f rows hf hne rest last
    constructor
    intro s
    obtain ⟨e, he⟩ := executeEach_refused write hf hne s.db
    simp only [sqlite, bind, mapError, zoom, he]
    rfl
  refine leaves_bind ?_ (fun _ =>
    leaves_bind (leaves_bind ?_ (fun _ => leaves_bind ?_ (fun _ => leaves_bind ?_ (fun _ => ?_))))
    (fun _ => ?_))
  · rw [storeMetrics]
    split
    · exact leaves_pure ()
    · exact hstop h.metrics ‹_› _ _
  · exact leaves_storePoints faults batch
  · rw [storeTags]
    split
    · exact leaves_pure ()
    · constructor
      intro s
      obtain ⟨e, he⟩ := executeEach_refused (Database.setTag batch.runId) h.tags ‹_› s.db
      simp only [sqlite, mapError, zoom, setTags, he]
  · rw [storeParams]
    split
    · exact leaves_pure ()
    · exact hstop h.params ‹_› _ _
  · rw [storeEvents]
    split
    · exact leaves_pure ()
    · exact hstop h.events ‹_› _ _
  · apply leaves_mapError
    constructor
    intro s
    obtain ⟨text, htext⟩ := Option.isSome_iff_exists.mp h.recordBatch
    simp only [recordBatch, htext, execute, statement_some]

theorem leaves_processBatch {faults : ProcessFaults} (h : Refused faults) (batch : QueuedIngestBatch) :
    Leaves ProcessorStore.db (processBatch faults batch) := by
  refine leaves_bind (leaves_attempt (leaves_query _ _)) (fun found => ?_)
  split
  · exact leaves_pure ()
  · exact leaves_refused h batch

theorem counted_processQueued {s : Server} {faults : ProcessFaults} {index : Nat} (hcounted : Counted s.db)
    (h : ∀ batch, s.stream[index]? = some batch → ProcessSpared s.db faults batch) :
    Counted (processQueued faults index s).2.db := by
  rw [processQueued]
  split
  · rename_i batch hbatch
    change Counted (processBatch (ownedFaults s.db batch faults) batch ⟨s.db, s.store.batches, s.points⟩).2.db
    rw [ownedFaults]
    split
    · exact counted_processBatch hcounted (hasRun_iff.mpr ‹_›) (h batch hbatch)
    · have hrefused : Refused (refuseInserts faults) := ⟨rfl, rfl, rfl, rfl, rfl⟩
      rw [(leaves_processBatch hrefused batch).shows]
      exact hcounted
  · exact hcounted

/-- What an ingest may have refused of the statements for its metrics and parameters. -/
def IngestSpared (env : Env) (db : Database) (sent : Sent) (faults : Faults) : Prop :=
  env.queued = false → ∀ batch,
    IngestRequest.validateRequest env.limits.maxTagValueLength sent.request.toPayload = .ok batch →
      PersistSpared db.params sent.request.runId faults.persist batch.metrics batch.params

theorem PersistSpared.filtered {faults : PersistFaults} {runId : String} {metrics : List MetricRow}
    {params : List (String × String)} (h : PersistSpared table runId faults metrics params)
    {metrics' : List MetricRow}
    (hsub : metrics'.length ≤ metrics.length) : PersistSpared table runId faults metrics' params where
  length := hsub.trans h.length
  metrics := by
    rcases h.metrics with hnil | hfirst | ⟨hnone, hcount⟩
    · rw [hnil] at hsub
      exact .inl (List.length_eq_zero_iff.mp (Nat.le_zero.mp hsub))
    · exact .inr (.inl hfirst)
    · exact .inr (.inr ⟨fun i hi => hnone i (hi.trans_le hsub), hcount⟩)
  params := h.params

theorem prepareContents_length (env : Env) (p : Pending) (validation : Cardinality.ValidationResult) :
    (prepareContents env p validation).metrics.length ≤ p.batch.metrics.length :=
  ((List.filter_sublist).trans List.filter_sublist).length_le

theorem counted_settle {env : Env} {faults : Faults} {p : Pending} {db : Database} (hcounted : Counted db)
    (h : env.queued = false → PersistSpared db.params p.sent.request.runId faults.persist p.batch.metrics
      p.batch.params) :
    Triple (fun s : ServerState => s.db = db) (settle env faults p) (fun _ s => Counted s.db) (fun s =>
      Counted s.db) := by
  have hkeep : ∀ {α ε : Type} {x : Command ServerState ε α}, Leaves ServerState.db x →
      Triple (fun s : ServerState => s.db = db) x (fun _ s => s.db = db) (fun s => Counted s.db) :=
    fun hx => (hx.keeps (fun _ _ heq hs => heq ▸ hs)).fails (fun _ hs => hs ▸ hcounted)
  refine triple_bind (hkeep ⟨fun _ => rfl⟩) (fun validation => ?_)
  refine triple_bind (Q := fun run s => s.db = db ∧ HasRun db p.sent.request.runId) ?_ (fun run => ?_)
  · apply triple_mapError
    constructor
    intro s hs
    have hleave : (readRun faults.getRun p.sent.request.runId s).2.db = s.db :=
      congrArg Prod.fst ((IngestPipeline.leaves_readRun faults.getRun p.sent.request.runId).shows s)
    cases hread : readRun faults.getRun p.sent.request.runId s with
    | mk r s' =>
        rw [hread] at hleave
        cases r with
        | error e =>
            change Counted s'.db
            rw [hleave, hs]
            exact hcounted
        | ok run =>
            obtain ⟨db', hget, -⟩ := zoom_eq_ok (mapError_eq_ok hread)
            refine ⟨hleave.trans hs, hasRun_iff.mpr ?_⟩
            rw [← hs, (getRun_ok hget).1]
            rfl
  · apply triple_assume
    intro hrun
    refine triple_bind (hkeep (leaves_mapError (leaves_ofExcept _))) (fun _ => ?_)
    refine triple_bind (triple_mapError (Q := fun _ s => Counted s.db) ?_) (fun _ => triple_pure (fun _ hs => hs))
    rw [deliver]
    split
    · refine (hkeep (leaves_bind (leaves_mapError ⟨fun _ => rfl⟩) (fun _ => leaves_pure _))).after_ok ?_
      exact fun _ _ hs => hs ▸ hcounted
    · rename_i hqueued
      have hspared := (h (by simpa using hqueued)).filtered (prepareContents_length env p validation)
      refine triple_weaken (triple_zoom (fun _ _ => rfl) (triple_persist hspared)) ?_ (fun _ _ hs => hs)
        (fun _ hs => hs)
      rintro s rfl
      exact ⟨hcounted, hrun, rfl⟩

theorem counted_httpIngestBatch {env : Env} {sent : Sent} {fault : Option String} {faults : Faults}
    {s : ServerState}
    (hcounted : Counted s.db) (h : IngestSpared env s.db sent faults) :
    Counted (httpIngestBatch env sent fault faults s).2.db := by
  have hleave : (receive env sent fault s).2.db = s.db :=
    congrArg Prod.fst ((IngestPipeline.leaves_receive env sent fault).shows s)
  have hcases := receive_cases env sent fault s
  cases hreceive : receive env sent fault s with
  | mk r s₁ =>
      rw [hreceive] at hleave hcases
      have hdb : s₁.db = s.db := hleave
      cases r with
      | error e =>
          simp only [httpIngestBatch, bind, mapError, hreceive]
          exact hdb ▸ hcounted
      | ok admitted =>
          rw [httpIngestBatch, bind_ok (mapError_ok hreceive)]
          cases admitted with
          | duplicate => exact hdb ▸ hcounted
          | process p =>
              obtain ⟨hsent, hbatch, -⟩ := hcases
              refine (counted_settle hcounted (fun hqueued => ?_)).after (fun _ _ hs => hs) (fun _ hs => hs) hdb
              rw [hsent]
              exact h hqueued p.batch hbatch

/-- What a run initialisation may have refused of the statements for its parameters. -/
def InitSpared (db : Database) (env : InitEnv) (req : InitRunHttpRequest) : Prop :=
  ∀ params, req.config.mapM validateInitParam = .ok params → HasRun db (req.runId.getD env.generatedId) ∨
    ParamsSpared db.params (req.runId.getD env.generatedId) env.faults.params params

theorem triple_createRun {db : Database} (hcounted : Counted db) {fault : Option String} {runId projectId : String}
    {name createdByKeyId createdByUserId : Option String} :
    Triple (fun db' => db' = db) (createRun fault runId projectId name createdByKeyId createdByUserId)
      (fun _ db' => Owned runId db.params db' ∧ ¬ HasRun db runId) Counted := by
  refine triple_execute ?_ (fun _ hdb => hdb ▸ hcounted)
  rintro _ _ db' rfl hinsert
  split at hinsert
  · rename_i runs hruns
    obtain ⟨-, rfl⟩ := Prod.mk.inj (Except.ok.inj hinsert)
    obtain ⟨hadded, hrun⟩ := counted_addRun hcounted hruns rfl rfl
    refine ⟨⟨hadded, hrun, rfl⟩, ?_⟩
    rintro ⟨run, hmem, hid⟩
    exact (insert_eq_some hruns).2 run hmem hid
  · cases hinsert

theorem triple_insertRun {auth : Auth.AuthContext} {env : InitEnv} {db : Database} (hcounted : Counted db)
    {runId projectId : String} {name : Option String} {tags params : List (String × String)}
    (h : HasRun db runId ∨ ParamsSpared db.params runId env.faults.params params) :
    Triple (fun s : MetadataStore => s.db = db) (insertRun auth env runId projectId name tags params)
      (fun _ s => Counted s.db) (fun s => Counted s.db) := by
  have hdb : ∀ {α : Type} {P E : Database → Prop} {Q : α → Database → Prop} {x : Statement α},
    Triple P x Q E →
      Triple (fun s : MetadataStore => P s.db) (internal (RunInit.onDb x)) (fun a s => Q a s.db) (fun s => E s.db) :=
    fun hx => triple_mapError (triple_zoom (fun _ _ => rfl) hx)
  have howned : ∀ db', Owned runId db.params db' → Counted db' := fun _ hdb => hdb.counted
  refine triple_bind (hdb (triple_createRun hcounted)) (fun _ => triple_assume (fun hnew => ?_))
  have hspared := h.resolve_left hnew
  have hstamp : Triple (fun s : MetadataStore => Owned runId db.params s.db) (RunInit.stampRun env runId)
      (fun _ s => Owned runId db.params s.db) (fun s => Counted s.db) := ⟨fun _ hs => hs⟩
  have htags : Keeps (Owned runId db.params) (if tags.isEmpty then pure () else
      setTags env.faults.tags runId tags) := by
    split
    · exact triple_pure (fun _ hs => hs)
    · exact keeps_setTags tags
  have hparams : Triple (Owned runId db.params)
      (if params.isEmpty then pure 0 else insertParams env.faults.params runId params) (fun _ => Counted) Counted := by
    split
    · exact triple_pure howned
    · exact triple_insertParams hspared
  have hevent : Keeps (fun s : MetadataStore => Counted s.db) (insertInitEvent env runId) :=
    keeps_attempt (triple_zoom (fun _ _ => rfl) (keeps_insertRunEvents _))
  exact triple_bind hstamp (fun _ => triple_bind (hdb (htags.fails howned)) (fun _ => triple_bind (hdb hparams)
    (fun _ => keeps_bind hevent (fun _ => triple_pure (fun _ hs => hs)))))

theorem counted_httpInitRun {flags : Auth.EndpointRbacTier → Bool} {maxTagValueLen : Nat} {auth : Auth.AuthContext}
    {env : InitEnv} {req : InitRunHttpRequest} {s : MetadataStore} (hcounted : Counted s.db)
    (h : InitSpared s.db env req) : Counted (httpInitRun flags maxTagValueLen auth env req s).2.db := by
  have hkeep : ∀ {α ε : Type} {x : Command MetadataStore ε α}, Leaves MetadataStore.db x →
      Triple (fun s' : MetadataStore => s'.db = s.db) x (fun _ s' => s'.db = s.db) (fun s' => Counted s'.db) :=
    fun hx => (hx.keeps (fun _ _ heq hs => heq ▸ hs)).fails (fun _ hs => hs ▸ hcounted)
  have hend : ∀ {α ε : Type} {x : Command MetadataStore ε α}, Leaves MetadataStore.db x →
      Triple (fun s' : MetadataStore => s'.db = s.db) x (fun _ s' => Counted s'.db) (fun s' => Counted s'.db) :=
    fun hx => (hkeep hx).after_ok (fun _ _ hs => hs ▸ hcounted)
  have hinit : Triple (fun s' : MetadataStore => s'.db = s.db) (httpInitRun flags maxTagValueLen auth env req)
      (fun _ s' => Counted s'.db) (fun s' => Counted s'.db) := by
    refine triple_bind (hkeep (leaves_attempt ⟨fun _ => rfl⟩)) (fun found => ?_)
    split
    · exact hend (leaves_existing _ _ _ _)
    · refine triple_bind (hkeep ?_) (fun projectId => triple_bind (hkeep (leaves_ofExcept _)) (fun _ =>
        triple_bind (hkeep (leaves_ofExcept _)) (fun _ => triple_bind (hkeep (leaves_ofExcept _)) (fun tags => ?_))))
      · exact leaves_resolveProject _ _
      · refine triple_bind (triple_ofExcept (Q := fun params s' => s'.db = s.db ∧
          req.config.mapM validateInitParam = .ok params) (fun params s' hok hs => ⟨hs, hok⟩)
          (fun _ hs => hs ▸ hcounted)) (fun params => triple_assume (fun hparams => ?_))
        exact triple_insertRun hcounted (h params hparams)
  exact hinit.after (fun _ _ hs => hs) (fun _ hs => hs) rfl

/-- Where a deletion is stopped, the rows that are gone by then are none. -/
def DeleteSpared (db : Database) (faults : Nat → Option String) (runId : String) : Prop :=
  ∀ j < 8, (faults j).isSome → (∀ i < j, faults i = none) →
    (3 ≤ j → metricRowCount db runId = 0) ∧ (6 ≤ j → paramRowCount db runId = 0)

theorem counted_deleted {db : Database} (h : Counted db) {runId : String} {runs : Table RunRow RunRow.clash}
    {metrics : List (String × MetricRow)} {params : Table ParamRow ParamRow.clash}
    (hruns : runs.rows = db.runs.rows.filter (fun r => !(r.id == runId)))
    (hmetrics : metrics = db.metrics.filter (fun m => !(m.1 == runId)))
    (hparams : params.rows = db.params.rows.filter (fun p => !(p.runId == runId))) {db' : Database}
    (hdb : db'.runs = runs ∧ db'.metrics = metrics ∧ db'.params = params) : Counted db' := by
  obtain ⟨rfl, rfl, rfl⟩ := hdb
  have hkept : ∀ run ∈ db'.runs.rows, run ∈ db.runs.rows ∧ run.id ≠ runId := by
    intro run hrun
    rw [hruns] at hrun
    simpa using hrun
  have howner : ∀ id, id ≠ runId → HasRun db id → HasRun db' id := by
    rintro id hne ⟨run, hrun, rfl⟩
    exact ⟨run, hruns ▸ List.mem_filter.mpr ⟨hrun, by simpa using hne⟩, rfl⟩
  have hsame : ∀ id, id ≠ runId → metricRowCount db' id = metricRowCount db id ∧
      paramRowCount db' id = paramRowCount db id := by
    intro id hne
    rw [metricRowCount, hmetrics, paramRowCount, Table.select, hparams, List.filter_filter, List.filter_filter]
    refine ⟨congrArg List.length (List.filter_congr fun m _ => ?_),
      congrArg List.length (List.filter_congr fun p _ => ?_)⟩
    · by_cases hm : m.1 = id <;> simp [hm, hne]
    · by_cases hp : p.runId = id <;> simp [hp, hne]
  refine ⟨⟨fun run hrun => ?_, fun run hrun => ?_⟩, fun m hm => ?_, fun p hp => ?_⟩
  · obtain ⟨hmem, hne⟩ := hkept run hrun
    rw [(hsame run.id hne).1, h.metrics run hmem]
  · obtain ⟨hmem, hne⟩ := hkept run hrun
    rw [(hsame run.id hne).2, h.params run hmem]
  · rw [hmetrics] at hm
    obtain ⟨hmem, hne⟩ := List.mem_filter.mp hm
    exact howner m.1 (by simpa using hne) (h.metricOwners m hmem)
  · rw [hparams] at hp
    obtain ⟨hmem, hne⟩ := List.mem_filter.mp hp
    exact howner p.runId (by simpa using hne) (h.paramOwners p hmem)

theorem counted_deleteRun {s : Mutators.SqliteStore} {faults : Nat → Option String} {runId : String}
    (hcounted : Counted s.runTables) (h : DeleteSpared s.runTables faults runId) :
    Counted (Mutators.deleteRun runId faults s).2.runTables := by
  have hrows : (Mutators.deleteRun runId faults s).2 = (Mutators.deleteRunRows runId faults s).2 := by
    refine bind_leaves id (fun changes => ?_) s
    split
    · exact leaves_fail _
    · exact leaves_pure _
  obtain ⟨k, hk, hnone, hsome, hwritten⟩ :=
    Atomicity.written_writes id faults (MutatorAtomicity.runDeletes runId) s
  rw [hrows, (MutatorAtomicity.runs_deleteRunRows runId faults).state, hwritten]
  have hmetrics : metricRowCount s.runTables runId = 0 →
      s.runTables.metrics.filter (fun m => !(m.1 == runId)) = s.runTables.metrics := by
    intro hzero
    have hnil := List.filter_eq_nil_iff.mp (List.length_eq_zero_iff.mp hzero)
    exact List.filter_eq_self.mpr (fun m hm => by simpa using hnil m hm)
  have hparams : paramRowCount s.runTables runId = 0 →
      s.runTables.params.rows.filter (fun p => !(p.runId == runId)) = s.runTables.params.rows := by
    intro hzero
    have hnil := List.filter_eq_nil_iff.mp (List.length_eq_zero_iff.mp hzero)
    exact List.filter_eq_self.mpr (fun p hp => by simpa using hnil p hp)
  by_cases hall : k = 8
  · subst hall
    exact counted_deleted hcounted rfl rfl rfl ⟨rfl, rfl, rfl⟩
  · have hlt : k < 8 := Nat.lt_of_le_of_ne hk hall
    obtain ⟨hm, hp⟩ := h k hlt (hsome hlt) hnone
    obtain rfl | rfl | rfl | rfl | rfl | rfl | rfl | rfl : k = 0 ∨ k = 1 ∨ k = 2 ∨ k = 3 ∨ k = 4 ∨ k = 5 ∨
        k = 6 ∨ k = 7 := by
      omega
    · exact hcounted.congr rfl rfl rfl
    · exact hcounted.congr rfl rfl rfl
    · exact hcounted.congr rfl rfl rfl
    · exact hcounted.congr rfl (hmetrics (hm (by decide))) rfl
    · exact hcounted.congr rfl (hmetrics (hm (by decide))) rfl
    · exact hcounted.congr rfl (hmetrics (hm (by decide))) rfl
    · exact hcounted.congr rfl (hmetrics (hm (by decide))) (hparams (hp (by decide)))
    · exact hcounted.congr rfl (hmetrics (hm (by decide))) (hparams (hp (by decide)))

theorem counted_setStatus {db : Database} (h : Counted db) (runId status : String) :
    Counted (db.setRun runId (fun r => { r with status }) (fun _ => rfl)) where
  metrics run hmem := by
    obtain ⟨old, hold, hid, ⟨-, rfl⟩ | ⟨-, rfl⟩⟩ := mem_setRun hmem
    · exact h.metrics old hold
    · exact h.metrics run hold
  params run hmem := by
    obtain ⟨old, hold, hid, ⟨-, rfl⟩ | ⟨-, rfl⟩⟩ := mem_setRun hmem
    · exact h.params old hold
    · exact h.params run hold
  metricOwners m hm := hasRun_setRun.mpr (h.metricOwners m hm)
  paramOwners p hp := hasRun_setRun.mpr (h.paramOwners p hp)

theorem keeps_onDb {ε α : Type} {x : Command Database ε α} (h : Keeps Counted x) :
    Keeps (fun s : Server => Counted s.db) (RunServer.onDb x) := triple_zoom (fun _ _ => rfl) h

theorem keeps_getRun (fault : Option String) (runId : String) : Keeps Counted (getRun fault runId) :=
  (leaves_getRun fault runId).keeps (fun s s' (h : s = s') hs => h ▸ hs)

theorem keeps_check {ε α : Type} (r : Except ε α) : Keeps (fun s : Server => Counted s.db) (ofExcept r) :=
  (leaves_ofExcept r).keeps (fun s s' (h : s = s') hs => h ▸ hs)

theorem keeps_httpFinishRun {flags : Auth.EndpointRbacTier → Bool} {auth : Auth.AuthContext} {env : FinishEnv}
    {runId status : String} : Keeps (fun s => Counted s.db) (httpFinishRun flags auth env runId status) := by
  have hfinish : Keeps Counted (finishRun env.faults.finishRun runId status) := by
    apply keeps_execute
    intro db _ db' hdb hset
    obtain ⟨-, rfl⟩ := Prod.mk.inj (Except.ok.inj hset)
    exact counted_setStatus hdb runId status
  refine keeps_bind (keeps_check _) (fun _ =>
    keeps_bind (triple_mapError (keeps_onDb (keeps_getRun _ _))) (fun run => ?_))
  refine keeps_bind (keeps_check _) (fun _ =>
    keeps_bind (keeps_check _) (fun _ => keeps_bind (keeps_check _) (fun _ => ?_)))
  refine keeps_bind (keeps_check _) (fun _ => keeps_bind (triple_mapError (keeps_onDb hfinish)) (fun _ => ?_))
  refine keeps_bind ⟨fun _ hs => hs⟩ (fun _ => keeps_bind ?_ (fun _ => triple_pure (fun _ hs => hs)))
  exact keeps_attempt (keeps_onDb (keeps_insertRunEvents _))

theorem counted_httpDeleteRun {flags : Auth.EndpointRbacTier → Bool} {auth : Auth.AuthContext}
    {faults : DeleteFaults}
    {runId : String} {s : Server} (hcounted : Counted s.db) (h : DeleteSpared s.db faults.deleteRun runId) :
    Counted (httpDeleteRun flags auth faults runId s).2.db := by
  have hkeep : ∀ {α ε : Type} {x : Command Server ε α}, Leaves Server.store x →
      Triple (fun s' : Server => s'.store = s.store) x (fun _ s' => s'.store = s.store) (fun s' => Counted s'.db) :=
    fun hx => (hx.keeps (fun _ _ heq hs => heq ▸ hs)).fails (fun s' hs => by
      change Counted s'.store.runTables
      rw [hs]
      exact hcounted)
  have hread : Leaves Server.store (mapError runError (RunServer.onDb (getRun faults.getRun runId))) := by
    constructor
    intro s'
    have hsame : (getRun faults.getRun runId s'.store.runTables).2 = s'.store.runTables :=
      (leaves_getRun faults.getRun runId).shows s'.store.runTables
    change { s'.store with runTables := (getRun faults.getRun runId s'.store.runTables).2 } = s'.store
    rw [hsame]
  have hdelete : Triple (fun s' : Server => s'.store = s.store) (httpDeleteRun flags auth faults runId)
      (fun _ s' => Counted s'.db) (fun s' => Counted s'.db) := by
    refine triple_bind (hkeep (leaves_ofExcept _)) (fun _ => triple_bind (hkeep hread) (fun run => ?_))
    refine triple_bind (hkeep (leaves_ofExcept _)) (fun _ => triple_bind (hkeep (leaves_ofExcept _)) (fun _ => ?_))
    refine triple_bind (hkeep (leaves_ofExcept _)) (fun _ => triple_mapError (triple_of_after ?_))
    intro s' hs'
    change Counted (Mutators.deleteRun runId faults.deleteRun s'.store).2.runTables
    rw [hs']
    exact counted_deleteRun hcounted h
  exact hdelete.after (fun _ _ hs => hs) (fun _ hs => hs) rfl

end Handlers

/-- No statement that is refused comes between rows and their count. -/
def Spared (env : Env) (_ : List (Op × Reply)) (s : Server) : Op → Prop
  | .init _ initEnv req => InitSpared s.db initEnv req
  | .ingest sent _ faults => IngestSpared env s.db sent faults
  | .process faults index => ∀ batch, s.stream[index]? = some batch → ProcessSpared s.db faults batch
  | .finish _ _ _ _ => True
  | .delete _ faults runId => DeleteSpared s.db faults.deleteRun runId

theorem counted_step {env : Env} {past : List (Op × Reply)} {s : Server} {op : Op} (hcounted : Counted s.db)
    (h : Spared env past s op) : Counted (step env s op).2.db := by
  cases op with
  | init auth initEnv req => exact counted_httpInitRun hcounted h
  | ingest sent fault faults => exact counted_httpIngestBatch hcounted h
  | process faults index => exact counted_processQueued hcounted h
  | finish auth finishEnv runId status => exact keeps_httpFinishRun.after (fun _ _ hs => hs) (fun _ hs => hs) hcounted
  | delete auth faults runId => exact counted_httpDeleteRun hcounted h

/-- In a run of the server in which no refused statement separates rows from their
count the counters match. -/
theorem countersMatch_of_spared (env : Env) (store : Mutators.SqliteStore) (ops : List Op)
    (h : Guarded (step env) (Spared env) [] (.start store) ops) :
    CountersMatch (after (step env) (.start store) ops).db :=
  (invariant_history (fun _ (s : Server) => Counted s.db) (fun _ _ _ hs hg => counted_step hs hg) []
    (Server.start store) ops counted_empty h).toCountersMatch

def lossOf (batchId : String) : Sent :=
  { RetrySafety.lossBatch with request := { RetrySafety.lossBatch.request with batchId := some batchId } }

def refuseFirst (i : Nat) : Option String := if i = 0 then some "database is locked" else none

/-- A run that has a metric refused and another one stored, is deleted and made again. -/
def remade : List Op :=
  [initRun "r", .ingest (lossOf "b") none { persist := { metrics := refuseFirst } }, .ingest (lossOf "c") none {},
    .delete (.devMode 0) {} "r", initRun "r"]

theorem validate_lossBatch :
    IngestRequest.validateRequest RetrySafety.devServer.limits.maxTagValueLength
      RetrySafety.lossBatch.request.toPayload =
      .ok ⟨[], [], [⟨"loss", 1, 0, none⟩]⟩ := by decide +kernel

theorem countersMatch_remade :
    CountersMatch (after (step RetrySafety.devServer) (.start projectStore) remade).db := by
  apply countersMatch_of_spared
  have hinit : ∀ db, InitSpared db { generatedId := "g", now := "t" } ⟨some "r", some "p", none, none, [], []⟩ :=
    fun _ _ _ => .inr (.inl (fun _ _ => rfl))
  refine ⟨hinit _, fun _ batch hbatch => ?_, fun _ batch hbatch => ?_, fun j _ hj _ => absurd hj Bool.false_ne_true,
    hinit _, trivial⟩
  · obtain rfl := Except.ok.inj (validate_lossBatch.symm.trans hbatch)
    exact ⟨by decide, .inr (.inl rfl), .inl (fun _ _ => rfl)⟩
  · obtain rfl := Except.ok.inj (validate_lossBatch.symm.trans hbatch)
    exact ⟨by decide, .inr (.inr ⟨fun _ _ => rfl, rfl⟩), .inl (fun _ _ => rfl)⟩

theorem uncounted_metric : ¬ CountersMatch (after (step RetrySafety.devServer) (.start projectStore)
    [initRun "r", .ingest (lossOf "b") none { persist := { metricsCount := some "database is locked" } }]).db := by
  intro h
  have hrun : ∃ run ∈ (after (step RetrySafety.devServer) (.start projectStore) [initRun "r",
      .ingest (lossOf "b") none { persist := { metricsCount := some "database is locked" } }]).db.runs.rows,
      run.metricsCount ≠ metricRowCount (after (step RetrySafety.devServer) (.start projectStore) [initRun "r",
        .ingest (lossOf "b") none { persist := { metricsCount := some "database is locked" } }]).db run.id := by
    decide +kernel
  obtain ⟨run, hmem, hne⟩ := hrun
  exact hne (h.metrics run hmem)

end MLRunX.RunCounters
