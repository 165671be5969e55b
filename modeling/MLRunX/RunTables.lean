import MLRunX.PayloadHash
import MLRunX.Statements
import MLRunX.Tables

namespace MLRunX.RunTables

open Commands PayloadHash Sqlite Statements Tables

structure RunRow where
  id : String
  projectId : String
  name : Option String
  status : String
  createdByKeyId : Option String
  createdByUserId : Option String
  metricsCount : Int := 0
  paramsCount : Int := 0
  deriving DecidableEq, Repr

def RunRow.clash (a b : RunRow) : Prop := a.id = b.id

instance : DecidableRel RunRow.clash := fun a b => by unfold RunRow.clash; infer_instance

theorem RunRow.clash_setWhere {p : RunRow → Bool} {g : RunRow → RunRow} (hid : ∀ r, (g r).id = r.id)
    (a b : RunRow) (h : RunRow.clash (setWhere p g a) (setWhere p g b)) : RunRow.clash a b := by
  simpa only [RunRow.clash, setWhere_keeps RunRow.id hid] using h

structure TagRow where
  runId : String
  key : String
  value : String
  deriving DecidableEq, Repr

def TagRow.clash (a b : TagRow) : Prop := a.runId = b.runId ∧ a.key = b.key

instance : DecidableRel TagRow.clash := fun a b => by unfold TagRow.clash; infer_instance

structure ParamRow where
  runId : String
  name : String
  value : String
  deriving DecidableEq, Repr

def ParamRow.clash (a b : ParamRow) : Prop := a.runId = b.runId ∧ a.name = b.name

instance : DecidableRel ParamRow.clash := fun a b => by unfold ParamRow.clash; infer_instance

structure MetricRow where
  name : String
  step : Int64
  value : F64
  timestamp : Option F64
  deriving DecidableEq, Repr

structure RunEventInput where
  level : String
  source : String
  message : String
  step : Option Int64
  timestamp : Option F64
  deriving DecidableEq, Repr

/-- The tables of the runs. Metrics and events stand beside the id of their run. -/
structure Database where
  runs : Table RunRow RunRow.clash
  metrics : List (String × MetricRow)
  tags : Table TagRow TagRow.clash
  params : Table ParamRow ParamRow.clash
  events : List (String × RunEventInput)

def Database.empty : Database := ⟨.empty, [], .empty, .empty, []⟩

def Database.findRun (db : Database) (runId : String) : Option RunRow := db.runs.find (fun r => r.id == runId)

def Database.setRun (db : Database) (runId : String) (g : RunRow → RunRow) (hid : ∀ r, (g r).id = r.id) :
    Database :=
  { db with runs := db.runs.update (setWhere (fun r => r.id == runId) g) (RunRow.clash_setWhere hid) }

def Database.addMetric (runId : String) (metric : MetricRow) (db : Database) : Database :=
  { db with metrics := db.metrics ++ [(runId, metric)] }

def Database.addEvent (runId : String) (event : RunEventInput) (db : Database) : Database :=
  { db with events := db.events ++ [(runId, event)] }

def Database.addMetrics (runId : String) (metrics : List MetricRow) (db : Database) : Database :=
  { db with metrics := db.metrics ++ metrics.map (fun metric => (runId, metric)) }

def Database.addEvents (runId : String) (events : List RunEventInput) (db : Database) : Database :=
  { db with events := db.events ++ events.map (fun event => (runId, event)) }

def Database.setTag (runId : String) (tag : String × String) (db : Database) : Database :=
  { db with tags := db.tags.replace ⟨runId, tag.1, tag.2⟩ }

def Database.setParam (runId : String) (param : String × String) (db : Database) : Database :=
  { db with params := db.params.replace ⟨runId, param.1, param.2⟩ }

def Database.setTags (runId : String) (tags : List (String × String)) (db : Database) : Database :=
  tags.foldl (fun db tag => db.setTag runId tag) db

def Database.setParams (runId : String) (params : List (String × String)) (db : Database) : Database :=
  params.foldl (fun db param => db.setParam runId param) db

def Database.countMetrics (runId : String) (count : Int) (db : Database) : Database :=
  db.setRun runId (fun r => { r with metricsCount := r.metricsCount + count }) (fun _ => rfl)

def Database.countParams (runId : String) (db : Database) : Database :=
  db.setRun runId (fun r => { r with paramsCount := (db.params.select (fun p => p.runId == runId)).length })
    (fun _ => rfl)

abbrev Statement (α : Type) := Command Database SqliteError α

def createRun (fault : Option String) (runId projectId : String) (name createdByKeyId createdByUserId : Option String) :
    Statement Unit :=
  execute fault (fun db =>
    match db.runs.insert { id := runId, projectId, name, status := "running", createdByKeyId, createdByUserId } with
    | some runs => .ok ((), { db with runs })
    | none => .error (uniqueViolation "runs.id"))

def getRun (fault : Option String) (runId : String) : Statement RunRow := do
  let run ← query fault (fun db => db.findRun runId)
  match run with
  | some run => pure run
  | none => fail (.notFound s!"Run not found: {runId}")

def finishRun (fault : Option String) (runId status : String) : Statement Unit :=
  execute fault (fun db => .ok ((), db.setRun runId (fun r => { r with status }) (fun _ => rfl)))

/-- The first two statements and the seventh change tables of their own. -/
def deleteRun (faults : Nat → Option String) (runId : String) : Statement Unit := do
  execute (faults 0) (fun db => .ok ((), db))
  execute (faults 1) (fun db => .ok ((), db))
  execute (faults 2) (fun db => .ok ((), { db with metrics := db.metrics.filter (fun m => m.1 ≠ runId) }))
  execute (faults 3) (fun db => .ok ((), { db with events := db.events.filter (fun e => e.1 ≠ runId) }))
  execute (faults 4) (fun db => .ok ((), { db with tags := db.tags.deleteWhere (fun t => t.runId == runId) }))
  execute (faults 5) (fun db => .ok ((), { db with params := db.params.deleteWhere (fun p => p.runId == runId) }))
  execute (faults 6) (fun db => .ok ((), db))
  let changes ← execute (faults 7) (fun db => .ok ((db.runs.select (fun r => r.id == runId)).length,
    { db with runs := db.runs.deleteWhere (fun r => r.id == runId) }))
  if changes = 0 then fail (.notFound s!"Run not found: {runId}") else pure ()

def incrementMetricsCount (fault : Option String) (runId : String) (count : Int) : Statement Unit :=
  execute fault (fun db => .ok ((), db.countMetrics runId count))

def setTags (faults : Nat → Option String) (runId : String) (tags : List (String × String)) : Statement Unit :=
  executeEach (Database.setTag runId) faults tags

def insertMetrics (faults : Nat → Option String) (runId : String) (metrics : List MetricRow) : Statement Nat := do
  executeEach (Database.addMetric runId) faults metrics
  pure metrics.length

/-- The statement behind the last event stamps the run. -/
def stampRun (fault : Option String) (count : Nat) : Statement Unit :=
  if 0 < count then execute fault (fun db => .ok ((), db)) else pure ()

def insertRunEvents (faults : Nat → Option String) (runId : String) (events : List RunEventInput) :
    Statement Nat := do
  executeEach (Database.addEvent runId) faults events
  stampRun (faults events.length) events.length
  pure events.length

def insertParams (faults : Nat → Option String) (runId : String) (params : List (String × String)) :
    Statement Nat := do
  executeEach (Database.setParam runId) faults params
  execute (faults params.length) (fun db => .ok ((), db.countParams runId))
  pure params.length

theorem foldl_addMetric (runId : String) (metrics : List MetricRow) (db : Database) :
    metrics.foldl (fun db metric => db.addMetric runId metric) db = db.addMetrics runId metrics := by
  induction metrics generalizing db with
  | nil => simp [Database.addMetrics]
  | cons metric metrics ih =>
      rw [List.foldl_cons, ih]
      simp [Database.addMetrics, Database.addMetric]

theorem foldl_addEvent (runId : String) (events : List RunEventInput) (db : Database) :
    events.foldl (fun db event => db.addEvent runId event) db = db.addEvents runId events := by
  induction events generalizing db with
  | nil => simp [Database.addEvents]
  | cons event events ih =>
      rw [List.foldl_cons, ih]
      simp [Database.addEvents, Database.addEvent]

theorem getRun_ok {fault : Option String} {runId : String} {run : RunRow} {db db' : Database}
    (h : getRun fault runId db = (.ok run, db')) : db.findRun runId = some run ∧ db' = db := by
  obtain ⟨found, _, hquery, hrest⟩ := bind_eq_ok h
  obtain ⟨hf, rfl⟩ := Prod.mk.inj hquery
  obtain ⟨-, hfound⟩ := statement_eq_ok.mp hf
  cases found with
  | none => cases hrest
  | some found =>
      obtain ⟨rfl, rfl⟩ := pure_eq_ok hrest
      exact ⟨Except.ok.inj hfound, rfl⟩

theorem getRun_found {runId : String} {run : RunRow} {db : Database} (h : db.findRun runId = some run) :
    getRun none runId db = (.ok run, db) :=
  bind_ok (query_ok (f := fun db => Database.findRun db runId) h)

theorem leaves_getRun (fault : Option String) (runId : String) : Leaves id (getRun fault runId) := by
  refine leaves_bind (leaves_query fault _) (fun run => ?_)
  cases run with
  | none => exact leaves_fail _
  | some run => exact leaves_pure run

variable {faults : Nat → Option String} {runId : String} {db db' : Database}

theorem setTags_ok {tags : List (String × String)} {u : Unit} (h : setTags faults runId tags db = (.ok u, db')) :
    db' = db.setTags runId tags :=
  executeEach_ok h

theorem insertMetrics_ok {metrics : List MetricRow} {n : Nat}
    (h : insertMetrics faults runId metrics db = (.ok n, db')) :
    n = metrics.length ∧ db' = db.addMetrics runId metrics := by
  obtain ⟨_, db'', hrows, hlast⟩ := bind_eq_ok h
  obtain ⟨hn, rfl⟩ := pure_eq_ok hlast
  rw [← foldl_addMetric]
  exact ⟨hn, executeEach_ok hrows⟩

theorem incrementMetricsCount_ok {fault : Option String} {count : Int} {u : Unit}
    (h : incrementMetricsCount fault runId count db = (.ok u, db')) : db' = db.countMetrics runId count :=
  (congrArg Prod.snd (Except.ok.inj (execute_ok h))).symm

theorem leaves_stampRun (fault : Option String) (count : Nat) : Leaves id (stampRun fault count) := by
  constructor
  intro db
  simp only [stampRun]
  split
  · cases fault <;> rfl
  · rfl

theorem stampRun_ok {fault : Option String} {count : Nat} {u : Unit} (h : stampRun fault count db = (.ok u, db')) :
    db' = db := by
  have hs := (leaves_stampRun fault count).shows db
  rwa [h] at hs

theorem insertRunEvents_ok {events : List RunEventInput} {n : Nat}
    (h : insertRunEvents faults runId events db = (.ok n, db')) :
    n = events.length ∧ db' = db.addEvents runId events := by
  obtain ⟨_, db₁, hrows, h⟩ := bind_eq_ok h
  obtain ⟨_, db₂, hstamp, hlast⟩ := bind_eq_ok h
  obtain ⟨hn, rfl⟩ := pure_eq_ok hlast
  rw [← foldl_addEvent, stampRun_ok hstamp]
  exact ⟨hn, executeEach_ok hrows⟩

/-- Whether it fails or not, a prefix of the events is written. -/
theorem insertRunEvents_prefix (faults : Nat → Option String) (runId : String) (events : List RunEventInput)
    (db : Database) : ∃ n, (insertRunEvents faults runId events db).2 = db.addEvents runId (events.take n) := by
  have hlast : ∀ u : Unit, Leaves id (stampRun (faults events.length) events.length >>= fun _ =>
      (pure events.length : Statement Nat)) :=
    fun _ => leaves_bind (leaves_stampRun _ _) (fun _ => leaves_pure _)
  obtain ⟨n, hn⟩ := executeEach_prefix (Database.addEvent runId) faults events db
  refine ⟨n, ?_⟩
  rw [← foldl_addEvent, ← hn]
  exact bind_leaves id hlast db

theorem insertParams_ok {params : List (String × String)} {n : Nat}
    (h : insertParams faults runId params db = (.ok n, db')) :
    n = params.length ∧ db' = (db.setParams runId params).countParams runId := by
  obtain ⟨_, db₁, hrows, h⟩ := bind_eq_ok h
  obtain ⟨_, db₂, hcount, hlast⟩ := bind_eq_ok h
  obtain ⟨hn, rfl⟩ := pure_eq_ok hlast
  have hc : db' = db₁.countParams runId := (congrArg Prod.snd (Except.ok.inj (execute_ok hcount))).symm
  rw [hc, executeEach_ok hrows]
  exact ⟨hn, rfl⟩

theorem completes_stampRun (count : Nat) : Completes (stampRun none count) := by
  simp only [stampRun]
  split
  · exact completes_execute _
  · exact completes_pure ()

theorem completes_insertMetrics (runId : String) {metrics : List MetricRow}
    (h : ∀ i < metrics.length, faults i = none) : Completes (insertMetrics faults runId metrics) :=
  completes_bind (completes_executeEach _ h) (fun _ => completes_pure _)

theorem completes_insertRunEvents (runId : String) {events : List RunEventInput}
    (h : ∀ i ≤ events.length, faults i = none) : Completes (insertRunEvents faults runId events) := by
  refine completes_bind (completes_executeEach _ (fun i hi => h i hi.le)) (fun _ => ?_)
  rw [h events.length (Nat.le_refl _)]
  exact completes_bind (completes_stampRun _) (fun _ => completes_pure _)

theorem completes_insertParams (runId : String) {params : List (String × String)}
    (h : ∀ i ≤ params.length, faults i = none) : Completes (insertParams faults runId params) := by
  refine completes_bind (completes_executeEach _ (fun i hi => h i hi.le)) (fun _ => ?_)
  rw [h params.length (Nat.le_refl _)]
  exact completes_bind (completes_execute _) (fun _ => completes_pure _)

end MLRunX.RunTables
