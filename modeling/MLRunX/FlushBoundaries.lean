import MLRunX.Batching
import MLRunX.Ingest
import MLRunX.RetrySafety
import MLRunX.RunLogging
import MLRunX.SqlArith

namespace MLRunX.FlushBoundaries

open Batching Coalescing EventQueues Ingest IngestRequest RunLogging RunTables Tables
open DiskSpool (EventType)
open PayloadHash (F64)

/-- What a batch sends of the events of a type. -/
def dataOf (type : EventType) (events : List Event) : List Data :=
  (events.filter (fun e => e.type = type)).map Event.data

def strField (data : Data) (key : String) : Option String :=
  match data.lookup key with
  | some (.str s) => some s
  | _ => none

def floatField (data : Data) (key : String) : Option F64 :=
  match data.lookup key with
  | some (.float x) => some x
  | _ => none

def stepField (data : Data) (key : String) : Option Int64 :=
  match data.lookup key with
  | some (.int n) => if SqlArith.fitsInt64 n then some (Int64.ofInt n) else none
  | _ => none

/-- A metric as the server reads it from the wire. -/
def decodeMetric (data : Data) : Option MetricData := do
  let name ← strField data "name"
  let value ← floatField data "value"
  let step ← stepField data "step"
  some ⟨name, .scalar value, step, floatField data "timestamp"⟩

def decodeParam (data : Data) : Option ParamData := do
  let name ← strField data "name"
  let value ← strField data "value"
  some ⟨name, value⟩

def decodeTag (data : Data) : Option TagData := do
  let key ← strField data "key"
  let value ← strField data "value"
  some ⟨key, value⟩

def decodePayload (events : List Event) : Option Payload := do
  let metrics ← (dataOf .metric events).mapM decodeMetric
  let params ← (dataOf .param events).mapM decodeParam
  let tags ← (dataOf .tag events).mapM decodeTag
  some { metrics, params, tags }

/-- What a batch adds to the tables, if all of it is let in. -/
def accept (maxTagValueLen : Nat) (events : List Event) : Option Contents :=
  (decodePayload events).bind fun payload =>
    (validateRequest maxTagValueLen payload).toOption.bind fun batch =>
      if batch.metrics.all isFiniteMetric then some ⟨batch.metrics, batch.params, batch.tags, [], []⟩ else none

def deliver (runId : String) (db : Database) (contents : Contents) : Database :=
  (persistIngestBatchToSqlite {} runId contents db).2

abbrev Cut := List (List (Int × Event))

variable (floatLength : F64 → Nat) (config : BatchConfig)

/-- What is flushed of the events that were added since the last flush. -/
def flushed (added : List (Int × Event)) : List Event :=
  (flush 0 (added.foldl (fun b a => (add floatLength config a.1 a.2 b).2) (.empty 0))).1

/-- The tables after all flushes, if each of them is accepted. -/
def deliverCut (maxTagValueLen : Nat) (runId : String) (cut : Cut) (db : Database) : Option Database :=
  (cut.mapM (fun added => accept maxTagValueLen (flushed floatLength config added))).map
    (fun contents => contents.foldl (deliver runId) db)

def Cut.events (cut : Cut) : List Event := cut.flatten.map Prod.snd

def pointsAt (db : Database) (runId name : String) (step : Int64) : List MetricRow :=
  (db.metrics.filter (fun m => m.1 = runId ∧ m.2.name = name ∧ m.2.step = step)).map Prod.snd

def paramOf (db : Database) (runId name : String) : Option String :=
  (db.params.find (fun p => p.runId == runId && p.name == name)).map ParamRow.value

def tagOf (db : Database) (runId key : String) : Option String :=
  (db.tags.find (fun t => t.runId == runId && t.key == key)).map TagRow.value

def metricSlot (event : Event) : Option (String × Int) :=
  match event.type, metricKey event with
  | .metric, (.str name, .int step) => some (Text.trim name, step)
  | _, _ => none

/-- The name under which the server keeps a parameter. -/
def paramSlot (event : Event) : Option String :=
  match event.type, paramKey event with
  | .param, .str name => (MetadataKey.canonicalizeMetadataKey name "parameters").toOption
  | _, _ => none

def tagSlot (event : Event) : Option String :=
  match event.type, tagKey event with
  | .tag, .str key => (MetadataKey.canonicalizeMetadataKey key "tags").toOption
  | _, _ => none

def valueOf (event : Event) : Value := event.data.get "value" (.str "")

def storedMetric (event : Event) : Option MetricRow :=
  ((decodeMetric event.data).bind (fun metric => (expandMetric metric).toOption)).bind
    (fun rows => rows.head?.filter isFiniteMetric)

def storedParam (event : Event) : Option (String × String) :=
  (decodeParam event.data).bind (fun param => (validateParam param).toOption)

def storedTag (maxTagValueLen : Nat) (event : Event) : Option (String × String) :=
  (decodeTag event.data).bind (fun tag => (validateTag maxTagValueLen tag).toOption)

/-- The last metric that is logged for a name and a step. -/
def lastMetric (events : List Event) (name : String) (step : Int64) : Option MetricRow :=
  (events.filter (fun e => metricSlot e = some (name, step.toInt))).getLast?.bind storedMetric

structure SameData (runId : String) (db db' : Database) : Prop where
  metrics : ∀ name step, pointsAt db runId name step = pointsAt db' runId name step
  params : ∀ name, paramOf db runId name = paramOf db' runId name
  tags : ∀ key, tagOf db runId key = tagOf db' runId key

/-- However the events are cut into flushes, the server ends with the same data,
and with one point for a name and a step, the last. -/
def BoundariesInvisible (maxTagValueLen : Nat) (runId : String) (events : List Event) (db : Database) : Prop :=
  ∀ cut cut' db₁ db₂, Cut.events cut = events → Cut.events cut' = events →
    deliverCut floatLength config maxTagValueLen runId cut db = some db₁ →
    deliverCut floatLength config maxTagValueLen runId cut' db = some db₂ →
    SameData runId db₁ db₂ ∧
      ∀ name step, pointsAt db₁ runId name step = pointsAt db runId name step ++
        (lastMetric events name step).toList

/-- No metric is logged twice for a name and a step. Where duplicates are dropped,
and a name is written in several ways, the way that comes up last is last given the
value that the name is last given. -/
structure Unambiguous (events : List Event) : Prop where
  metrics : Distinct metricSlot events
  params : config.dedupeParams = true → ∀ name,
    Unshadowed (coalesceKey config) valueOf (events.filter (fun e => paramSlot e = some name))
  tags : config.dedupeTags = true → ∀ key,
    Unshadowed (coalesceKey config) valueOf (events.filter (fun e => tagSlot e = some key))

/-- An event that the server stores. -/
def Acceptable (maxTagValueLen : Nat) (event : Event) : Prop :=
  (event.type = .metric → storedMetric event ≠ none) ∧ (event.type = .param → storedParam event ≠ none) ∧
    (event.type = .tag → storedTag maxTagValueLen event ≠ none)

section Tables

variable {runId : String} {db : Database} {contents : Contents}

theorem deliver_eq (h : contents.warnings = []) : deliver runId db contents =
    Database.ingest runId contents db := by
  have hnone : ({} : PersistFaults).Absent := ⟨rfl, rfl, rfl, rfl, rfl⟩
  obtain ⟨persisted, db', hok⟩ := (completes_persist hnone runId contents).exists_ok db
  obtain ⟨k, hk⟩ := persistIngestBatchToSqlite_ok hok
  rw [deliver, hok, hk, h]
  simp [Database.addEvents]

/-- The value that a list of pairs gives a name last. -/
def lastValue (name : String) (pairs : List (String × String)) : Option String :=
  (pairs.filter (fun pair => pair.1 = name)).getLast?.map Prod.snd

theorem lastValue_append (name : String) (pairs pairs' : List (String × String)) :
    lastValue name (pairs ++ pairs') = (lastValue name pairs').or (lastValue name pairs) := by
  rw [lastValue, List.filter_append, List.getLast?_append, Option.map_or]
  rfl

theorem lastValue_singleton (name : String) (pair : String × String) :
    lastValue name [pair] = if pair.1 = name then some pair.2 else none := by
  by_cases hname : pair.1 = name <;> simp [lastValue, hname]

theorem paramOf_congr {db' : Database} (h : db.params = db'.params) {name : String} :
    paramOf db runId name = paramOf db' runId name := by
  rw [paramOf, h, paramOf]

theorem tagOf_congr {db' : Database} (h : db.tags = db'.tags) {key : String} :
    tagOf db runId key = tagOf db' runId key := by
  rw [tagOf, h, tagOf]

theorem paramOf_setParams (name : String) (params : List (String × String)) (db : Database) :
    paramOf (db.setParams runId params) runId name = (lastValue name params).or (paramOf db runId name) := by
  induction params using List.reverseRecOn with
  | nil => rfl
  | append_singleton params param ih =>
      have hlast : db.setParams runId (params ++ [param]) = (db.setParams runId params).setParam runId param := by
        simp [Database.setParams]
      rw [hlast, lastValue_append, lastValue_singleton, Option.or_assoc, ← ih]
      simp only [Database.setParam, paramOf]
      rw [find_replace _ (fun r hr => ?_)]
      · by_cases hname : param.1 = name <;> simp [hname]
      · simp only [Bool.and_eq_true, beq_iff_eq] at hr ⊢
        simp only [ParamRow.clash, hr.1, hr.2, true_and, eq_comm]

theorem tagOf_setTags (key : String) (tags : List (String × String)) (db : Database) :
    tagOf (db.setTags runId tags) runId key = (lastValue key tags).or (tagOf db runId key) := by
  induction tags using List.reverseRecOn with
  | nil => rfl
  | append_singleton tags tag ih =>
      have hlast : db.setTags runId (tags ++ [tag]) = (db.setTags runId tags).setTag runId tag := by
        simp [Database.setTags]
      rw [hlast, lastValue_append, lastValue_singleton, Option.or_assoc, ← ih]
      simp only [Database.setTag, tagOf]
      rw [find_replace _ (fun r hr => ?_)]
      · by_cases hkey : tag.1 = key <;> simp [hkey]
      · simp only [Bool.and_eq_true, beq_iff_eq] at hr ⊢
        simp only [TagRow.clash, hr.1, hr.2, true_and, eq_comm]

/-- What a delivery leaves: the metrics behind the others, the last values of the
parameters and the tags. -/
structure Delivered (runId : String) (metrics : List MetricRow) (params tags : List (String × String))
    (db db' : Database) : Prop where
  metrics : ∀ name step, pointsAt db' runId name step =
    pointsAt db runId name step ++ metrics.filter (fun m => m.name = name ∧ m.step = step)
  params : ∀ name, paramOf db' runId name = (lastValue name params).or (paramOf db runId name)
  tags : ∀ key, tagOf db' runId key = (lastValue key tags).or (tagOf db runId key)

theorem setTags_elsewhere (tags : List (String × String)) (db : Database) :
    (db.setTags runId tags).metrics = db.metrics ∧ (db.setTags runId tags).params = db.params := by
  induction tags generalizing db with
  | nil => exact ⟨rfl, rfl⟩
  | cons tag tags ih => exact ih (db.setTag runId tag)

theorem setParams_elsewhere (params : List (String × String)) (db : Database) :
    (db.setParams runId params).metrics = db.metrics ∧ (db.setParams runId params).tags = db.tags := by
  induction params generalizing db with
  | nil => exact ⟨rfl, rfl⟩
  | cons param params ih => exact ih (db.setParam runId param)

theorem ingestMetrics_tables (metrics : List MetricRow) (db : Database) :
    (Database.ingestMetrics runId metrics db).metrics = db.metrics ++ metrics.map (fun m => (runId, m)) ∧
      (Database.ingestMetrics runId metrics db).params = db.params ∧
        (Database.ingestMetrics runId metrics db).tags = db.tags := by
  rw [Database.ingestMetrics]
  split
  · rename_i hnil
    simp [hnil]
  · exact ⟨rfl, rfl, rfl⟩

theorem ingestParams_tables (params : List (String × String)) (db : Database) :
    (Database.ingestParams runId params db).metrics = db.metrics ∧
      (Database.ingestParams runId params db).params = (db.setParams runId params).params ∧
        (Database.ingestParams runId params db).tags = db.tags := by
  rw [Database.ingestParams]
  split
  · rename_i hnil
    rw [hnil]
    exact ⟨rfl, rfl, rfl⟩
  · exact ⟨(setParams_elsewhere params db).1, rfl, (setParams_elsewhere params db).2⟩

theorem delivered (h : contents.warnings = []) :
    Delivered runId contents.metrics contents.params contents.tags db (deliver runId db contents) := by
  obtain ⟨hmetrics₁, hparams₁, htags₁⟩ := @ingestMetrics_tables runId contents.metrics db
  obtain ⟨hmetrics₂, hparams₂⟩ :=
    @setTags_elsewhere runId contents.tags (Database.ingestMetrics runId contents.metrics db)
  obtain ⟨hmetrics₃, hparams₃, htags₃⟩ := @ingestParams_tables runId contents.params
    ((Database.ingestMetrics runId contents.metrics db).setTags runId contents.tags)
  have hmetrics := hmetrics₃.trans (hmetrics₂.trans hmetrics₁)
  rw [deliver_eq h]
  refine ⟨fun name step => ?_, fun name => ?_, fun key => ?_⟩
  · change ((Database.ingestParams runId contents.params _).metrics.filter _).map Prod.snd = _
    rw [hmetrics, List.filter_append, List.map_append, List.filter_map, List.map_map]
    congr 1
    simp [Function.comp_def]
  · calc paramOf (Database.ingest runId contents db) runId name
        = paramOf (((Database.ingestMetrics runId contents.metrics db).setTags runId contents.tags).setParams runId
            contents.params) runId name := paramOf_congr hparams₃
      _ = _ := paramOf_setParams name contents.params _
      _ = (lastValue name contents.params).or (paramOf db runId name) := by
          rw [paramOf_congr (hparams₂.trans hparams₁)]
  · calc tagOf (Database.ingest runId contents db) runId key
        = tagOf ((Database.ingestMetrics runId contents.metrics db).setTags runId contents.tags) runId key :=
          tagOf_congr htags₃
      _ = _ := tagOf_setTags key contents.tags _
      _ = (lastValue key contents.tags).or (tagOf db runId key) := by rw [tagOf_congr htags₁]

theorem delivered_foldl {flushes : List Contents} (h : ∀ contents ∈ flushes, contents.warnings = [])
    (db : Database) :
    Delivered runId (flushes.flatMap Contents.metrics) (flushes.flatMap Contents.params)
      (flushes.flatMap Contents.tags) db (flushes.foldl (deliver runId) db) := by
  induction flushes generalizing db with
  | nil => exact ⟨fun _ _ => (List.append_nil _).symm, fun _ => rfl, fun _ => rfl⟩
  | cons contents flushes ih =>
      have hfirst := @delivered runId db contents (h contents List.mem_cons_self)
      have hrest := ih (fun c hc => h c (List.mem_cons_of_mem _ hc)) (deliver runId db contents)
      refine ⟨fun name step => ?_, fun name => ?_, fun key => ?_⟩
      · rw [List.foldl_cons, hrest.metrics, hfirst.metrics, List.flatMap_cons, List.filter_append,
          List.append_assoc]
      · rw [List.foldl_cons, hrest.params, hfirst.params, List.flatMap_cons, lastValue_append, Option.or_assoc]
      · rw [List.foldl_cons, hrest.tags, hfirst.tags, List.flatMap_cons, lastValue_append, Option.or_assoc]

end Tables

section Accepted

variable {maxTagValueLen : Nat}

/-- The rows that the server makes of a metric. -/
def expandedMetric (event : Event) : Option (List MetricRow) :=
  (decodeMetric event.data).bind (fun metric => (expandMetric metric).toOption)

theorem expandedMetric_single {event : Event} {rows : List MetricRow} (h : expandedMetric event = some rows) :
    ∃ row, rows = [row] := by
  obtain ⟨metric, hdecode, hexpand⟩ := Option.bind_eq_some_iff.mp h
  obtain ⟨name, -, h₁⟩ := Option.bind_eq_some_iff.mp hdecode
  obtain ⟨value, -, h₂⟩ := Option.bind_eq_some_iff.mp h₁
  obtain ⟨step, -, h₃⟩ := Option.bind_eq_some_iff.mp h₂
  obtain rfl := Option.some.inj h₃
  simp only [expandMetric] at hexpand
  split at hexpand
  · cases hexpand
  · exact ⟨_, (Option.some.inj hexpand).symm⟩

theorem storedMetric_of_expanded {event : Event} {row : MetricRow} (h : expandedMetric event = some [row])
    (hfinite : isFiniteMetric row = true) : storedMetric event = some row := by
  rw [storedMetric, ← expandedMetric, h]
  simp [Option.filter, hfinite]

theorem expanded_of_storedMetric {event : Event} {row : MetricRow} (h : storedMetric event = some row) :
    expandedMetric event = some [row] ∧ isFiniteMetric row = true := by
  rw [storedMetric, ← expandedMetric] at h
  obtain ⟨rows, hrows, hfilter⟩ := Option.bind_eq_some_iff.mp h
  obtain ⟨row', rfl⟩ := expandedMetric_single hrows
  obtain ⟨hrow, hfinite⟩ := Option.filter_eq_some_iff.mp hfilter
  obtain rfl := Option.some.inj hrow
  exact ⟨hrows, hfinite⟩

theorem map_storedMetric {events : List Event} {rows : List MetricRow} :
    (∃ rowss : List (List MetricRow), events.map expandedMetric = rowss.map some ∧ rowss.flatten = rows ∧
      rows.all isFiniteMetric = true) ↔
      events.map storedMetric = rows.map some := by
  induction events generalizing rows with
  | nil =>
      constructor
      · rintro ⟨rowss, hrowss, rfl, -⟩
        obtain rfl := List.map_eq_nil_iff.mp hrowss.symm
        rfl
      · intro h
        obtain rfl := List.map_eq_nil_iff.mp h.symm
        exact ⟨[], rfl, rfl, rfl⟩
  | cons event events ih =>
      constructor
      · rintro ⟨rowss, hrowss, rfl, hfinite⟩
        cases rowss with
        | nil => cases hrowss
        | cons first rowss =>
            obtain ⟨hhead, htail⟩ := List.cons.inj hrowss
            obtain ⟨row, rfl⟩ := expandedMetric_single hhead
            rw [List.flatten_cons, List.all_append, Bool.and_eq_true] at hfinite
            have hrow : isFiniteMetric row = true := by simpa using hfinite.1
            rw [List.map_cons, storedMetric_of_expanded hhead hrow, ih.mp ⟨rowss, htail, rfl, hfinite.2⟩]
            rfl
      · intro h
        cases rows with
        | nil => cases h
        | cons row rows =>
            obtain ⟨hhead, htail⟩ := List.cons.inj h
            obtain ⟨hexpanded, hfinite⟩ := expanded_of_storedMetric hhead
            obtain ⟨rowss, hrowss, rfl, hall⟩ := ih.mpr htail
            refine ⟨[row] :: rowss, ?_, rfl, ?_⟩
            · rw [List.map_cons, hexpanded, hrowss]
              rfl
            · rw [List.all_cons, hfinite, hall]
              rfl

theorem dataOf_map {β : Type} (type : EventType) (events : List Event) (f : Data → β) :
    (dataOf type events).map f = (events.filter (fun e => e.type = type)).map (fun e => f e.data) :=
  List.map_map

/-- What is accepted is stored, each event for itself. -/
structure Stored (maxTagValueLen : Nat) (events : List Event) (contents : Contents) : Prop where
  metrics : (events.filter (fun e => e.type = .metric)).map storedMetric = contents.metrics.map some
  params : (events.filter (fun e => e.type = .param)).map storedParam = contents.params.map some
  tags : (events.filter (fun e => e.type = .tag)).map (storedTag maxTagValueLen) = contents.tags.map some
  warnings : contents.warnings = []

theorem stored_of_accept {events : List Event} {contents : Contents}
    (h : accept maxTagValueLen events = some contents) :
    Stored maxTagValueLen events contents := by
  obtain ⟨payload, hpayload, h⟩ := Option.bind_eq_some_iff.mp h
  obtain ⟨batch, hbatch, h⟩ := Option.bind_eq_some_iff.mp h
  split at h
  · rename_i hfinite
    obtain rfl := Option.some.inj h
    obtain ⟨metrics, hmetrics, hpayload⟩ := Option.bind_eq_some_iff.mp hpayload
    obtain ⟨params, hparams, hpayload⟩ := Option.bind_eq_some_iff.mp hpayload
    obtain ⟨tags, htags, hpayload⟩ := Option.bind_eq_some_iff.mp hpayload
    obtain rfl := Option.some.inj hpayload
    obtain ⟨params', hparams', hvalid⟩ := Fallible.bind_eq_ok.mp (Fallible.toOption_eq_some hbatch)
    obtain ⟨tags', htags', hvalid⟩ := Fallible.bind_eq_ok.mp hvalid
    obtain ⟨rowss, hrowss, hvalid⟩ := Fallible.bind_eq_ok.mp hvalid
    obtain rfl := Except.ok.inj hvalid
    have hm := Fallible.mapM_mapM.mp ⟨metrics, hmetrics, hrowss⟩
    have hp := Fallible.mapM_mapM.mp ⟨params, hparams, hparams'⟩
    have ht := Fallible.mapM_mapM.mp ⟨tags, htags, htags'⟩
    rw [dataOf_map] at hm hp ht
    exact ⟨map_storedMetric.mp ⟨rowss, hm, rfl, hfinite⟩, hp, ht, rfl⟩
  · cases h

theorem map_eq_some {α β : Type} {f : α → Option β} {as : List α} (h : ∀ a ∈ as, f a ≠ none) :
    ∃ bs : List β, as.map f = bs.map some := by
  induction as with
  | nil => exact ⟨[], rfl⟩
  | cons a as ih =>
      obtain ⟨bs, hbs⟩ := ih (fun b hb => h b (List.mem_cons_of_mem _ hb))
      obtain ⟨b, hb⟩ := Option.ne_none_iff_exists'.mp (h a List.mem_cons_self)
      exact ⟨b :: bs, by rw [List.map_cons, hb, hbs, List.map_cons]⟩

theorem accept_of_acceptable {events : List Event} (h : ∀ e ∈ events, Acceptable maxTagValueLen e) :
    ∃ contents, accept maxTagValueLen events = some contents := by
  have hfilter : ∀ {type} e, e ∈ events.filter (fun e => e.type = type) →
      Acceptable maxTagValueLen e ∧ e.type = type :=
    fun e he => ⟨h e (List.mem_filter.mp he).1, of_decide_eq_true (List.mem_filter.mp he).2⟩
  obtain ⟨rows, hrows⟩ := @map_eq_some _ _ storedMetric _ (fun e he => (hfilter e he).1.1 (hfilter e he).2)
  obtain ⟨params', hp⟩ := @map_eq_some _ _ storedParam _ (fun e he => (hfilter e he).1.2.1 (hfilter e he).2)
  obtain ⟨tags', ht⟩ := @map_eq_some _ _ (storedTag maxTagValueLen) _ (fun e he =>
    (hfilter e he).1.2.2 (hfilter e he).2)
  obtain ⟨rowss, hm, hflatten, hfinite⟩ := map_storedMetric.mpr hrows
  obtain ⟨metrics, hmetrics, hrowss⟩ := Fallible.mapM_mapM.mpr ((dataOf_map .metric events _).trans hm)
  obtain ⟨params, hparams, hparams'⟩ := Fallible.mapM_mapM.mpr ((dataOf_map .param events _).trans hp)
  obtain ⟨tags, htags, htags'⟩ := Fallible.mapM_mapM.mpr ((dataOf_map .tag events _).trans ht)
  refine ⟨⟨rows, params', tags', [], []⟩, ?_⟩
  have hpayload : decodePayload events = some { metrics, params, tags } := by
    simp [decodePayload, hmetrics, hparams, htags]
  have hvalid : validateRequest maxTagValueLen { metrics, params, tags } = .ok ⟨params', tags', rows⟩ := by
    rw [validateRequest, hparams', htags', hrowss, ← hflatten]
    rfl
  rw [accept, hpayload, Option.bind_some, hvalid]
  exact if_pos hfinite

end Accepted

section Slots

variable {config}

theorem coalesceKey_metric {event : Event} {key : Value × Value}
    (h : coalesceKey config event = some (.metric key)) :
    event.type = .metric ∧ metricKey event = key := by
  unfold coalesceKey at h
  split_ifs at h with hmetric hparam htag
  · exact ⟨hmetric.1, CoalesceKey.metric.inj (Option.some.inj h)⟩
  all_goals cases h

theorem coalesceKey_param {event : Event} {name : Value} (h : coalesceKey config event = some (.param name)) :
    event.type = .param ∧ paramKey event = name := by
  unfold coalesceKey at h
  split_ifs at h with hmetric hparam htag
  · cases h
  · exact ⟨hparam.1, CoalesceKey.param.inj (Option.some.inj h)⟩
  · cases h

theorem coalesceKey_tag {event : Event} {key : Value} (h : coalesceKey config event = some (.tag key)) :
    event.type = .tag ∧ tagKey event = key := by
  unfold coalesceKey at h
  split_ifs at h with hmetric hparam htag
  · cases h
  · cases h
  · exact ⟨htag.1, CoalesceKey.tag.inj (Option.some.inj h)⟩

theorem slots_eq {a b : Event} (hne : coalesceKey config a ≠ none)
    (h : coalesceKey config a = coalesceKey config b) :
    metricSlot a = metricSlot b ∧ paramSlot a = paramSlot b ∧ tagSlot a = tagSlot b := by
  obtain ⟨k, hk⟩ := Option.ne_none_iff_exists'.mp hne
  have hk' := h.symm.trans hk
  cases k with
  | metric key =>
      obtain ⟨ha, hakey⟩ := coalesceKey_metric hk
      obtain ⟨hb, hbkey⟩ := coalesceKey_metric hk'
      simp only [metricSlot, paramSlot, tagSlot, ha, hb, hakey, hbkey, and_self]
  | param name =>
      obtain ⟨ha, hakey⟩ := coalesceKey_param hk
      obtain ⟨hb, hbkey⟩ := coalesceKey_param hk'
      simp only [metricSlot, paramSlot, tagSlot, ha, hb, hakey, hbkey, and_self]
  | tag key =>
      obtain ⟨ha, hakey⟩ := coalesceKey_tag hk
      obtain ⟨hb, hbkey⟩ := coalesceKey_tag hk'
      simp only [metricSlot, paramSlot, tagSlot, ha, hb, hakey, hbkey, and_self]

theorem strField_get {data : Data} {key : String} {value : String} (h : strField data key = some value)
    (default : Value) : data.get key default = .str value := by
  unfold strField at h
  split at h
  · obtain rfl := Option.some.inj h
    simp [Data.get, *]
  · cases h

theorem stepField_get {data : Data} {key : String} {step : Int64} (h : stepField data key = some step)
    (default : Value) : data.get key default = .int step.toInt := by
  unfold stepField at h
  split at h
  · split at h
    · rename_i n hlookup hfits
      obtain rfl := Option.some.inj h
      rw [Int64.toInt_ofInt_of_le hfits.1 hfits.2]
      simp [Data.get, hlookup]
    · cases h
  · cases h

theorem metricSlot_of_stored {event : Event} {row : MetricRow} (htype : event.type = .metric)
    (h : storedMetric event = some row) : metricSlot event = some (row.name, row.step.toInt) := by
  obtain ⟨metric, hdecode, hexpand⟩ := Option.bind_eq_some_iff.mp (expanded_of_storedMetric h).1
  obtain ⟨name, hname, h₁⟩ := Option.bind_eq_some_iff.mp hdecode
  obtain ⟨value, -, h₂⟩ := Option.bind_eq_some_iff.mp h₁
  obtain ⟨step, hstep, h₃⟩ := Option.bind_eq_some_iff.mp h₂
  obtain rfl := Option.some.inj h₃
  simp only [expandMetric] at hexpand
  split at hexpand
  · cases hexpand
  · obtain rfl := List.cons.inj (Option.some.inj hexpand) |>.1
    simp only [metricSlot, metricKey, htype, strField_get hname, stepField_get hstep]

theorem paramSlot_of_stored {event : Event} {param : String × String} (htype : event.type = .param)
    (h : storedParam event = some param) : paramSlot event = some param.1 ∧ valueOf event = .str param.2 := by
  obtain ⟨data, hdecode, hvalid⟩ := Option.bind_eq_some_iff.mp h
  obtain ⟨name, hname, h₁⟩ := Option.bind_eq_some_iff.mp hdecode
  obtain ⟨value, hvalue, h₂⟩ := Option.bind_eq_some_iff.mp h₁
  obtain rfl := Option.some.inj h₂
  simp only [validateParam] at hvalid
  split at hvalid
  · cases hvalid
  · rename_i key hkey
    split at hvalid
    · cases hvalid
    · obtain rfl := Option.some.inj hvalid
      simp only [paramSlot, paramKey, htype, strField_get hname, hkey, valueOf, strField_get hvalue]
      exact ⟨rfl, trivial⟩

theorem tagSlot_of_stored {maxTagValueLen : Nat} {event : Event} {tag : String × String}
    (htype : event.type = .tag)
    (h : storedTag maxTagValueLen event = some tag) : tagSlot event = some tag.1 ∧ valueOf event = .str tag.2 := by
  obtain ⟨data, hdecode, hvalid⟩ := Option.bind_eq_some_iff.mp h
  obtain ⟨key, hkey, h₁⟩ := Option.bind_eq_some_iff.mp hdecode
  obtain ⟨value, hvalue, h₂⟩ := Option.bind_eq_some_iff.mp h₁
  obtain rfl := Option.some.inj h₂
  simp only [validateTag] at hvalid
  split at hvalid
  · cases hvalid
  · rename_i canonical hcanonical
    split at hvalid
    · cases hvalid
    · obtain rfl := Option.some.inj hvalid
      simp only [tagSlot, tagKey, htype, strField_get hkey, hcanonical, valueOf, strField_get hvalue]
      exact ⟨rfl, trivial⟩

end Slots

section Cuts

variable {maxTagValueLen : Nat} {config : BatchConfig} {floatLength : F64 → Nat}

def sent (floatLength : F64 → Nat) (config : BatchConfig) (cut : Cut) : List Event :=
  (cut.map (flushed floatLength config)).flatten

theorem flushed_eq (added : List (Int × Event)) :
    flushed floatLength config added = coalesce (coalesceKey config) (added.map Prod.snd) := foldl_add 0 added

theorem stored_of_cut {cut : Cut} {flushes : List Contents}
    (h : cut.mapM (fun added => accept maxTagValueLen (flushed floatLength config added)) = some flushes) :
    Stored maxTagValueLen (sent floatLength config cut) ⟨flushes.flatMap Contents.metrics,
        flushes.flatMap Contents.params, flushes.flatMap Contents.tags, [], []⟩ ∧
      ∀ contents ∈ flushes, contents.warnings = [] := by
  induction cut generalizing flushes with
  | nil =>
      obtain rfl := Option.some.inj h
      exact ⟨⟨rfl, rfl, rfl, rfl⟩, fun _ hmem => absurd hmem List.not_mem_nil⟩
  | cons added cut ih =>
      rw [List.mapM_cons] at h
      obtain ⟨contents, hcontents, h⟩ := Option.bind_eq_some_iff.mp h
      obtain ⟨flushes', hflushes, h⟩ := Option.bind_eq_some_iff.mp h
      obtain rfl := Option.some.inj h
      obtain ⟨hm, hp, ht, hw⟩ := stored_of_accept hcontents
      obtain ⟨⟨hm', hp', ht', -⟩, hw'⟩ := ih hflushes
      refine ⟨⟨?_, ?_, ?_, rfl⟩, List.forall_mem_cons.mpr ⟨hw, hw'⟩⟩
      · simp only [sent, List.map_cons, List.flatten_cons, List.filter_append, List.map_append,
          List.flatMap_cons] at hm' ⊢
        rw [hm, hm']
      · simp only [sent, List.map_cons, List.flatten_cons, List.filter_append, List.map_append,
          List.flatMap_cons] at hp' ⊢
        rw [hp, hp']
      · simp only [sent, List.map_cons, List.flatten_cons, List.filter_append, List.map_append,
          List.flatMap_cons] at ht' ⊢
        rw [ht, ht']

theorem deliverCut_of_acceptable {runId : String} {db : Database} {cut : Cut}
    (h : ∀ e ∈ Cut.events cut, Acceptable maxTagValueLen e) :
    ∃ db', deliverCut floatLength config maxTagValueLen runId cut db = some db' := by
  have haccept : ∃ flushes, cut.mapM (fun added => accept maxTagValueLen (flushed floatLength config added)) =
      some flushes := by
    induction cut with
    | nil => exact ⟨[], rfl⟩
    | cons added cut ih =>
        have hevents : Cut.events (added :: cut) = added.map Prod.snd ++ Cut.events cut := by simp [Cut.events]
        rw [hevents] at h
        obtain ⟨flushes, hflushes⟩ := ih (fun e he => h e (List.mem_append_right _ he))
        obtain ⟨contents, hcontents⟩ := @accept_of_acceptable maxTagValueLen (flushed floatLength config added)
          (fun e he => h e (List.mem_append_left _ (mem_coalesce (flushed_eq added ▸ he))))
        exact ⟨contents :: flushes, by simp [hcontents, hflushes]⟩
  obtain ⟨flushes, hflushes⟩ := haccept
  exact ⟨flushes.foldl (deliver runId) db, by rw [deliverCut, hflushes, Option.map_some]⟩

theorem filter_stored {α β : Type} {stored : α → Option β} {p : α → Bool} {q : β → Bool} {as : List α}
    {bs : List β}
    (h : as.map stored = bs.map some) (hp : ∀ a ∈ as, ∀ b, stored a = some b → p a = q b) :
    (as.filter p).map stored = (bs.filter q).map some := by
  induction as generalizing bs with
  | nil =>
      obtain rfl := List.map_eq_nil_iff.mp h.symm
      rfl
  | cons a as ih =>
      cases bs with
      | nil => cases h
      | cons b bs =>
          obtain ⟨hhead, htail⟩ := List.cons.inj h
          have hrest := ih htail (fun a' ha' => hp a' (List.mem_cons_of_mem _ ha'))
          rw [List.filter_cons, List.filter_cons, ← hp a List.mem_cons_self b hhead]
          split
          · rw [List.map_cons, List.map_cons, hhead, hrest]
          · exact hrest

theorem filter_slot {κ : Type} [DecidableEq κ] {slot : Event → Option κ} {type : EventType}
    (htype : ∀ e k, slot e = some k → e.type = type) (events : List Event) (k : κ) :
    (events.filter (fun e => e.type = type)).filter (fun e => slot e = some k) =
      events.filter (fun e => slot e = some k) := by
  rw [List.filter_filter]
  apply List.filter_congr
  intro e _
  by_cases hk : slot e = some k
  · simp [hk, htype e k hk]
  · simp [hk]

theorem metricSlot_type {e : Event} {k : String × Int} (h : metricSlot e = some k) : e.type = .metric := by
  unfold metricSlot at h
  split at h
  · assumption
  · cases h

theorem paramSlot_type {e : Event} {name : String} (h : paramSlot e = some name) : e.type = .param := by
  unfold paramSlot at h
  split at h
  · assumption
  · cases h

theorem tagSlot_type {e : Event} {key : String} (h : tagSlot e = some key) : e.type = .tag := by
  unfold tagSlot at h
  split at h
  · assumption
  · cases h

theorem coalesceKey_of_param {e : Event} (h : e.type = .param) :
    coalesceKey config e ≠ none ↔ config.dedupeParams = true := by
  by_cases hdedupe : config.dedupeParams = true <;> simp [coalesceKey, h, hdedupe]

theorem coalesceKey_of_tag {e : Event} (h : e.type = .tag) :
    coalesceKey config e ≠ none ↔ config.dedupeTags = true := by
  by_cases hdedupe : config.dedupeTags = true <;> simp [coalesceKey, h, hdedupe]

theorem filter_sent {κ : Type} [DecidableEq κ] {slot : Event → Option κ}
    (hslot : ∀ a b, coalesceKey config a ≠ none → coalesceKey config a = coalesceKey config b → slot a = slot b)
    (cut : Cut) (k : κ) :
    ∃ parts : List (List Event), parts.flatten = (Cut.events cut).filter (fun e => slot e = some k) ∧
      (sent floatLength config cut).filter (fun e => slot e = some k) =
        (parts.map (coalesce (coalesceKey config))).flatten := by
  refine ⟨cut.map (fun added => (added.map Prod.snd).filter (fun e => slot e = some k)), ?_, ?_⟩
  · rw [Cut.events, List.map_flatten, List.filter_flatten, List.map_map]
    rfl
  · rw [sent, List.filter_flatten, List.map_map, List.map_map]
    apply congrArg List.flatten
    apply List.map_congr_left
    intro added _
    rw [Function.comp, flushed_eq]
    exact filter_coalesce (fun a b hne heq => by rw [hslot a b hne heq]) _

theorem metricSlot_congr (a b : Event) (hne : coalesceKey config a ≠ none)
    (h : coalesceKey config a = coalesceKey config b) : metricSlot a = metricSlot b := (slots_eq hne h).1

theorem paramSlot_congr (a b : Event) (hne : coalesceKey config a ≠ none)
    (h : coalesceKey config a = coalesceKey config b) : paramSlot a = paramSlot b := (slots_eq hne h).2.1

theorem tagSlot_congr (a b : Event) (hne : coalesceKey config a ≠ none)
    (h : coalesceKey config a = coalesceKey config b) : tagSlot a = tagSlot b := (slots_eq hne h).2.2

theorem metrics_sent {cut : Cut} (h : Distinct metricSlot (Cut.events cut)) (k : String × Int) :
    (sent floatLength config cut).filter (fun e => metricSlot e = some k) =
      (Cut.events cut).filter (fun e => metricSlot e = some k) := by
  obtain ⟨parts, hparts, hsent⟩ := @filter_sent config floatLength _ _ _ metricSlot_congr cut k
  rw [hsent, ← hparts]
  apply congrArg List.flatten
  refine (List.map_congr_left fun part hpart => ?_).trans (List.map_id parts)
  have hlength : part.length ≤ 1 := by
    calc part.length ≤ parts.flatten.length := (List.sublist_flatten_of_mem hpart).length_le
      _ ≤ 1 := hparts ▸ distinct_iff_filter.mp h k
  apply coalesce_of_distinct
  rcases part with _ | ⟨a, _ | ⟨b, part⟩⟩
  · exact List.Pairwise.nil
  · exact List.pairwise_singleton _ _
  · simp at hlength

theorem lastValue_stored {stored : Event → Option (String × String)} {slot : Event → Option String}
    {type : EventType} (htype : ∀ e k, slot e = some k → e.type = type)
    (hslot : ∀ e pair, e.type = type → stored e = some pair → slot e = some pair.1 ∧ valueOf e = .str pair.2)
    {events : List Event} {pairs : List (String × String)}
    (h : (events.filter (fun e => e.type = type)).map stored = pairs.map some) (name : String) :
    (lastValue name pairs).map Value.str = (events.filter (fun e => slot e = some name)).getLast?.map valueOf := by
  have hfilter : (events.filter (fun e => slot e = some name)).map stored =
      (pairs.filter (fun pair => pair.1 = name)).map some := by
    rw [← filter_slot htype]
    apply filter_stored h
    intro e he pair hpair
    rw [(hslot e pair (of_decide_eq_true (List.mem_filter.mp he).2) hpair).1]
    simp
  rw [lastValue, Option.map_map]
  generalize hevents : events.filter (fun e => slot e = some name) = slotted at hfilter
  have hlast : slotted.getLast?.map stored = (pairs.filter (fun pair => pair.1 = name)).getLast?.map some := by
    rw [← List.getLast?_map, hfilter, List.getLast?_map]
  cases hslotted : slotted.getLast? with
  | none =>
      rw [hslotted] at hlast
      rw [Option.map_eq_none_iff.mp hlast.symm]
      rfl
  | some e =>
      rw [hslotted, Option.map_some] at hlast
      obtain ⟨pair, hpair, heq⟩ := Option.map_eq_some_iff.mp hlast.symm
      have he : e ∈ events.filter (fun e => slot e = some name) := hevents ▸ List.mem_of_getLast? hslotted
      rw [hpair]
      exact congrArg some (hslot e pair (htype e name (of_decide_eq_true (List.mem_filter.mp he).2)) heq.symm).2.symm

theorem getLast?_sent {slot : Event → Option String} {dedupe : Bool}
    (hslot : ∀ a b, coalesceKey config a ≠ none → coalesceKey config a = coalesceKey config b → slot a = slot b)
    (hkey : ∀ e k, slot e = some k → (coalesceKey config e ≠ none ↔ dedupe = true)) {cut : Cut} {name : String}
    (h : dedupe = true → Unshadowed (coalesceKey config) valueOf
      ((Cut.events cut).filter (fun e => slot e = some name))) :
    ((sent floatLength config cut).filter (fun e => slot e = some name)).getLast?.map valueOf =
      ((Cut.events cut).filter (fun e => slot e = some name)).getLast?.map valueOf := by
  obtain ⟨parts, hparts, hsent⟩ := @filter_sent config floatLength _ _ _ hslot cut name
  have hkeys : ∀ e ∈ (Cut.events cut).filter (fun e => slot e = some name), coalesceKey config e ≠ none ↔
      dedupe = true :=
    fun e he => hkey e name (of_decide_eq_true (List.mem_filter.mp he).2)
  rw [hsent]
  by_cases hdedupe : dedupe = true
  · exact getLast?_parts (fun e he => (hkeys e he).mpr hdedupe) (h hdedupe) hparts
  · have hid : parts.map (coalesce (coalesceKey config)) = parts := by
      refine (List.map_congr_left fun part hpart => ?_).trans (List.map_id parts)
      apply coalesce_of_distinct
      apply distinct_of_none
      exact fun e he => not_not.mp (fun hne => hdedupe ((hkeys e (hparts ▸ List.mem_flatten_of_mem hpart he)).mp hne))
    rw [hid, hparts]

theorem delivered_of_cut {runId : String} {db db' : Database} {cut : Cut}
    (h : deliverCut floatLength config maxTagValueLen runId cut db = some db') :
    ∃ metrics params tags, Stored maxTagValueLen (sent floatLength config cut) ⟨metrics, params, tags, [], []⟩ ∧
      Delivered runId metrics params tags db db' := by
  obtain ⟨flushes, hflushes, rfl⟩ := Option.map_eq_some_iff.mp h
  obtain ⟨hstored, hwarnings⟩ := stored_of_cut hflushes
  exact ⟨_, _, _, hstored, delivered_foldl hwarnings db⟩

theorem points_stored {events : List Event} {contents : Contents} (h : Stored maxTagValueLen events contents)
    (name : String) (step : Int64) :
    (events.filter (fun e => metricSlot e = some (name, step.toInt))).map storedMetric =
      (contents.metrics.filter (fun m => m.name = name ∧ m.step = step)).map some := by
  rw [← @filter_slot _ _ metricSlot .metric (fun _ _ => metricSlot_type)]
  apply filter_stored h.metrics
  intro e he row hrow
  rw [metricSlot_of_stored (of_decide_eq_true (List.mem_filter.mp he).2) hrow]
  simp [Int64.toInt_inj]

theorem param_stored {events : List Event} {contents : Contents} (h : Stored maxTagValueLen events contents)
    (name : String) : (lastValue name contents.params).map Value.str =
      (events.filter (fun e => paramSlot e = some name)).getLast?.map valueOf :=
  lastValue_stored (fun _ _ => paramSlot_type) (fun _ _ => paramSlot_of_stored) h.params name

theorem tag_stored {events : List Event} {contents : Contents} (h : Stored maxTagValueLen events contents)
    (key : String) : (lastValue key contents.tags).map Value.str =
      (events.filter (fun e => tagSlot e = some key)).getLast?.map valueOf :=
  lastValue_stored (fun _ _ => tagSlot_type) (fun _ _ => tagSlot_of_stored) h.tags key

theorem str_injective : Function.Injective (Option.map Value.str) :=
  Option.map_injective (fun _ _ => Value.str.inj)

end Cuts

section Boundaries

variable {maxTagValueLen : Nat} {config : BatchConfig} {floatLength : F64 → Nat} {runId : String} {db db' : Database}
  {events : List Event} {cut : Cut}

theorem points_of_distinct (h : Distinct metricSlot events) (hcut : Cut.events cut = events)
    (hdeliver : deliverCut floatLength config maxTagValueLen runId cut db = some db') (name : String)
    (step : Int64) :
    pointsAt db' runId name step = pointsAt db runId name step ++ (lastMetric events name step).toList := by
  subst hcut
  obtain ⟨metrics, params, tags, hstored, hdelivered⟩ := delivered_of_cut hdeliver
  have hpoints := points_stored hstored name step
  have hlength := distinct_iff_filter.mp h (name, step.toInt)
  rw [metrics_sent h] at hpoints
  rw [hdelivered.metrics, lastMetric]
  congr 1
  generalize (Cut.events cut).filter (fun e => metricSlot e = some (name, step.toInt)) = slotted at hpoints hlength
  rcases slotted with _ | ⟨e, _ | ⟨e', slotted⟩⟩
  · exact List.map_eq_nil_iff.mp hpoints.symm
  · obtain ⟨row, hrow, heq⟩ := List.map_eq_singleton_iff.mp hpoints.symm
    rw [hrow, List.getLast?_singleton, Option.bind_some, ← heq]
    rfl
  · simp at hlength

theorem param_of_unshadowed (h : config.dedupeParams = true → ∀ name,
      Unshadowed (coalesceKey config) valueOf (events.filter (fun e => paramSlot e = some name)))
    (hcut : Cut.events cut = events)
    (hdeliver : deliverCut floatLength config maxTagValueLen runId cut db = some db') (name : String) :
    ∃ value : Option String, value.map Value.str =
      (events.filter (fun e => paramSlot e = some name)).getLast?.map valueOf ∧
      paramOf db' runId name = value.or (paramOf db runId name) := by
  subst hcut
  obtain ⟨metrics, params, tags, hstored, hdelivered⟩ := delivered_of_cut hdeliver
  refine ⟨_, (param_stored hstored name).trans ?_, hdelivered.params name⟩
  exact getLast?_sent paramSlot_congr (fun e k he => coalesceKey_of_param (paramSlot_type he))
    (fun hdedupe => h hdedupe name)

theorem tag_of_unshadowed (h : config.dedupeTags = true → ∀ key,
      Unshadowed (coalesceKey config) valueOf (events.filter (fun e => tagSlot e = some key)))
    (hcut : Cut.events cut = events)
    (hdeliver : deliverCut floatLength config maxTagValueLen runId cut db = some db') (key : String) :
    ∃ value : Option String, value.map Value.str =
      (events.filter (fun e => tagSlot e = some key)).getLast?.map valueOf ∧
      tagOf db' runId key = value.or (tagOf db runId key) := by
  subst hcut
  obtain ⟨metrics, params, tags, hstored, hdelivered⟩ := delivered_of_cut hdeliver
  refine ⟨_, (tag_stored hstored key).trans ?_, hdelivered.tags key⟩
  exact getLast?_sent tagSlot_congr (fun e k he => coalesceKey_of_tag (tagSlot_type he))
    (fun hdedupe => h hdedupe key)

theorem invisible_of_unambiguous (h : Unambiguous config events) :
    BoundariesInvisible floatLength config maxTagValueLen runId events db := by
  intro cut cut' db₁ db₂ hcut hcut' h₁ h₂
  refine ⟨⟨fun name step => ?_, fun name => ?_, fun key => ?_⟩, points_of_distinct h.metrics hcut h₁⟩
  · rw [points_of_distinct h.metrics hcut h₁, points_of_distinct h.metrics hcut' h₂]
  · obtain ⟨value, hvalue, hparam⟩ := param_of_unshadowed h.params hcut h₁ name
    obtain ⟨value', hvalue', hparam'⟩ := param_of_unshadowed h.params hcut' h₂ name
    rw [hparam, hparam', str_injective (hvalue.trans hvalue'.symm)]
  · obtain ⟨value, hvalue, htag⟩ := tag_of_unshadowed h.tags hcut h₁ key
    obtain ⟨value', hvalue', htag'⟩ := tag_of_unshadowed h.tags hcut' h₂ key
    rw [htag, htag', str_injective (hvalue.trans hvalue'.symm)]

def apart (events : List Event) : Cut := events.map (fun e => [(0, e)])

theorem events_apart (events : List Event) : Cut.events (apart events) = events := by
  induction events with
  | nil => rfl
  | cons e events ih => exact congrArg (e :: ·) ih

theorem sent_apart (events : List Event) : sent floatLength config (apart events) = events := by
  have hflushed : ∀ e, flushed floatLength config [(0, e)] = [e] := by
    intro e
    rw [flushed_eq]
    exact coalesce_of_distinct (List.pairwise_singleton _ _)
  simp [sent, apart, Function.comp_def, hflushed, ← List.flatMap_def]

theorem unshadowed_of_last {slot : Event → Option String}
    (hslot : ∀ a b, coalesceKey config a ≠ none → coalesceKey config a = coalesceKey config b → slot a = slot b)
    {name : String} (hkeys : ∀ e, slot e = some name → coalesceKey config e ≠ none)
    (h : ∀ cut, Cut.events cut = events →
      ((sent floatLength config cut).filter (fun e => slot e = some name)).getLast?.map
      valueOf = (events.filter (fun e => slot e = some name)).getLast?.map valueOf) :
    Unshadowed (coalesceKey config) valueOf (events.filter (fun e => slot e = some name)) := by
  apply unshadowed_of_parts
  · exact fun e he => hkeys e (of_decide_eq_true (List.mem_filter.mp he).2)
  · intro pre rest heq hne
    obtain ⟨front, back, rfl, rfl, rfl⟩ := List.filter_eq_append_iff.mp heq
    have htwo := h [front.map (fun e => (0, e)), back.map (fun e => (0, e))] (by simp [Cut.events, Function.comp_def])
    rw [← htwo]
    simp only [sent, List.map_cons, List.map_nil, flushed_eq, List.map_map, List.flatten_cons, List.flatten_nil,
      List.append_nil, Function.comp_def, List.map_id', List.filter_append]
    rw [filter_coalesce (fun a b hne heq => by rw [hslot a b hne heq]) back, List.getLast?_append]
    have hsome : (coalesce (coalesceKey config) (back.filter (fun e => slot e = some name))).getLast? ≠ none :=
      fun hnone => coalesce_ne_nil hne (List.getLast?_eq_none_iff.mp hnone)
    obtain ⟨last, hlast⟩ := Option.ne_none_iff_exists'.mp hsome
    rw [hlast, Option.some_or]

theorem distinct_of_points (hevents : ∀ e ∈ events, Acceptable maxTagValueLen e)
    (hdeliver : deliverCut floatLength config maxTagValueLen runId (apart events) db = some db')
    (h : ∀ name step, pointsAt db' runId name step = pointsAt db runId name step ++
      (lastMetric events name step).toList) :
    Distinct metricSlot events := by
  obtain ⟨metrics, params, tags, hstored, hdelivered⟩ := delivered_of_cut hdeliver
  rw [sent_apart] at hstored
  apply distinct_iff_filter.mpr
  intro k
  by_cases hnil : events.filter (fun e => metricSlot e = some k) = []
  · rw [hnil]
    exact Nat.zero_le 1
  · obtain ⟨e, he⟩ := List.exists_mem_of_ne_nil _ hnil
    obtain ⟨hmem, hslot⟩ := List.mem_filter.mp he
    have hslot := of_decide_eq_true hslot
    have htype := metricSlot_type hslot
    obtain ⟨row, hrow⟩ := Option.ne_none_iff_exists'.mp ((hevents e hmem).1 htype)
    obtain rfl := Option.some.inj (hslot.symm.trans (metricSlot_of_stored htype hrow))
    have hpoints := h row.name row.step
    rw [hdelivered.metrics, List.append_cancel_left_eq] at hpoints
    calc (events.filter (fun e => metricSlot e = some (row.name, row.step.toInt))).length
        = ((events.filter (fun e => metricSlot e = some (row.name, row.step.toInt))).map storedMetric).length :=
          (List.length_map _).symm
      _ = (lastMetric events row.name row.step).toList.length := by
          rw [points_stored hstored, List.length_map, hpoints]
      _ ≤ 1 := by cases lastMetric events row.name row.step <;> simp

theorem last_of_or {a b c : Option String} {last last' : Option Value} (ha : a.map Value.str = last)
    (hb : b.map Value.str = last') (hsome : last ≠ none ∧ last' ≠ none) (h : a.or c = b.or c) : last = last' := by
  cases a with
  | none => exact absurd ha.symm hsome.1
  | some a =>
      cases b with
      | none => exact absurd hb.symm hsome.2
      | some b =>
          rw [← ha, ← hb, ← Option.some_or, h, Option.some_or]

theorem last_sent_ne_none {slot : Event → Option String} {name : String}
    (hslot : ∀ a b, coalesceKey config a ≠ none → coalesceKey config a = coalesceKey config b → slot a = slot b)
    (h : (Cut.events cut).filter (fun e => slot e = some name) ≠ []) :
    ((sent floatLength config cut).filter (fun e => slot e = some name)).getLast?.map valueOf ≠ none := by
  obtain ⟨parts, hparts, hsent⟩ := @filter_sent config floatLength _ _ _ hslot cut name
  rw [hsent]
  intro hnone
  have hempty := List.getLast?_eq_none_iff.mp (Option.map_eq_none_iff.mp hnone)
  apply h
  rw [← hparts]
  apply List.flatten_eq_nil_iff.mpr
  intro part hpart
  by_contra hne
  exact coalesce_ne_nil hne (List.flatten_eq_nil_iff.mp hempty _ (List.mem_map_of_mem hpart))

theorem last_of_invisible {slot : Event → Option String} {value value' old : Option String} {name : String}
    (hslot : ∀ a b, coalesceKey config a ≠ none → coalesceKey config a = coalesceKey config b → slot a = slot b)
    (hcut : Cut.events cut = events)
    (hvalue : value.map Value.str =
      ((sent floatLength config cut).filter (fun e => slot e = some name)).getLast?.map valueOf)
    (hvalue' : value'.map Value.str = (events.filter (fun e => slot e = some name)).getLast?.map valueOf)
    (h : value.or old = value'.or old) :
    ((sent floatLength config cut).filter (fun e => slot e = some name)).getLast?.map valueOf =
      (events.filter (fun e => slot e = some name)).getLast?.map valueOf := by
  by_cases hnil : events.filter (fun e => slot e = some name) = []
  · obtain ⟨parts, hparts, hfilter⟩ := @filter_sent config floatLength _ _ _ hslot cut name
    rw [hcut, hnil] at hparts
    have hid : parts.map (coalesce (coalesceKey config)) = parts := by
      refine (List.map_congr_left fun part hpart => ?_).trans (List.map_id parts)
      rw [List.flatten_eq_nil_iff.mp hparts part hpart]
      rfl
    rw [hfilter, hid, hparts, hnil]
  · refine last_of_or hvalue hvalue' ⟨last_sent_ne_none hslot (hcut ▸ hnil), ?_⟩ h
    exact fun hnone => hnil (List.getLast?_eq_none_iff.mp (Option.map_eq_none_iff.mp hnone))

theorem unambiguous_of_invisible (hevents : ∀ e ∈ events, Acceptable maxTagValueLen e)
    (h : BoundariesInvisible floatLength config maxTagValueLen runId events db) : Unambiguous config events := by
  have hacceptable : ∀ cut, Cut.events cut = events → ∀ e ∈ Cut.events cut, Acceptable maxTagValueLen e :=
    fun cut hcut e he => hevents e (hcut ▸ he)
  obtain ⟨db₂, h₂⟩ := @deliverCut_of_acceptable maxTagValueLen config floatLength runId db (apart events)
    (hacceptable _ (events_apart events))
  obtain ⟨metrics₂, params₂, tags₂, hstored₂, hdelivered₂⟩ := delivered_of_cut h₂
  rw [sent_apart] at hstored₂
  refine ⟨?_, fun hdedupe name => ?_, fun hdedupe key => ?_⟩
  · exact distinct_of_points hevents h₂ (h _ _ _ _ (events_apart events) (events_apart events) h₂ h₂).2
  · apply @unshadowed_of_last config floatLength events paramSlot paramSlot_congr
    · exact fun e he => (coalesceKey_of_param (paramSlot_type he)).mpr hdedupe
    · intro cut hcut
      obtain ⟨db₁, h₁⟩ := @deliverCut_of_acceptable _ config floatLength runId db cut (hacceptable cut hcut)
      obtain ⟨metrics₁, params₁, tags₁, hstored₁, hdelivered₁⟩ := delivered_of_cut h₁
      apply last_of_invisible paramSlot_congr hcut (param_stored hstored₁ name) (param_stored hstored₂ name)
      rw [← hdelivered₁.params, ← hdelivered₂.params]
      exact (h _ _ _ _ hcut (events_apart events) h₁ h₂).1.params name
  · apply @unshadowed_of_last config floatLength events tagSlot tagSlot_congr
    · exact fun e he => (coalesceKey_of_tag (tagSlot_type he)).mpr hdedupe
    · intro cut hcut
      obtain ⟨db₁, h₁⟩ := @deliverCut_of_acceptable _ config floatLength runId db cut (hacceptable cut hcut)
      obtain ⟨metrics₁, params₁, tags₁, hstored₁, hdelivered₁⟩ := delivered_of_cut h₁
      apply last_of_invisible tagSlot_congr hcut (tag_stored hstored₁ key) (tag_stored hstored₂ key)
      rw [← hdelivered₁.tags, ← hdelivered₂.tags]
      exact (h _ _ _ _ hcut (events_apart events) h₁ h₂).1.tags key

/-- Where the flushes of a run are cut does not matter as long as what it logs is not
ambiguous, and if all of that can be stored, only then. -/
theorem invisible_logged (floatLength : F64 → Nat) (config : BatchConfig) (maxTagValueLen : Nat) (db : Database)
    (run : RunState) (calls : List Call) :
    (Unambiguous config (logged run calls) →
        BoundariesInvisible floatLength config maxTagValueLen run.runId (logged run calls) db) ∧
      ((∀ e ∈ logged run calls, Acceptable maxTagValueLen e) →
        BoundariesInvisible floatLength config maxTagValueLen run.runId (logged run calls) db →
          Unambiguous config (logged run calls)) :=
  ⟨invisible_of_unambiguous, unambiguous_of_invisible⟩

def defaultBatchConfig : BatchConfig := ⟨1000, 1048576, 1000, true, true, true⟩

def lossTwice : List Call :=
  [.log [("loss", .number 0x3FF0000000000000)] (some 0) none 0,
    .log [("loss", .number 0x4000000000000000)] (some 0) none 0]

theorem lossTwice_apart : ¬ BoundariesInvisible (fun _ => 3) defaultBatchConfig 1024 "r"
    (logged ⟨"r", false, 0⟩ lossTwice) RetrySafety.oneRun := by
  intro h
  let together : Cut := [(logged ⟨"r", false, 0⟩ lossTwice).map (fun e => (0, e))]
  let deliveredFrom := fun cut : Cut =>
    deliverCut (fun _ => 3) defaultBatchConfig 1024 "r" cut RetrySafety.oneRun
  obtain ⟨db₁, h₁⟩ := Option.ne_none_iff_exists'.mp
    (show deliveredFrom (apart (logged ⟨"r", false, 0⟩ lossTwice)) ≠ none by decide)
  obtain ⟨db₂, h₂⟩ := Option.ne_none_iff_exists'.mp (show deliveredFrom together ≠ none by decide)
  have hpoints := congrArg List.length ((h _ _ _ _ (events_apart _) (by decide) h₁ h₂).1.metrics "loss" 0)
  have htwo : (deliveredFrom (apart (logged ⟨"r", false, 0⟩ lossTwice))).map
      (fun db => (pointsAt db "r" "loss" 0).length) = some 2 := by decide
  have hone : (deliveredFrom together).map (fun db => (pointsAt db "r" "loss" 0).length) = some 1 := by decide
  rw [h₁, Option.map_some, hpoints] at htwo
  rw [h₂, Option.map_some] at hone
  exact absurd (htwo.symm.trans hone) (by decide)

end Boundaries

end MLRunX.FlushBoundaries
