import MLRunX.BatchWire
import MLRunX.NameExcerpts

namespace MLRunX.BatchNumbers

open BatchWire Ingest IngestRequest JsonMeaning JsonText RunLogging RunTables
open Cardinality (CardinalityTracker LimitsConfig ValidationResult validateBatch)
open DiskSpool (EventType)
open EventQueues (Data Event Value)
open FlushBoundaries (dataOf floatField stepField strField)
open PayloadHash (F64)

variable (W : FloatText)

def finiteValue : Value → Bool
  | .float x => F64.isFinite x
  | _ => true

def finiteData (data : Data) : Bool := data.all (fun f => finiteValue f.2)

section Trees

variable {W}

theorem isNumeral_floatLiteral (x : F64) : (floatLiteral W x).isNumeral = F64.isFinite x := by
  unfold floatLiteral
  split
  · rename_i h
    exact h.symm
  · rename_i h
    exact (Bool.eq_false_of_not_eq_true h).symm

theorem allNumbers_valueTree (v : Value) : (valueTree W v).allNumbers Literal.isNumeral = finiteValue v := by
  cases v with
  | str s => rfl
  | int n => rfl
  | float x => exact isNumeral_floatLiteral x
  | none => rfl

theorem allNumbers_dataTree (data : Data) : (dataTree W data).allNumbers Literal.isNumeral = finiteData data := by
  rw [Bool.eq_iff_iff, dataTree, JsonTree.allNumbers, allNumbersFields_iff, finiteData, List.all_eq_true]
  simp only [List.forall_mem_map, allNumbers_valueTree]

theorem allNumbers_data (datas : List Data) :
    (JsonTree.array (datas.map (dataTree W))).allNumbers Literal.isNumeral = datas.all finiteData := by
  rw [Bool.eq_iff_iff, JsonTree.allNumbers, allNumbersItems_iff, List.all_eq_true]
  simp only [List.forall_mem_map, allNumbers_dataTree]

theorem allNumbers_batchTree (stamp : Stamp) (events : List Event) :
    (batchTree W stamp events).allNumbers Literal.isNumeral = true ↔
      ∀ type ∈ [EventType.metric, .param, .tag, .event], ∀ data ∈ dataOf type events,
        finiteData data = true := by
  rw [batchTree, JsonTree.allNumbers, allNumbersFields_iff]
  simp only [List.forall_mem_cons, allNumbers_data, List.all_eq_true]
  have hstats : stamp.stats.allNumbers Literal.isNumeral = true := rfl
  have htime : (@JsonTree.number String Literal (floatLiteral W stamp.now.1)).allNumbers Literal.isNumeral =
      true :=
    (isNumeral_floatLiteral stamp.now.1).trans stamp.now.2
  constructor
  · rintro ⟨-, -, -, hmetrics, hparams, htags, hevents, -⟩
    exact ⟨hmetrics, hparams, htags, hevents, fun _ h => absurd h List.not_mem_nil⟩
  · rintro ⟨hmetrics, hparams, htags, hevents, -⟩
    exact ⟨rfl, rfl, rfl, hmetrics, hparams, htags, hevents, htime, hstats, fun _ h => absurd h List.not_mem_nil⟩

end Trees

def received (config : Compression) (transport : DumpOptions) (stamp : Stamp) (events : List Event) :
    Option IngestBatchHttpRequest :=
  (wireBody config transport (batchTree W stamp events)).bind (readBody W)

def reread (x : F64) : Option F64 := W.read (W.print x)

structure Carries (e : Event) (row : MetricRow) : Prop where
  name : (strField e.data "name").map Text.trim = some row.name
  step : stepField e.data "step" = some row.step
  value : (floatField e.data "value").bind (reread W) = some row.value
  timestamp : (floatField e.data "timestamp").bind (reread W) = row.timestamp

/-- What the server keeps of a batch that passes its checks: all finite points whose names
are let in, and a warning about the others. -/
structure Keeps (events : List Event) (p : Pending) (validation : Cardinality.ValidationResult) (contents : Contents) :
    Prop where
  points : ∀ e ∈ events, finiteData e.data = true →
    ∃ row, Carries W e row ∧ (row.name ∈ validation.acceptedMetrics → row ∈ contents.metrics)
  warned : ∀ row ∈ p.batch.metrics, row.name ∈ validation.acceptedMetrics → isFiniteMetric row = false →
    ∃ n : Nat, s!"Dropped {n} metrics with non-finite values/timestamps" ∈ contents.warnings

/-- The body of a batch can be read and passes the checks, the tracker of the limits answers
whatever it holds, and no point is lost for another. -/
def Tolerated (env : Env) (config : Compression) (transport : DumpOptions) (stamp : Stamp) (events : List Event) :
    Prop :=
  ∃ request, received W config transport stamp events = some request ∧
    ∃ batch, validateRequest env.limits.maxTagValueLength request.toPayload = .ok batch ∧
      ∀ (p : Pending) (tracker : CardinalityTracker), p.sent.request = request → p.batch = batch →
        ∃ validation, (validateBatch env.limits p.projectId request.runId batch.tags
            (batch.metrics.map MetricRow.name)
            tracker).1 = .ok validation ∧
          Keeps W events p validation (prepareContents env p validation)

/-- The body of a batch, if there is one, is not longer than what the server takes. -/
def bodyFits (config : Compression) (transport : DumpOptions) (stamp : Stamp) (events : List Event) : Bool :=
  (wireBody config transport (batchTree W stamp events)).all fitsBody

/-- The name of a metric can be cut for a warning, if it is longer than allowed. -/
def Cited (limits : LimitsConfig) (e : Event) : Prop :=
  ∀ name ∈ strField e.data "name", NameExcerpts.Citable limits.maxMetricNameLength (Text.trim name)

/-- A metric with a name, with finite numbers and with a step of 64 bits. -/
structure Sound (e : Event) : Prop where
  named : (strField e.data "name").any (fun name => Text.trim name ≠ "") = true
  finite : finiteData e.data = true
  step : (stepField e.data "step").isSome = true

def isLog : Call → Bool
  | .log .. => true
  | _ => false

theorem metric_of_logged {calls : List Call} (hcalls : ∀ call ∈ calls, isLog call = true) {s : RunState}
    {e : Event}
    (he : e ∈ logged s calls) : ∃ runId step ts item, e = metricEvent runId step ts item := by
  induction calls generalizing s with
  | nil => exact absurd he List.not_mem_nil
  | cons call calls ih =>
      obtain ⟨hcall, hrest⟩ := List.forall_mem_cons.mp hcalls
      rcases List.mem_append.mp he with he | he
      · cases call with
        | log data step timestamp now =>
            simp only [Call.run, RunLogging.log] at he
            split at he
            · exact absurd he List.not_mem_nil
            · obtain ⟨item, -, rfl⟩ := List.mem_map.mp he
              exact ⟨_, _, _, item, rfl⟩
        | logParams params now => cases hcall
        | logTags tags now => cases hcall
      · exact ih hrest he

section Metrics

variable {W} {S : Spelling} {runId : String} {step : Int} {ts : F64} {item : String × F64}

theorem sound_metricEvent : Sound (metricEvent runId step ts item) ↔
    Text.trim item.1 ≠ "" ∧ F64.isFinite item.2 = true ∧ F64.isFinite ts = true ∧ SqlArith.fitsInt64 step := by
  have hname : strField (metricEvent runId step ts item).data "name" = some item.1 := rfl
  have hstep : stepField (metricEvent runId step ts item).data "step" =
      if SqlArith.fitsInt64 step then some (Int64.ofInt step) else none := rfl
  have hfinite : finiteData (metricEvent runId step ts item).data = true ↔
      F64.isFinite item.2 = true ∧ F64.isFinite ts = true := by
    simp [finiteData, metricEvent, finiteValue]
  constructor
  · rintro ⟨hnamed, hnumbers, hfits⟩
    rw [hname] at hnamed
    rw [hstep] at hfits
    obtain ⟨hvalue, hts⟩ := hfinite.mp hnumbers
    refine ⟨by simpa using hnamed, hvalue, hts, ?_⟩
    by_contra h
    rw [if_neg h] at hfits
    cases hfits
  · rintro ⟨hnamed, hvalue, hts, hfits⟩
    refine ⟨?_, hfinite.mpr ⟨hvalue, hts⟩, ?_⟩
    · rw [hname]
      simpa using hnamed
    · rw [hstep, if_pos hfits]
      rfl

theorem decodeMetric_docOf : decodeMetric W (docOf S (dataTree W (metricEvent runId step ts item).data)) =
    ((if F64.isFinite item.2 then reread W item.2 else none).map MetricValue.scalar).bind fun value =>
      (if SqlArith.fitsInt64 step then some (Int64.ofInt step) else none).bind fun step' =>
        ((if F64.isFinite ts then reread W ts else none).map some).bind fun timestamp =>
          some ⟨item.1, value, step', timestamp⟩ := by
  have hvalue : decodeValue W (docOf S (.number (floatLiteral W item.2))) =
      (if F64.isFinite item.2 then reread W item.2 else none).map .scalar :=
    congrArg (Option.map MetricValue.scalar) (floatOf_docOf item.2)
  have htime : nullable (floatOf W) (docOf S (.number (floatLiteral W ts))) =
      (if F64.isFinite ts then reread W ts else none).map some :=
    congrArg (Option.map some) (floatOf_docOf ts)
  rw [decodeMetric, dataTree, structFields_docOf]
  simp only [metricEvent, valueTree, List.map_cons, List.map_nil, Option.bind_eq_bind, Option.bind_some]
  rw [required_once rfl, textOf_docOf]
  simp only [Option.bind_some]
  rw [required_once rfl, hvalue]
  congr 1
  funext value
  rw [required_once rfl, int64Of_docOf]
  congr 1
  funext step'
  rw [defaulted_once rfl, htime]

theorem decodeMetric_some {m : MetricData}
    (h : decodeMetric W (docOf S (dataTree W (metricEvent runId step ts item).data)) = some m) :
    (F64.isFinite item.2 = true ∧ F64.isFinite ts = true ∧ SqlArith.fitsInt64 step) ∧
      ∃ value timestamp, reread W item.2 = some value ∧ reread W ts = some timestamp ∧
        m = ⟨item.1, .scalar value, Int64.ofInt step, some timestamp⟩ := by
  rw [decodeMetric_docOf] at h
  obtain ⟨_, hvalue, h⟩ := Option.bind_eq_some_iff.mp h
  obtain ⟨step', hstep, h⟩ := Option.bind_eq_some_iff.mp h
  obtain ⟨_, htime, h⟩ := Option.bind_eq_some_iff.mp h
  obtain rfl := Option.some.inj h
  obtain ⟨value, hread, rfl⟩ := Option.map_eq_some_iff.mp hvalue
  obtain ⟨timestamp, hreadTime, rfl⟩ := Option.map_eq_some_iff.mp htime
  obtain ⟨hfinite, hread⟩ := Option.ite_none_right_eq_some.mp hread
  obtain ⟨hfits, hstep⟩ := Option.ite_none_right_eq_some.mp hstep
  obtain ⟨hts, hreadTime⟩ := Option.ite_none_right_eq_some.mp hreadTime
  obtain rfl := Option.some.inj hstep
  exact ⟨⟨hfinite, hts, hfits⟩, value, timestamp, hread, hreadTime, rfl⟩

theorem exists_decodeMetric (h : Sound (metricEvent runId step ts item)) :
    ∃ m, decodeMetric W (docOf S (dataTree W (metricEvent runId step ts item).data)) = some m := by
  obtain ⟨-, hvalue, hts, hstep⟩ := sound_metricEvent.mp h
  obtain ⟨value, hv⟩ := W.read_print item.2 hvalue
  obtain ⟨timestamp, ht⟩ := W.read_print ts hts
  refine ⟨⟨item.1, .scalar value, Int64.ofInt step, some timestamp⟩, ?_⟩
  rw [decodeMetric_docOf, if_pos hvalue, if_pos hts, if_pos hstep, reread, reread, hv, ht]
  rfl

theorem expanded_decoded {m : MetricData} {rows : List MetricRow}
    (h : decodeMetric W (docOf S (dataTree W (metricEvent runId step ts item).data)) = some m)
    (hrows : expandMetric m = .ok rows) : Sound (metricEvent runId step ts item) ∧
      ∃ row ∈ rows, Carries W (metricEvent runId step ts item) row ∧ isFiniteMetric row = true := by
  obtain ⟨⟨hfinite, hts, hfits⟩, value, timestamp, hvalue, htime, rfl⟩ := decodeMetric_some h
  simp only [expandMetric] at hrows
  split at hrows
  · cases hrows
  · rename_i hnamed
    obtain rfl := Except.ok.inj hrows
    refine ⟨sound_metricEvent.mpr ⟨hnamed, hfinite, hts, hfits⟩, _, List.mem_singleton_self _,
      ⟨rfl, if_pos hfits, hvalue, htime⟩, ?_⟩
    rw [isFiniteMetric, W.finite_read _ _ hvalue]
    exact W.finite_read _ _ htime

theorem expanded_name {m : MetricData} {rows : List MetricRow}
    (h : decodeMetric W (docOf S (dataTree W (metricEvent runId step ts item).data)) = some m)
    (hrows : expandMetric m = .ok rows) : ∀ row ∈ rows, row.name = Text.trim item.1 := by
  obtain ⟨-, value, timestamp, -, -, rfl⟩ := decodeMetric_some h
  simp only [expandMetric] at hrows
  split at hrows
  · cases hrows
  · obtain rfl := Except.ok.inj hrows
    intro row hrow
    rw [List.mem_singleton.mp hrow]

theorem expand_sound {m : MetricData} (hsound : Sound (metricEvent runId step ts item))
    (h : decodeMetric W (docOf S (dataTree W (metricEvent runId step ts item).data)) = some m) :
    ∃ rows, expandMetric m = .ok rows := by
  obtain ⟨-, value, timestamp, -, -, rfl⟩ := decodeMetric_some h
  exact ⟨_, if_neg (sound_metricEvent.mp hsound).1⟩

end Metrics

section Batches

variable {W} {config : Compression} {transport : DumpOptions} {stamp : Stamp} {events : List Event}
  {request : IngestBatchHttpRequest}

theorem received_eq (config : Compression) (transport : DumpOptions) (stamp : Stamp) (events : List Event) :
    ∃ S, received W config transport stamp events =
      if bodyFits W config transport stamp events && (batchTree W stamp events).allNumbers Literal.isNumeral then
        decodeRequest W (docOf S (batchTree W stamp events))
      else none := by
  obtain ⟨S, hS⟩ := wireBody_scan config transport (batchTree W stamp events)
  refine ⟨S, ?_⟩
  rw [received, bodyFits]
  cases hbody : wireBody config transport (batchTree W stamp events) with
  | none =>
      rw [hbody, Option.bind_none] at hS
      split at hS
      · cases hS
      · rename_i hnumbers
        rw [Bool.eq_false_of_not_eq_true hnumbers, Bool.and_false]
        rfl
  | some body =>
      rw [hbody, Option.bind_some] at hS
      rw [Option.bind_some, readBody, hS, Option.all_some]
      cases fitsBody body with
      | false => rfl
      | true =>
          simp only [if_true, Bool.true_and]
          split <;> rfl

theorem reads_of_received (h : received W config transport stamp events = some request) :
    ∃ S, (dataOf .metric events).mapM (fun data => decodeMetric W (docOf S (dataTree W data))) =
      some request.metrics ∧
      (dataOf .param events).mapM (fun data => decodeParam (docOf S (dataTree W data))) = some request.params ∧
      (dataOf .tag events).mapM (fun data => decodeTag (docOf S (dataTree W data))) = some request.tags ∧
      (dataOf .event events).mapM (fun data => decodeEvent W (docOf S (dataTree W data))) =
        some request.events := by
  obtain ⟨S, hS⟩ := received_eq (W := W) config transport stamp events
  rw [hS] at h
  obtain ⟨-, h⟩ := Option.ite_none_right_eq_some.mp h
  rw [decodeRequest_docOf] at h
  obtain ⟨metrics, hmetrics, h⟩ := Option.bind_eq_some_iff.mp h
  obtain ⟨params, hparams, h⟩ := Option.bind_eq_some_iff.mp h
  obtain ⟨tags, htags, h⟩ := Option.bind_eq_some_iff.mp h
  obtain ⟨logged, hlogged, h⟩ := Option.bind_eq_some_iff.mp h
  obtain rfl := Option.some.inj h
  exact ⟨S, hmetrics, hparams, htags, hlogged⟩

theorem bodyFits_of_received (h : received W config transport stamp events = some request) :
    bodyFits W config transport stamp events = true := by
  obtain ⟨S, hS⟩ := received_eq (W := W) config transport stamp events
  rw [hS] at h
  obtain ⟨hboth, -⟩ := Option.ite_none_right_eq_some.mp h
  exact (Bool.and_eq_true_iff.mp hboth).1

theorem mem_dataOf {type : EventType} {e : Event} (he : e ∈ events) (htype : e.type = type) :
    e.data ∈ dataOf type events :=
  List.mem_map_of_mem (List.mem_filter.mpr ⟨he, by simpa using htype⟩)

theorem dataOf_other {type : EventType} (h : ∀ e ∈ events, e.type ≠ type) : dataOf type events = [] := by
  rw [dataOf, List.filter_eq_nil_iff.mpr (fun e he => by simpa using h e he), List.map_nil]

variable (hmetrics : ∀ e ∈ events, ∃ runId step ts item, e = metricEvent runId step ts item)

include hmetrics

theorem dataOf_none {type : EventType} (htype : type ≠ .metric) : dataOf type events = [] := by
  apply dataOf_other
  rintro e he rfl
  obtain ⟨runId, step, ts, item, rfl⟩ := hmetrics e he
  exact htype rfl

theorem received_of_sound (hsound : ∀ e ∈ events, Sound e)
    (hfits : bodyFits W config transport stamp events = true) :
    ∃ request, received W config transport stamp events = some request := by
  have hall : ∀ data ∈ dataOf .metric events, ∃ e ∈ events, e.data = data := by
    intro data hdata
    obtain ⟨e, he, hdata⟩ := List.mem_map.mp hdata
    exact ⟨e, (List.mem_filter.mp he).1, hdata⟩
  obtain ⟨S, hS⟩ := received_eq (W := W) config transport stamp events
  have hnumbers : (batchTree W stamp events).allNumbers Literal.isNumeral = true := by
    apply (allNumbers_batchTree stamp events).mpr
    intro type htype data hdata
    by_cases hmetric : type = .metric
    · subst hmetric
      obtain ⟨e, he, rfl⟩ := hall data hdata
      exact (hsound e he).finite
    · rw [dataOf_none hmetrics hmetric] at hdata
      exact absurd hdata List.not_mem_nil
  obtain ⟨metrics, hread⟩ : ∃ metrics,
      (dataOf .metric events).mapM (fun data => decodeMetric W (docOf S (dataTree W data))) = some metrics := by
    apply Fallible.exists_mapM_some
    intro data hdata
    obtain ⟨e, he, rfl⟩ := hall data hdata
    obtain ⟨runId, step, ts, item, rfl⟩ := hmetrics e he
    exact exists_decodeMetric (hsound _ he)
  rw [hS, hfits, hnumbers, Bool.and_self, if_pos rfl, decodeRequest_docOf, hread,
    @dataOf_none events hmetrics .param (by decide),
    @dataOf_none events hmetrics .tag (by decide), @dataOf_none events hmetrics .event (by decide)]
  exact ⟨_, rfl⟩

theorem requested_of_received (h : received W config transport stamp events = some request) :
    request.params = [] ∧ request.tags = [] := by
  obtain ⟨S, -, hparams, htags, -⟩ := reads_of_received h
  rw [dataOf_none hmetrics (by decide)] at hparams htags
  exact ⟨(Option.some.inj hparams).symm, (Option.some.inj htags).symm⟩

theorem validate_of_sound (hsound : ∀ e ∈ events, Sound e)
    (h : received W config transport stamp events = some request) (maxTagValueLen : Nat) :
    ∃ batch, validateRequest maxTagValueLen request.toPayload = .ok batch := by
  obtain ⟨hparams, htags⟩ := requested_of_received hmetrics h
  obtain ⟨S, hread, -⟩ := reads_of_received h
  obtain ⟨rowss, hrowss⟩ : ∃ rowss, request.metrics.mapM expandMetric = .ok rowss := by
    apply Fallible.exists_mapM
    intro m hm
    obtain ⟨data, hdata, hdecode⟩ := Fallible.mem_of_some hread hm
    obtain ⟨e, he, rfl⟩ := List.mem_map.mp hdata
    have hmem := (List.mem_filter.mp he).1
    obtain ⟨runId, step, ts, item, rfl⟩ := hmetrics e hmem
    exact expand_sound (hsound _ hmem) hdecode
  rw [validateRequest, hparams, htags, hrowss]
  exact ⟨_, rfl⟩

theorem row_of_validated (h : received W config transport stamp events = some request) {maxTagValueLen : Nat}
    {batch : ValidatedBatch} (hbatch : validateRequest maxTagValueLen request.toPayload = .ok batch) {e : Event}
    (he : e ∈ events) : Sound e ∧ ∃ row ∈ batch.metrics, Carries W e row ∧ isFiniteMetric row = true := by
  obtain ⟨S, hread, -⟩ := reads_of_received h
  obtain ⟨params, -, hvalid⟩ := Fallible.bind_eq_ok.mp hbatch
  obtain ⟨tags, -, hvalid⟩ := Fallible.bind_eq_ok.mp hvalid
  obtain ⟨rowss, hrowss, hvalid⟩ := Fallible.bind_eq_ok.mp hvalid
  obtain rfl := Except.ok.inj hvalid
  obtain ⟨runId, step, ts, item, rfl⟩ := hmetrics e he
  obtain ⟨m, hm, hdecode⟩ := Fallible.some_of_mem hread (mem_dataOf he rfl)
  obtain ⟨rows, hrows, hexpand⟩ := Fallible.mapM_exists hrowss m hm
  obtain ⟨hsound, row, hrow, hcarries⟩ := expanded_decoded hdecode hexpand
  exact ⟨hsound, row, List.mem_flatten.mpr ⟨rows, hrows, hrow⟩, hcarries⟩

theorem keeps_of_received (h : received W config transport stamp events = some request) {env : Env} {p : Pending}
    {validation : Cardinality.ValidationResult}
    (hbatch : validateRequest env.limits.maxTagValueLength request.toPayload = .ok p.batch) :
    Keeps W events p validation (prepareContents env p validation) := by
  constructor
  · intro e he _
    obtain ⟨-, row, hrow, hcarries, hfinite⟩ := row_of_validated hmetrics h hbatch he
    refine ⟨row, hcarries, fun haccepted => ?_⟩
    exact List.mem_filter.mpr ⟨List.mem_filter.mpr ⟨hrow, by simpa using haccepted⟩, hfinite⟩
  · intro row hrow haccepted hfinite
    have hcount : 0 < (p.batch.metrics.filter (fun m => validation.acceptedMetrics.contains m.name)).countP
        (fun m => !isFiniteMetric m) := by
      apply List.countP_pos_iff.mpr
      exact ⟨row, List.mem_filter.mpr ⟨hrow, by simpa using haccepted⟩, by rw [hfinite]; rfl⟩
    refine ⟨(p.batch.metrics.filter (fun m => validation.acceptedMetrics.contains m.name)).countP
        (fun m => !isFiniteMetric m), ?_⟩
    simp only [prepareContents, if_pos hcount, List.mem_append, List.mem_singleton, true_or, or_true]

theorem cited_rows (h : received W config transport stamp events = some request) {maxTagValueLen : Nat}
    {batch : ValidatedBatch} (hbatch : validateRequest maxTagValueLen request.toPayload = .ok batch)
    (limits : LimitsConfig) : (∀ row ∈ batch.metrics, NameExcerpts.Citable limits.maxMetricNameLength row.name) ↔
      ∀ e ∈ events, Cited limits e := by
  constructor
  · intro hrows e he name hname
    obtain ⟨-, row, hrow, hcarries, -⟩ := row_of_validated hmetrics h hbatch he
    have hsame := hcarries.name
    rw [hname, Option.map_some] at hsame
    rw [Option.some.inj hsame]
    exact hrows row hrow
  · intro hcited row hrow
    obtain ⟨S, hread, -⟩ := reads_of_received h
    obtain ⟨params, -, hvalid⟩ := Fallible.bind_eq_ok.mp hbatch
    obtain ⟨tags, -, hvalid⟩ := Fallible.bind_eq_ok.mp hvalid
    obtain ⟨rowss, hrowss, hvalid⟩ := Fallible.bind_eq_ok.mp hvalid
    obtain rfl := Except.ok.inj hvalid
    obtain ⟨rows, hrows, hmem⟩ := List.mem_flatten.mp hrow
    obtain ⟨m, hm, hexpand⟩ := Fallible.exists_of_mapM hrowss rows hrows
    obtain ⟨data, hdata, hdecode⟩ := Fallible.mem_of_some hread hm
    obtain ⟨e, he, rfl⟩ := List.mem_map.mp hdata
    have hevent := (List.mem_filter.mp he).1
    have hname := hcited e hevent
    obtain ⟨runId, step, ts, item, rfl⟩ := hmetrics e hevent
    rw [expanded_name hdecode hexpand row hmem]
    exact hname item.1 rfl

theorem tolerated_iff_sound (env : Env) : Tolerated W env config transport stamp events ↔
    (∀ e ∈ events, Sound e ∧ Cited env.limits e) ∧ bodyFits W config transport stamp events = true := by
  constructor
  · rintro ⟨request, hreceived, batch, hbatch, hkeeps⟩
    have hreturns : ∃ validation, (validateBatch env.limits "" request.runId batch.tags
        (batch.metrics.map MetricRow.name) .empty).1 = .ok validation := by
      obtain ⟨validation, hvalidation, -⟩ :=
        hkeeps ⟨{ RetrySafety.lossBatch with request := request }, "", "", batch, []⟩ .empty rfl rfl
      exact ⟨validation, hvalidation⟩
    have hrows := (NameExcerpts.request_returns_iff hbatch env.limits "" request.runId .empty).mp hreturns
    have hcited := (cited_rows hmetrics hreceived hbatch env.limits).mp hrows
    exact ⟨fun e he => ⟨(row_of_validated hmetrics hreceived hbatch he).1, hcited e he⟩,
      bodyFits_of_received hreceived⟩
  · rintro ⟨hall, hfits⟩
    have hsound : ∀ e ∈ events, Sound e := fun e he => (hall e he).1
    obtain ⟨request, hreceived⟩ := received_of_sound hmetrics hsound hfits
    obtain ⟨batch, hbatch⟩ := validate_of_sound hmetrics hsound hreceived env.limits.maxTagValueLength
    refine ⟨request, hreceived, batch, hbatch, fun p tracker _ hp => ?_⟩
    have hrows := (cited_rows hmetrics hreceived hbatch env.limits).mpr (fun e he => (hall e he).2)
    obtain ⟨validation, hvalidation⟩ :=
      (NameExcerpts.request_returns_iff hbatch env.limits p.projectId request.runId tracker).mpr hrows
    subst hp
    exact ⟨validation, hvalidation, keeps_of_received hmetrics hreceived hbatch⟩

omit hmetrics

/-- A batch of what `log` was called with, whether it is compressed or not, is stored but
for its bad points just when it has none, its names can be cut and its body is not too long. -/
theorem tolerated_iff {calls : List Call} (hcalls : ∀ call ∈ calls, isLog call = true) {s : RunState}
    (hbatch : ∀ e ∈ events, e ∈ logged s calls) (env : Env) :
    Tolerated W env config transport stamp events ↔
      (∀ e ∈ events, Sound e ∧ Cited env.limits e) ∧ bodyFits W config transport stamp events = true :=
  tolerated_iff_sound (fun _ he => metric_of_logged hcalls (hbatch _ he)) env

end Batches

def one : F64 := 0x3FF0000000000000

def oneNumeral : Numeral := ⟨['1', '.', '0'], by decide⟩

/-- A library that prints one as it should, and other numbers as their bits. -/
def oneFloats : FloatText where
  print x := if x = one then oneNumeral else JsonNumerals.intNumeral x.toNat
  read n := if n = oneNumeral then some one
    else ((JsonNumerals.intOf n).map (fun i => UInt64.ofNat i.toNat)).filter F64.isFinite
  read_print x hx := by
    by_cases hone : x = one
    · exact ⟨one, by rw [if_pos hone, if_pos rfl]⟩
    · have hdigits : JsonNumerals.intNumeral x.toNat ≠ oneNumeral := by
        intro h
        have hint := JsonNumerals.intOf_intNumeral x.toNat
        rw [h] at hint
        cases hint
      refine ⟨x, ?_⟩
      rw [if_neg hone, if_neg hdigits, JsonNumerals.intOf_intNumeral, Option.map_some, Int.toNat_natCast,
        UInt64.ofNat_toNat, Option.filter_some, if_pos hx]
  finite_read n y h := by
    split at h
    · obtain rfl := Option.some.inj h
      decide
    · exact (Option.filter_eq_some_iff.mp h).2

def stamp : Stamp := ⟨1, "f0", ⟨one, by decide⟩, 2, 0, 0, 0⟩

def logTwice (value : F64) : List Call := [.log [("acc", .number one), ("loss", .number value)] none none one]

def newRun : RunState := ⟨"r", false, 0⟩

theorem tolerated_finite :
    Tolerated oneFloats RetrySafety.devServer ⟨true, 1024⟩ jsonDumps stamp (logged newRun (logTwice one)) ↔
      (∀ e ∈ logged newRun (logTwice one), Sound e ∧ Cited {} e) ∧
        bodyFits oneFloats ⟨true, 1024⟩ jsonDumps stamp (logged newRun (logTwice one)) = true :=
  tolerated_iff (by decide) (fun _ he => he) RetrySafety.devServer

def nan : F64 := 0x7FF8000000000000

theorem nan_refused : (received oneFloats ⟨true, 1024⟩ jsonDumps stamp (logged newRun (logTwice nan))).isNone =
    true ∧
    ¬ Tolerated oneFloats RetrySafety.devServer ⟨true, 1024⟩ jsonDumps stamp (logged newRun (logTwice nan)) := by
  have hnone : (received oneFloats ⟨true, 1024⟩ jsonDumps stamp (logged newRun (logTwice nan))).isNone = true := by
    decide +kernel
  refine ⟨hnone, ?_⟩
  rintro ⟨request, hreceived, -⟩
  rw [hreceived] at hnone
  cases hnone

end MLRunX.BatchNumbers
