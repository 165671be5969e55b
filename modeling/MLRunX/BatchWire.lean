import MLRunX.EnvelopeReading
import MLRunX.FlushBoundaries
import MLRunX.JsonNumerals

namespace MLRunX.BatchWire

open EnvelopeReading IngestRequest JsonMeaning JsonNumerals JsonText Sanitizer
open EventQueues (Data Event Value)
open FlushBoundaries (dataOf)
open PayloadHash (F64)
open SqlArith (fitsInt64)

/-- How finite numbers are printed by the SDK, and read by the server. -/
structure FloatText where
  print : F64 → Numeral
  read : Numeral → Option F64
  read_print : ∀ x, F64.isFinite x = true → ∃ y, read (print x) = some y
  finite_read : ∀ n y, read n = some y → F64.isFinite y = true

abbrev Py := JsonTree String Literal

section Sdk

variable (W : FloatText)

def nonFiniteOf (x : F64) : NonFinite :=
  if x = 0x7FF0000000000000 then .positive else if x = 0xFFF0000000000000 then .negative else .nan

def floatLiteral (x : F64) : Literal := if F64.isFinite x then .numeral (W.print x) else .nonFinite (nonFiniteOf x)

def intTree (n : Int) : Py := .number (.numeral (intNumeral n))

def valueTree : Value → Py
  | .str s => .string s
  | .int n => intTree n
  | .float x => .number (floatLiteral W x)
  | .none => .null

def dataTree (data : Data) : Py := .object (data.map (fun f => (f.1, valueTree W f.2)))

/-- What a batch is sent with: its number, its random part, the time and the counters. -/
structure Stamp where
  seq : Int64
  hex : String
  now : {x : F64 // F64.isFinite x = true}
  metricCount : Int64
  paramCount : Int64
  tagCount : Int64
  coalescedCount : Int64

def runIdOf (events : List Event) : String := (events.head?.map Event.runId).getD ""

def Stamp.batchId (stamp : Stamp) (runId : String) : String := s!"{runId}-{stamp.seq}-{stamp.hex}"

def Stamp.stats (stamp : Stamp) : Py :=
  .object [("metric_count", intTree stamp.metricCount.toInt), ("param_count", intTree stamp.paramCount.toInt),
    ("tag_count", intTree stamp.tagCount.toInt), ("coalesced_count", intTree stamp.coalescedCount.toInt)]

def batchTree (stamp : Stamp) (events : List Event) : Py :=
  .object [("run_id", .string (runIdOf events)), ("batch_id", .string (stamp.batchId (runIdOf events))),
    ("seq", intTree stamp.seq.toInt), ("metrics", .array ((dataOf .metric events).map (dataTree W))),
    ("params", .array ((dataOf .param events).map (dataTree W))),
    ("tags", .array ((dataOf .tag events).map (dataTree W))),
    ("events", .array ((dataOf .event events).map (dataTree W))),
    ("timestamp", .number (floatLiteral W stamp.now.1)), ("stats", stamp.stats)]

structure DumpOptions where
  spelling : Spelling
  gap : List Char
  allowNan : Bool
  blank : ∀ c ∈ gap, isBlank c = true

def DumpOptions.format (o : DumpOptions) : Format String Literal where
  text s := (o.spelling.spell s).flatMap Letter.chars
  number := Literal.chars
  gap := o.gap

/-- A writer that is strict about numbers raises an error. -/
def dumps (o : DumpOptions) (t : Py) : Option (List Char) :=
  if o.allowNan || t.allNumbers Literal.isNumeral then some (t.write o.format) else none

theorem isBlank_space : ∀ c ∈ [' '], isBlank c = true := List.forall_mem_singleton.2 rfl

def jsonDumps : DumpOptions := ⟨asciiSpelling, [' '], true, isBlank_space⟩

structure Compression where
  enabled : Bool
  minBytes : Int

/-- The body of a request once the server has undone the compression. The transport
writes what is not compressed itself. -/
def wireBody (config : Compression) (transport : DumpOptions) (t : Py) : Option (List Char) :=
  let payload := t.write jsonDumps.format
  if config.enabled && decide (config.minBytes ≤ payload.length) then some payload else dumps transport t

end Sdk

section Server

variable (W : FloatText)

def textOf : Doc → Option String
  | .string ls => (text ls).map String.ofList
  | _ => none

def floatOf : Doc → Option F64
  | .number (.numeral n) => W.read n
  | _ => none

def int64Of : Doc → Option Int64
  | .number (.numeral n) => ((intOf n).filter (fun i => fitsInt64 i)).map Int64.ofInt
  | _ => none

def listOf {α : Type} (read : Doc → Option α) : Doc → Option (List α)
  | .array items => items.mapM read
  | _ => none

def nullable {α : Type} (read : Doc → Option α) : Doc → Option (Option α)
  | .null => some none
  | d => (read d).map some

/-- The fields of a structure, or a list of them in order. -/
def structFields (names : List String) : Doc → Option (List (String × Doc))
  | .object fields => fields.mapM keyText
  | .array items => if items.length ≤ names.length then some (names.zip items) else none
  | _ => none

def required {α : Type} (read : Doc → Option α) (key : String) (fields : List (String × Doc)) : Option α :=
  (once fields key).bind (fun d => d.bind read)

def defaulted {α : Type} (read : Doc → Option α) (default : α) (key : String) (fields : List (String × Doc)) :
    Option α :=
  (once fields key).bind (fun d => d.elim (some default) read)

def decodeValue : Doc → Option MetricValue
  | .array items => (items.mapM (floatOf W)).map .array
  | d => (floatOf W d).map .scalar

def decodeMetric (d : Doc) : Option MetricData := do
  let fields ← structFields ["name", "value", "step", "timestamp"] d
  let name ← required textOf "name" fields
  let value ← required (decodeValue W) "value" fields
  let step ← required int64Of "step" fields
  let timestamp ← defaulted (nullable (floatOf W)) none "timestamp" fields
  some ⟨name, value, step, timestamp⟩

def decodeParam (d : Doc) : Option ParamData := do
  let fields ← structFields ["name", "value"] d
  let name ← required textOf "name" fields
  let value ← required textOf "value" fields
  some ⟨name, value⟩

def decodeTag (d : Doc) : Option TagData := do
  let fields ← structFields ["key", "value"] d
  let key ← required textOf "key" fields
  let value ← required textOf "value" fields
  some ⟨key, value⟩

def decodeEvent (d : Doc) : Option LogEventData := do
  let fields ← structFields ["level", "source", "message", "step", "timestamp"] d
  let level ← defaulted (nullable textOf) none "level" fields
  let source ← defaulted (nullable textOf) none "source" fields
  let message ← required textOf "message" fields
  let step ← defaulted (nullable int64Of) none "step" fields
  let timestamp ← defaulted (nullable (floatOf W)) none "timestamp" fields
  some ⟨level, source, message, step, timestamp⟩

/-- The counters of a batch are read, and nothing is done with them. -/
def decodeStats (d : Doc) : Option Unit := do
  let fields ← structFields ["metric_count", "param_count", "tag_count", "coalesced_count"] d
  let _ ← defaulted (nullable int64Of) none "metric_count" fields
  let _ ← defaulted (nullable int64Of) none "param_count" fields
  let _ ← defaulted (nullable int64Of) none "tag_count" fields
  let _ ← defaulted (nullable int64Of) none "coalesced_count" fields
  some ()

def decodeRequest (d : Doc) : Option IngestBatchHttpRequest := do
  let fields ← structFields
    ["run_id", "batch_id", "seq", "metrics", "params", "tags", "events", "timestamp", "stats"] d
  let runId ← required textOf "run_id" fields
  let batchId ← defaulted (nullable textOf) none "batch_id" fields
  let seq ← defaulted (nullable int64Of) none "seq" fields
  let metrics ← defaulted (listOf (decodeMetric W)) [] "metrics" fields
  let params ← defaulted (listOf decodeParam) [] "params" fields
  let tags ← defaulted (listOf decodeTag) [] "tags" fields
  let events ← defaulted (listOf (decodeEvent W)) [] "events" fields
  let _ ← defaulted (nullable (floatOf W)) none "timestamp" fields
  let _ ← defaulted (nullable decodeStats) none "stats" fields
  some { runId, batchId, seq := seq.map Int64.toInt, metrics, params, tags, events }

/-- What the server takes of a body, after it has undone the compression. -/
def maxBodyBytes : Nat := 2097152

def fitsBody (body : List Char) : Bool := (body.map Char.utf8Size).sum ≤ maxBodyBytes

/-- A body as the server reads it. What is too long or cannot be read is answered with
an error of the client. -/
def readBody (body : List Char) : Option IngestBatchHttpRequest :=
  if fitsBody body then (scan body).bind (decodeRequest W) else none

end Server

section Written

variable {W : FloatText} {S : Spelling}

def docOf (S : Spelling) (t : Py) : Doc := t.map S.spell id

theorem scan_write_format (o : DumpOptions) (t : Py) :
    scan (t.write o.format) = if t.allNumbers Literal.isNumeral then some (docOf o.spelling t) else none := by
  have hwrite : (docOf o.spelling t).write (docFormat o.gap) = t.write o.format := by
    apply write_map
    · exact fun _ => rfl
    · exact fun _ => rfl
    · rfl
  rw [← hwrite, scan_write o.blank, docOf, allNumbers_map]
  rfl

theorem dumps_scan (o : DumpOptions) (t : Py) :
    (dumps o t).bind scan = if t.allNumbers Literal.isNumeral then some (docOf o.spelling t) else none := by
  unfold dumps
  split
  · exact scan_write_format o t
  · rename_i hstrict
    have hnumbers : t.allNumbers Literal.isNumeral = false := by
      simp only [Bool.or_eq_true, not_or, Bool.not_eq_true] at hstrict
      exact hstrict.2
    rw [hnumbers]
    rfl

theorem wireBody_scan (config : Compression) (transport : DumpOptions) (t : Py) :
    ∃ S : Spelling, (wireBody config transport t).bind scan =
      if t.allNumbers Literal.isNumeral then some (docOf S t) else none := by
  by_cases h : (config.enabled && decide (config.minBytes ≤ (t.write jsonDumps.format).length)) = true
  · refine ⟨asciiSpelling, ?_⟩
    simp only [wireBody, if_pos h]
    exact scan_write_format jsonDumps t
  · refine ⟨transport.spelling, ?_⟩
    simp only [wireBody, if_neg h]
    exact dumps_scan transport t

theorem mapItems_eq {κ κ' ν ν' : Type} (f : κ → κ') (g : ν → ν') (items : List (JsonTree κ ν)) :
    mapItems f g items = items.map (JsonTree.map f g) := by
  induction items with
  | nil => rfl
  | cons d items ih => rw [mapItems, ih, List.map_cons]

theorem mapFields_eq {κ κ' ν ν' : Type} (f : κ → κ') (g : ν → ν') (fields : List (κ × JsonTree κ ν)) :
    mapFields f g fields = fields.map (fun p => (f p.1, p.2.map f g)) := by
  induction fields with
  | nil => rfl
  | cons p fields ih =>
      obtain ⟨key, d⟩ := p
      rw [mapFields, ih, List.map_cons]

theorem structFields_docOf (names : List String) (fields : List (String × Py)) :
    structFields names (docOf S (.object fields)) = some (fields.map (fun f => (f.1, docOf S f.2))) := by
  have hkeys : (fields.map (fun f => (S.spell f.1, docOf S f.2))).mapM keyText =
      some (fields.map (fun f => (f.1, docOf S f.2))) := by
    induction fields with
    | nil => rfl
    | cons f fields ih =>
        rw [List.map_cons, List.mapM_cons, ih, keyText, text_spell]
        simp
  rw [← hkeys, docOf, JsonTree.map, structFields, mapFields_eq]
  rfl

theorem textOf_docOf (s : String) : textOf (docOf S (.string s)) = some s := by
  simp only [docOf, JsonTree.map, textOf, text_spell, Option.map_some, String.ofList_toList]

theorem int64Of_docOf (i : Int) :
    int64Of (docOf S (intTree i)) = if fitsInt64 i then some (Int64.ofInt i) else none := by
  simp only [docOf, intTree, JsonTree.map, id_eq, int64Of, intOf_intNumeral]
  by_cases h : fitsInt64 i <;> simp [Option.filter, h]

theorem int64Of_toInt (n : Int64) : int64Of (docOf S (intTree n.toInt)) = some n := by
  rw [int64Of_docOf, if_pos ⟨n.le_toInt, n.toInt_lt⟩, Int64.ofInt_toInt]

theorem floatOf_docOf (x : F64) : floatOf W (docOf S (.number (floatLiteral W x))) =
    if F64.isFinite x then W.read (W.print x) else none := by
  unfold floatLiteral
  split <;> rfl

section Fields

variable {α : Type} {read : Doc → Option α} {default : α} {key : String} {fields : List (String × Doc)} {d : Doc}

theorem required_once (h : once fields key = some (some d)) : required read key fields = read d := by
  rw [required, h]
  rfl

theorem defaulted_once (h : once fields key = some (some d)) : defaulted read default key fields = read d := by
  rw [defaulted, h]
  rfl

theorem listOf_docOf (items : List Py) : listOf read (docOf S (.array items)) =
    items.mapM (fun t => read (docOf S t)) := by
  rw [docOf, JsonTree.map, mapItems_eq, listOf, List.mapM_map]
  rfl

end Fields

theorem decodeStats_docOf (stamp : Stamp) : decodeStats (docOf S stamp.stats) = some () := by
  have hcount (n : Int64) : nullable int64Of (docOf S (intTree n.toInt)) = some (some n) :=
    congrArg (Option.map some) (int64Of_toInt n)
  rw [decodeStats, Stamp.stats, structFields_docOf]
  simp only [List.map_cons, List.map_nil, Option.bind_eq_bind, Option.bind_some]
  rw [defaulted_once rfl, defaulted_once rfl, defaulted_once rfl, defaulted_once rfl]
  simp only [hcount, Option.bind_some]

theorem decodeRequest_docOf (stamp : Stamp) (events : List Event) :
    decodeRequest W (docOf S (batchTree W stamp events)) = (do
      let metrics ← (dataOf .metric events).mapM (fun data => decodeMetric W (docOf S (dataTree W data)))
      let params ← (dataOf .param events).mapM (fun data => decodeParam (docOf S (dataTree W data)))
      let tags ← (dataOf .tag events).mapM (fun data => decodeTag (docOf S (dataTree W data)))
      let logged ← (dataOf .event events).mapM (fun data => decodeEvent W (docOf S (dataTree W data)))
      some {
        runId := runIdOf events
        batchId := some (stamp.batchId (runIdOf events))
        seq := some stamp.seq.toInt
        metrics, params, tags
        events := logged }) := by
  obtain ⟨now, hnow⟩ := W.read_print stamp.now.1 stamp.now.2
  have htext (t : String) : nullable textOf (docOf S (.string t)) = some (some t) :=
    congrArg (Option.map some) (textOf_docOf t)
  have hseq : nullable int64Of (docOf S (intTree stamp.seq.toInt)) = some (some stamp.seq) :=
    congrArg (Option.map some) (int64Of_toInt stamp.seq)
  have htime : nullable (floatOf W) (docOf S (.number (floatLiteral W stamp.now.1))) = some (some now) := by
    have hread : floatOf W (docOf S (.number (floatLiteral W stamp.now.1))) = some now := by
      rw [floatOf_docOf, if_pos stamp.now.2, hnow]
    exact congrArg (Option.map some) hread
  have hstats : nullable decodeStats (docOf S stamp.stats) = some (some ()) :=
    congrArg (Option.map some) (decodeStats_docOf stamp)
  rw [decodeRequest, batchTree, structFields_docOf]
  simp only [List.map_cons, List.map_nil, Option.bind_eq_bind, Option.bind_some]
  rw [required_once rfl, textOf_docOf]
  simp only [Option.bind_some]
  rw [defaulted_once rfl, htext]
  simp only [Option.bind_some]
  rw [defaulted_once rfl, hseq]
  simp only [Option.bind_some]
  rw [defaulted_once rfl, listOf_docOf, List.mapM_map]
  congr 1
  funext metrics
  rw [defaulted_once rfl, listOf_docOf, List.mapM_map]
  congr 1
  funext params
  rw [defaulted_once rfl, listOf_docOf, List.mapM_map]
  congr 1
  funext tags
  rw [defaulted_once rfl, listOf_docOf, List.mapM_map]
  congr 1
  funext logged
  rw [defaulted_once rfl, htime]
  simp only [Option.bind_some]
  rw [defaulted_once rfl, hstats]
  rfl

end Written

end MLRunX.BatchWire
