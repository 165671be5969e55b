import MLRunX.BatchNumbers
import MLRunX.SanitizerBypass

namespace MLRunX.StructuredLogging

open BatchWire (Py DumpOptions FloatText Compression Stamp)
open EventQueues (Event Value)
open EnvelopeReading Ingest IngestRequest JsonMeaning JsonText JsonValues RunLogging RunTables Sanitizer
  SanitizerBypass SerdeJson
open PayloadHash (F64)
open StructuredEvents (RunEventRow StructuredEnvelope chartLogFromEventRow imageLogFromEventRow)

abbrev Dict := List (String × Py)

def orEmpty (d : Option Dict) : Py := .object (d.getD [])

structure ChartArgs where
  name : String
  data : Dict
  chartType : String := "custom"
  layout : Option Dict := none
  options : Option Dict := none
  rendererHint : Option String := none
  metadata : Option Dict := none

structure ImageArgs where
  name : String
  path : String
  caption : Option String := none
  metadata : Option Dict := none

inductive LogCall
  | chart (args : ChartArgs)
  | image (args : ImageArgs)

def ChartArgs.payload (args : ChartArgs) : Py :=
  .object [("name", .string args.name), ("chart_type", .string args.chartType), ("data", .object args.data),
    ("layout", orEmpty args.layout), ("options", orEmpty args.options),
    ("renderer_hint", .string ((args.rendererHint.filter (fun hint => hint ≠ "")).getD "auto")),
    ("metadata", orEmpty args.metadata)]

def ImageArgs.payload (args : ImageArgs) : Py :=
  .object [("name", .string args.name), ("path", .string args.path),
    ("caption", args.caption.elim .null .string), ("metadata", orEmpty args.metadata)]

def LogCall.kind : LogCall → String
  | .chart _ => "chart"
  | .image _ => "image"

def LogCall.payload : LogCall → Py
  | .chart args => args.payload
  | .image args => args.payload

def envelopeTree (kind : String) (payload : Py) : Py := .object [("kind", .string kind), ("payload", payload)]

/-- The envelope of a payload as a writer with some options puts it down. -/
def plain (o : DumpOptions) (call : LogCall) : String :=
  String.ofList ((envelopeTree call.kind call.payload).write o.format)

def compact : DumpOptions := ⟨asciiSpelling, [], true, fun _ h => absurd h List.not_mem_nil⟩

def maxChars : Nat := 1800

/-- What is sent of an envelope that is too long. -/
def truncatedTree (kind : String) (encoded : List Char) : Py :=
  .object [("kind", .string kind), ("truncated", .bool true), ("original_size", BatchWire.intTree encoded.length),
    ("preview", .string (String.ofList (encoded.take (maxChars - 220))))]

def encoded (call : LogCall) : List Char := (envelopeTree call.kind call.payload).write compact.format

def serializeStructuredMessage (call : LogCall) : String :=
  if (encoded call).length ≤ maxChars then String.ofList (encoded call)
  else String.ofList ((truncatedTree call.kind (encoded call)).write compact.format)

/-- What the SDK strips. -/
def isSpace (c : Char) : Bool := Text.isWhitespace c || (0x1C ≤ c.toNat && c.toNat ≤ 0x1F)

def strip (s : String) : String :=
  String.ofList ((s.toList.dropWhile isSpace).reverse.dropWhile isSpace).reverse

def normalizedLevel (level : String) : String :=
  let level := Text.toAsciiLowercase (strip level)
  if ["debug", "info", "warn", "error"].contains level then level else "info"

def logEvent (message level source : String) (step : Option Int) (timestamp : Option F64) (now : F64) (run : RunState) :
    Option Event :=
  if run.finished then none
  else if strip message = "" then none
  else some {
    type := .event
    runId := run.runId
    timestamp := (orTime timestamp now).toNat
    data := [("level", .str (normalizedLevel level)),
      ("source", .str (if strip source = "" then "sdk" else strip source)), ("message", .str (strip message)),
      ("step", step.elim .none .int), ("timestamp", .float (orTime timestamp now))] }

def LogCall.log (call : LogCall) (step : Option Int) (now : F64) (run : RunState) : Option Event :=
  logEvent (serializeStructuredMessage call) "info" call.kind step none now run

variable (N : Numbers)

def valueOf (t : Py) : Option Json := meaning N (BatchWire.docOf serdeSpelling t)

/-- What is shown of a value: the server has read it, put it down and read it again. -/
def shownOf (t : Py) : Option Json := (valueOf N t).map (reread N)

/-- An event that shows what a call was given, with its texts trimmed and its numbers reread. -/
def Shows (env : StructuredEvents.EventEnv) (row : RunEventRow) : LogCall → Prop
  | .chart args => ∃ chart, chartLogFromEventRow env row = some chart ∧ chart.name = Text.trim args.name ∧
      shownOf N (.object args.data) = some chart.data ∧ shownOf N (orEmpty args.layout) = some chart.layout ∧
      shownOf N (orEmpty args.options) = some chart.options ∧ shownOf N (orEmpty args.metadata) = some chart.metadata
  | .image args => ∃ image, imageLogFromEventRow env row = some image ∧ image.name = Text.trim args.name ∧
      image.path = Text.trim args.path ∧ shownOf N (orEmpty args.metadata) = some image.metadata

variable {N}

section Reading

variable {o o' : DumpOptions}

/-- What a value stands for does not depend on how its texts are spelled. -/
theorem meaning_spelling (S S' : Spelling) (t : Py) :
    meaning N (BatchWire.docOf S t) = meaning N (BatchWire.docOf S' t) := by
  have hitems (items : List Py) (ih : ∀ t ∈ items, meaning N (t.map S.spell id) = meaning N (t.map S'.spell id)) :
      meaningItems N (mapItems S.spell id items) = meaningItems N (mapItems S'.spell id items) := by
    induction items with
    | nil => rfl
    | cons t items ih' =>
        obtain ⟨ht, hitems⟩ := List.forall_mem_cons.mp ih
        simp only [mapItems, meaningItems, ht, ih' hitems]
  have hfields (fields : Dict) (ih : ∀ f ∈ fields, meaning N (f.2.map S.spell id) =
      meaning N (f.2.map S'.spell id)) :
      meaningFields N (mapFields S.spell id fields) = meaningFields N (mapFields S'.spell id fields) := by
    induction fields with
    | nil => rfl
    | cons f fields ih' =>
        obtain ⟨key, t⟩ := f
        obtain ⟨ht, hfields⟩ := List.forall_mem_cons.mp ih
        simp only [mapFields, meaningFields, text_spell, ht, ih' hfields]
  unfold BatchWire.docOf
  induction t using JsonTree.induct with
  | null => rfl
  | bool b => rfl
  | number l => rfl
  | string s => simp only [JsonTree.map, meaning, text_spell]
  | array items ih => simp only [JsonTree.map, meaning, hitems items ih]
  | object fields ih => simp only [JsonTree.map, meaning, hfields fields ih]

theorem fromStr_write (o : DumpOptions) (t : Py) : fromStr N (String.ofList (t.write o.format)) =
    if t.allNumbers Literal.isNumeral = true ∧ t.depth ≤ maxNesting then valueOf N t else none := by
  rw [fromStr, String.toList_ofList, BatchWire.scan_write_format]
  by_cases hnumbers : t.allNumbers Literal.isNumeral = true
  · rw [if_pos hnumbers, Option.bind_some, fromDoc, meaning_spelling o.spelling serdeSpelling]
    have hdepth : (BatchWire.docOf o.spelling t).depth = t.depth := depth_map t
    rw [hdepth, valueOf]
    simp only [hnumbers, true_and]
  · rw [if_neg hnumbers, if_neg (fun h => hnumbers h.1)]
    rfl

theorem sanitize_write (o o' : DumpOptions) (t : Py) :
    sanitizeStructuredEventMessage N (String.ofList (t.write o.format)) =
      sanitizeStructuredEventMessage N (String.ofList (t.write o'.format)) := by
  rw [sanitizeStructuredEventMessage, sanitizeStructuredEventMessage, fromStr_write, fromStr_write]

/-- A field beside the field of its value. -/
def Valued (N : Numbers) (f : String × Py) (g : String × Json) : Prop := f.1 = g.1 ∧ valueOf N f.2 = some g.2

theorem valued_fields {fields : Dict} {fs : List (String × Json)}
    (h : meaningFields N (mapFields serdeSpelling.spell id fields) = some fs) :
    List.Forall₂ (Valued N) fields fs := by
  induction fields generalizing fs with
  | nil =>
      obtain rfl : [] = fs := Option.some.inj h
      exact .nil
  | cons f fields ih =>
      obtain ⟨key, t⟩ := f
      obtain ⟨cs, hcs, hrest⟩ := Option.bind_eq_some_iff.mp h
      obtain ⟨j, hj, hrest⟩ := Option.bind_eq_some_iff.mp hrest
      obtain ⟨fs', hfs', hcons⟩ := Option.bind_eq_some_iff.mp hrest
      obtain rfl := Option.some.inj hcons
      rw [text_spell] at hcs
      obtain rfl := Option.some.inj hcs
      exact .cons ⟨(String.ofList_toList).symm, hj⟩ (ih hfs')

theorem lookup_valued {fields : Dict} {fs : List (String × Json)} (h : List.Forall₂ (Valued N) fields fs)
    {key : String}
    {t : Py} (ht : fields.lookup key = some t) : ∃ j, fs.lookup key = some j ∧ valueOf N t = some j := by
  induction h with
  | nil => cases ht
  | @cons f g fields fs hfg _ ih =>
      obtain ⟨name, t'⟩ := f
      obtain ⟨name', j⟩ := g
      obtain ⟨hname, hj⟩ := hfg
      obtain rfl : name = name' := hname
      rw [List.lookup_cons] at ht ⊢
      split at ht
      · obtain rfl := Option.some.inj ht
        exact ⟨j, rfl, hj⟩
      · exact ih ht

theorem valueOf_object {fields : Dict} {j : Json} (h : valueOf N (.object fields) = some j) :
    ∃ object, j = .object object ∧ ∀ key t, fields.reverse.lookup key = some t →
      ∃ v, object.lookup key = some v ∧ valueOf N t = some v := by
  obtain ⟨fs, hfs, rfl⟩ := Option.map_eq_some_iff.mp h
  refine ⟨ordered fs, rfl, fun key t ht => ?_⟩
  rw [lookup_ordered]
  exact lookup_valued (List.forall₂_reverse_iff.mpr (valued_fields hfs)) ht

theorem valueOf_string {s : String} {j : Json} (h : valueOf N (.string s) = some j) : j = .string s := by
  obtain ⟨cs, hcs, rfl⟩ := Option.map_eq_some_iff.mp h
  rw [text_spell] at hcs
  obtain rfl := Option.some.inj hcs
  rw [String.ofList_toList]

theorem envelope_of_plain {call : LogCall} {envelope : StructuredEnvelope}
    (h : (fromStr N (plain o call)).bind fromValue = some envelope) :
    envelope.kind = call.kind ∧ valueOf N call.payload = some envelope.payload := by
  obtain ⟨j, hj, hvalue⟩ := Option.bind_eq_some_iff.mp h
  rw [plain, fromStr_write] at hj
  obtain ⟨-, hj⟩ := Option.ite_none_right_eq_some.mp hj
  obtain ⟨object, rfl, hfields⟩ := valueOf_object hj
  obtain ⟨kind, hkind, hvalueOf⟩ := hfields "kind" (.string call.kind) rfl
  obtain ⟨payload, hpayload, hvalued⟩ := hfields "payload" call.payload rfl
  obtain rfl := valueOf_string hvalueOf
  simp only [fromValue, hkind, hpayload] at hvalue
  simp only [readEnvelope, Option.bind_some, Json.asStr, Option.bind_eq_bind] at hvalue
  split at hvalue
  · obtain rfl := Option.some.inj hvalue
    exact ⟨rfl, hvalued⟩
  · obtain rfl := Option.some.inj hvalue
    exact ⟨rfl, hvalued⟩
  · cases hvalue

end Reading

section Shown

variable {env : StructuredEvents.EventEnv} {flags : Auth.EndpointRbacTier → Bool} {row : RunEventRow} {clean : Json}

theorem textAt_valued {object : List (String × Json)} {key s : String} {v : Json} (hv : object.lookup key = some v)
    (hs : valueOf N (.string s) = some v) : textAt object key = some s := by
  obtain rfl := valueOf_string hs
  rw [textAt, hv]
  rfl

theorem valueAt_valued {object : List (String × Json)} {key : String} {v : Json}
    (hv : object.lookup key = some v) :
    valueAt object key = v := by
  rw [valueAt, hv]
  rfl

theorem trim_of_present {s name : String} (h : present (some s) = some name) : name = Text.trim s := by
  rw [present, Option.map_some] at h
  exact (Option.some.inj (Option.filter_eq_some_iff.mp h).1).symm

theorem valueAt_reread {fields : List (String × Json)} {key : String} {v : Json}
    (hv : (ordered fields).lookup key = some v) : valueAt (rereadFields N (ordered fields)) key = reread N v := by
  rw [valueAt, lookup_rereadFields, hv]
  rfl

theorem textAt_reread {fields : List (String × Json)} {key s : String}
    (hs : (ordered fields).lookup key = some (.string s)) : textAt (rereadFields N (ordered fields)) key = some s := by
  rw [textAt, lookup_rereadFields, hs]
  rfl

theorem chart_shown {args : ChartArgs} {payload : Json} (hpayload : valueOf N args.payload = some payload)
    (hclean : sanitizePayload N "chart" payload = .ok clean)
    (hread : envelopeFromStr N row.message = some ⟨"chart", reread N clean, false⟩) :
    Shows N (reader flags N) row (.chart args) := by
  obtain ⟨object, name, hobject, hname, -, rfl⟩ := sanitizeStructuredChartPayload_ok hclean
  obtain ⟨object', hobject', hfields⟩ := valueOf_object hpayload
  obtain rfl := Json.object.inj (hobject.symm.trans hobject')
  obtain ⟨_, hn, hnv⟩ := hfields "name" (.string args.name) rfl
  obtain ⟨data, hd, hdata⟩ := hfields "data" (.object args.data) rfl
  obtain ⟨layout, hl, hlayout⟩ := hfields "layout" (orEmpty args.layout) rfl
  obtain ⟨options, ho, hoptions⟩ := hfields "options" (orEmpty args.options) rfl
  obtain ⟨metadata, hm, hmetadata⟩ := hfields "metadata" (orEmpty args.metadata) rfl
  rw [trimmedAt, textAt_valued hn hnv] at hname
  obtain rfl := trim_of_present hname
  have hstored : ∀ key ∈ chartTrees, ∀ v, object.lookup key = some v →
      valueAt (rereadFields N (ordered [("name", .string (Text.trim args.name)),
        ("chart_type", .string ((trimmedAt object "chart_type").getD "custom")),
        ("renderer_hint", .string ((trimmedAt object "renderer_hint").getD "auto")), ("data", valueAt object "data"),
        ("layout", valueAt object "layout"), ("options", valueAt object "options"),
        ("metadata", valueAt object "metadata")])) key = reread N v := by
    intro key hkey v hv
    apply valueAt_reread
    rw [lookup_ordered, ← valueAt_valued hv]
    simp only [chartTrees, List.mem_cons, List.not_mem_nil, or_false] at hkey
    rcases hkey with rfl | rfl | rfl | rfl <;> rfl
  have hnamed : textAt (rereadFields N (ordered [("name", Json.string (Text.trim args.name)),
      ("chart_type", .string ((trimmedAt object "chart_type").getD "custom")),
      ("renderer_hint", .string ((trimmedAt object "renderer_hint").getD "auto")), ("data", valueAt object "data"),
      ("layout", valueAt object "layout"), ("options", valueAt object "options"),
      ("metadata", valueAt object "metadata")])) "name" = some (Text.trim args.name) := by
    apply textAt_reread
    rw [lookup_ordered]
    rfl
  refine ⟨_, Option.bind_eq_some_iff.mpr ⟨_, parseStructuredPayloadForKind_iff.mpr hread,
    Option.bind_eq_some_iff.mpr ⟨_, rfl, Option.bind_eq_some_iff.mpr ⟨_, hnamed, rfl⟩⟩⟩, rfl,
      ?_, ?_, ?_, ?_⟩
  · rw [shownOf, hdata, Option.map_some, ← hstored "data" (by decide) data hd]
  · rw [shownOf, hlayout, Option.map_some, ← hstored "layout" (by decide) layout hl]
  · rw [shownOf, hoptions, Option.map_some, ← hstored "options" (by decide) options ho]
  · rw [shownOf, hmetadata, Option.map_some, ← hstored "metadata" (by decide) metadata hm]

theorem image_shown {args : ImageArgs} {payload : Json} (hpayload : valueOf N args.payload = some payload)
    (hclean : sanitizePayload N "image" payload = .ok clean)
    (hread : envelopeFromStr N row.message = some ⟨"image", reread N clean, false⟩) :
    Shows N (reader flags N) row (.image args) := by
  obtain ⟨object, name, path, hobject, hname, hpath, -, rfl⟩ := sanitizeStructuredImagePayload_ok hclean
  obtain ⟨object', hobject', hfields⟩ := valueOf_object hpayload
  obtain rfl := Json.object.inj (hobject.symm.trans hobject')
  obtain ⟨_, hn, hnv⟩ := hfields "name" (.string args.name) rfl
  obtain ⟨_, hp, hpv⟩ := hfields "path" (.string args.path) rfl
  obtain ⟨metadata, hm, hmetadata⟩ := hfields "metadata" (orEmpty args.metadata) rfl
  rw [trimmedAt, textAt_valued hn hnv] at hname
  obtain rfl := trim_of_present hname
  rw [imagePath, hp] at hpath
  obtain rfl := valueOf_string hpv
  obtain rfl := trim_of_present hpath
  have hlookup : ∀ key, (ordered [("name", Json.string (Text.trim args.name)),
    ("path", .string (Text.trim args.path)),
      ("caption", optionalText (trimmedAt object "caption")), ("metadata", valueAt object "metadata")]).lookup key =
      List.lookup key [("metadata", valueAt object "metadata"), ("caption", optionalText (trimmedAt object "caption")),
        ("path", .string (Text.trim args.path)), ("name", .string (Text.trim args.name))] :=
    fun key => lookup_ordered _ key
  refine ⟨_, Option.bind_eq_some_iff.mpr ⟨_, parseStructuredPayloadForKind_iff.mpr hread,
    Option.bind_eq_some_iff.mpr ⟨_, rfl, Option.bind_eq_some_iff.mpr ⟨Text.trim args.name, ?_,
      Option.bind_eq_some_iff.mpr ⟨Text.trim args.path, ?_, rfl⟩⟩⟩⟩, rfl, rfl, ?_⟩
  · apply textAt_reread
    rw [hlookup]
    rfl
  · rw [lookup_rereadFields, hlookup]
    rfl
  · rw [shownOf, hmetadata, Option.map_some]
    apply congrArg some
    symm
    apply valueAt_reread
    rw [hlookup]
    exact congrArg some (valueAt_valued hm)

end Shown

section Sent

theorem writeFields_end {κ ν : Type} (F : Format κ ν) (fields : List (κ × JsonTree κ ν)) :
    ∃ cs, writeFields F fields = cs ++ ['\x7d'] := by
  induction fields with
  | nil => exact ⟨[], rfl⟩
  | cons f fields ih =>
      obtain ⟨key, t⟩ := f
      obtain ⟨cs, hcs⟩ := ih
      refine ⟨',' :: (F.gap ++ '"' :: (F.text key ++ '"' :: ':' :: (F.gap ++ (t.write F ++ cs)))), ?_⟩
      simp [writeFields, hcs]

/-- A text between braces. -/
def Braced (cs : List Char) : Prop := ∃ inner, cs = '\x7b' :: (inner ++ ['\x7d'])

theorem braced_object {κ ν : Type} (F : Format κ ν) (f : κ × JsonTree κ ν)
    (fields : List (κ × JsonTree κ ν)) :
    Braced ((JsonTree.object (f :: fields)).write F) := by
  obtain ⟨key, t⟩ := f
  obtain ⟨cs, hcs⟩ := writeFields_end F fields
  refine ⟨'"' :: (F.text key ++ '"' :: ':' :: (F.gap ++ (t.write F ++ cs))), ?_⟩
  simp [JsonTree.write, hcs]

theorem strip_braced {cs : List Char} (h : Braced cs) {p : Char → Bool} (hopen : p '\x7b' = false)
    (hclose : p '\x7d' = false) : ((cs.dropWhile p).reverse.dropWhile p).reverse = cs := by
  obtain ⟨inner, rfl⟩ := h
  rw [List.dropWhile_cons_of_neg (by rw [hopen]; exact Bool.false_ne_true), List.reverse_cons, List.reverse_append]
  simp [hclose]

theorem byteLength_le (s : String) : Text.byteLength s ≤ 4 * s.toList.length := by
  have hsum : ∀ cs : List Char, (cs.map Char.utf8Size).sum ≤ 4 * cs.length := by
    intro cs
    induction cs with
    | nil => exact Nat.zero_le _
    | cons c cs ih =>
        have hc := c.utf8Size_le_four
        simp only [List.map_cons, List.sum_cons, List.length_cons]
        omega
  exact hsum s.toList

theorem sanitizeRunEventMessage_braced {s : String} (h : Braced s.toList)
    (hlen : Text.byteLength s ≤ runEventMaxLen) :
    sanitizeRunEventMessage s = some s := by
  have htrim : Text.trim s = s := by
    rw [Text.trim, Text.trimChars, strip_braced h (by decide) (by decide), String.ofList_toList]
  have hne : s ≠ "" := by
    rintro rfl
    obtain ⟨inner, hinner⟩ := h
    cases hinner
  simp only [sanitizeRunEventMessage, htrim, if_neg hne, if_pos hlen]

theorem braced_serialized (call : LogCall) : Braced (serializeStructuredMessage call).toList := by
  unfold serializeStructuredMessage
  split
  · rw [String.toList_ofList]
    exact braced_object _ _ _
  · rw [String.toList_ofList]
    exact braced_object _ _ _

theorem strip_serialized (call : LogCall) : strip (serializeStructuredMessage call) =
    serializeStructuredMessage call := by
  rw [strip, strip_braced (braced_serialized call) (by decide) (by decide), String.ofList_toList]

theorem data_of_log {call : LogCall} {step : Option Int} {now : F64} {run : RunState} {e : Event}
    (h : call.log step now run = some e) : e.type = .event ∧
      ∃ level source step', e.data = [("level", .str level), ("source", .str source),
        ("message", .str (serializeStructuredMessage call)), ("step", step'), ("timestamp", .float now)] := by
  simp only [LogCall.log, logEvent, strip_serialized] at h
  split at h
  · cases h
  · split at h
    · cases h
    · obtain rfl := Option.some.inj h
      exact ⟨rfl, _, _, _, rfl⟩

variable {W : FloatText} {S : Spelling}

theorem finite_floatOf {d : Doc} {x : F64} (h : BatchWire.floatOf W d = some x) : F64.isFinite x = true := by
  unfold BatchWire.floatOf at h
  split at h
  · exact W.finite_read _ _ h
  · cases h

theorem decodeEvent_some {level source message : String} {step : Value} {now : F64} {event : LogEventData}
    (h : BatchWire.decodeEvent W (BatchWire.docOf S
      (BatchWire.dataTree W [("level", .str level), ("source", .str source),
      ("message", .str message), ("step", step), ("timestamp", .float now)])) = some event) :
    event.message = message ∧ event.timestamp.any (fun timestamp => !F64.isFinite timestamp) = false := by
  rw [BatchWire.decodeEvent, BatchWire.dataTree, BatchWire.structFields_docOf] at h
  simp only [List.map_cons, List.map_nil, Option.bind_eq_bind, Option.bind_some] at h
  obtain ⟨_, -, h⟩ := Option.bind_eq_some_iff.mp h
  obtain ⟨_, -, h⟩ := Option.bind_eq_some_iff.mp h
  obtain ⟨message', hmessage, h⟩ := Option.bind_eq_some_iff.mp h
  obtain ⟨_, -, h⟩ := Option.bind_eq_some_iff.mp h
  obtain ⟨timestamp, htime, h⟩ := Option.bind_eq_some_iff.mp h
  obtain rfl := Option.some.inj h
  rw [BatchWire.required_once rfl, BatchWire.valueTree, BatchWire.textOf_docOf] at hmessage
  rw [BatchWire.defaulted_once rfl] at htime
  obtain ⟨x, hx, rfl⟩ := Option.map_eq_some_iff.mp
    (show (BatchWire.floatOf W _).map some = some timestamp from htime)
  refine ⟨(Option.some.inj hmessage).symm, ?_⟩
  rw [Option.any_some, finite_floatOf hx]
  rfl

theorem decodeEvent_logged {level source message : String} {now x : F64} (hfinite : F64.isFinite now = true)
    (hnow : W.read (W.print now) = some x) :
    BatchWire.decodeEvent W (BatchWire.docOf S (BatchWire.dataTree W [("level", .str level), ("source", .str source),
      ("message", .str message), ("step", .none), ("timestamp", .float now)])) =
        some ⟨some level, some source, message, none, some x⟩ := by
  have htext (t : String) : BatchWire.nullable BatchWire.textOf (BatchWire.docOf S (.string t)) = some (some t) :=
    congrArg (Option.map some) (BatchWire.textOf_docOf t)
  have htime : BatchWire.nullable (BatchWire.floatOf W) (BatchWire.docOf S (.number (BatchWire.floatLiteral W now))) =
      some (some x) := by
    have hread : BatchWire.floatOf W (BatchWire.docOf S (.number (BatchWire.floatLiteral W now))) = some x := by
      rw [BatchWire.floatOf_docOf, if_pos hfinite, hnow]
    exact congrArg (Option.map some) hread
  rw [BatchWire.decodeEvent, BatchWire.dataTree, BatchWire.structFields_docOf]
  simp only [List.map_cons, List.map_nil, Option.bind_eq_bind, Option.bind_some]
  rw [BatchWire.defaulted_once rfl, BatchWire.defaulted_once rfl, BatchWire.required_once rfl,
    BatchWire.defaulted_once rfl, BatchWire.defaulted_once rfl]
  simp only [BatchWire.valueTree, htext, htime, BatchWire.textOf_docOf, Option.bind_some]
  rfl

end Sent

section Labels

def utf8 : DumpOptions := ⟨serdeSpelling, [], true, fun _ h => absurd h List.not_mem_nil⟩

def labelled (label : String) : LogCall := .chart { name := "x", data := [("label", .string label)] }

theorem require_true {ok : Bool} {error : String} (h : ok = true) : require ok error = .ok () := if_pos h

theorem checkLength_ok {s what : String} {max : Nat} (h : Text.byteLength s ≤ max) :
    checkLength s what max = .ok () :=
  require_true (decide_eq_true h)

theorem checkSize_ok {j : Json} {what : String} {max : Nat} (h : jsonSerializedSize N j ≤ max) :
    checkSize N j what max = .ok () :=
  require_true (decide_eq_true h)

/-- What lets a chart through. -/
structure ChartFits (N : Numbers) (object : List (String × Json)) (name : String) : Prop where
  named : trimmedAt object "name" = some name
  nameLength : Text.byteLength name ≤ 256
  typeLength : Text.byteLength ((trimmedAt object "chart_type").getD "custom") ≤ 64
  hintLength : Text.byteLength ((trimmedAt object "renderer_hint").getD "auto") ≤ 64
  trees : ∀ key ∈ chartTrees, validateStructuredJsonTree 1 (valueAt object key) = .ok ()
  sizes : ∀ key ∈ chartTrees, jsonSerializedSize N (valueAt object key) ≤ chartMetadataMaxBytes

theorem sanitizeStructuredChartPayload_fits {object : List (String × Json)} {name : String}
    (h : ChartFits N object name) :
    sanitizeStructuredChartPayload N (.object object) = .ok (cleanChart object name) := by
  obtain ⟨hname, h₁, h₂, h₃, htrees, hsizes⟩ := h
  simp only [chartTrees, List.forall_mem_cons] at htrees hsizes
  obtain ⟨hd, hl, ho, hm, -⟩ := htrees
  obtain ⟨sd, sl, so, sm, -⟩ := hsizes
  have hnamed : requireText (trimmedAt object "name") "chart payload.name is required" = .ok name := by
    rw [hname]
    rfl
  have hdata := Nat.le_trans sd (show chartMetadataMaxBytes ≤ chartDataMaxBytes by decide)
  have hlayout := Nat.le_trans sl (show chartMetadataMaxBytes ≤ chartLayoutMaxBytes by decide)
  have hoptions := Nat.le_trans so (show chartMetadataMaxBytes ≤ chartOptionsMaxBytes by decide)
  rw [sanitizeStructuredChartPayload]
  apply Fallible.bind_eq_ok.mpr ⟨name, hnamed, ?_⟩
  apply Fallible.bind_eq_ok.mpr ⟨(), checkLength_ok h₁, ?_⟩
  apply Fallible.bind_eq_ok.mpr ⟨(), checkLength_ok h₂, ?_⟩
  apply Fallible.bind_eq_ok.mpr ⟨(), checkLength_ok h₃, ?_⟩
  apply Fallible.bind_eq_ok.mpr ⟨(), hd, ?_⟩
  apply Fallible.bind_eq_ok.mpr ⟨(), hl, ?_⟩
  apply Fallible.bind_eq_ok.mpr ⟨(), ho, ?_⟩
  apply Fallible.bind_eq_ok.mpr ⟨(), hm, ?_⟩
  apply Fallible.bind_eq_ok.mpr ⟨(), checkSize_ok hdata, ?_⟩
  apply Fallible.bind_eq_ok.mpr ⟨(), checkSize_ok hlayout, ?_⟩
  apply Fallible.bind_eq_ok.mpr ⟨(), checkSize_ok hoptions, ?_⟩
  apply Fallible.bind_eq_ok.mpr ⟨(), checkSize_ok sm, ?_⟩
  rfl

theorem length_serdeLetters (c : Char) : ((serdeLetters c).flatMap Letter.chars).length ≤ 6 := by
  unfold serdeLetters
  split
  · exact (by decide : (2:Nat) ≤ 6)
  · split
    · exact (by decide : (1:Nat) ≤ 6)
    · exact Nat.le_refl 6

theorem length_text (s : String) : ((serdeSpelling.spell s).flatMap Letter.chars).length ≤ 6 * s.toList.length := by
  rw [Spelling.spell, List.flatMap_assoc]
  induction s.toList with
  | nil => exact Nat.zero_le _
  | cons c cs ih =>
      have hc := length_serdeLetters c
      rw [List.flatMap_cons, List.length_append, List.length_cons]
      change ((serdeLetters c).flatMap Letter.chars).length + _ ≤ _
      omega

def labelFields (label : String) : List (String × Json) :=
  [("name", .string "x"), ("chart_type", .string "custom"), ("data", .object [("label", .string label)]),
    ("layout", .object []), ("options", .object []), ("renderer_hint", .string "auto"), ("metadata", .object [])]

theorem valueOf_labelled (label : String) :
    valueOf N (labelled label).payload = some (.object (ordered (labelFields label))) := by
  simp only [valueOf, BatchWire.docOf, labelled, LogCall.payload, ChartArgs.payload, orEmpty, JsonTree.map,
    mapFields, meaning,
    meaningFields, text_spell, Option.map_some, Option.bind_eq_bind, Option.bind_some, String.ofList_toList]
  rfl

theorem size_label (s : String) : jsonSerializedSize N (.object [("label", .string s)]) ≤
    4 * (6 * s.toList.length + 42) := by
  apply Nat.le_trans (byteLength_le _)
  have hlabel := length_text "label"
  have hs := length_text s
  have hshort : ("label".toList).length = 5 := rfl
  rw [toStr, String.toList_ofList]
  simp only [tree, treeFields, JsonTree.write, writeFields, serdeFormat, List.length_cons,
    List.length_append, List.nil_append, List.length_nil]
  omega

theorem present_words : ∀ word ∈ ["custom", "auto", "x"], present (some word) = some word := by decide +kernel

theorem label_type (label : String) : trimmedAt (ordered (labelFields label)) "chart_type" = some "custom" := by
  rw [trimmedAt, textAt, lookup_ordered]
  exact present_words "custom" (by simp)

theorem label_hint (label : String) : trimmedAt (ordered (labelFields label)) "renderer_hint" = some "auto" := by
  rw [trimmedAt, textAt, lookup_ordered]
  exact present_words "auto" (by simp)

theorem label_trees (label : String) :
    valueAt (ordered (labelFields label)) "data" = .object [("label", .string label)] ∧
    ∀ key ∈ ["layout", "options", "metadata"], valueAt (ordered (labelFields label)) key = .object [] := by
  constructor
  · rw [valueAt, lookup_ordered]
    rfl
  · intro key hkey
    rw [valueAt, lookup_ordered]
    simp only [List.mem_cons, List.not_mem_nil, or_false] at hkey
    rcases hkey with rfl | rfl | rfl <;> rfl

variable {label : String}

theorem fits_labelled (hharmless : isScriptLike label = false) (hlength : label.toList.length ≤ 160) :
    ChartFits N (ordered (labelFields label)) "x" := by
  obtain ⟨hdata, hempty⟩ := label_trees label
  have hname : trimmedAt (ordered (labelFields label)) "name" = some "x" := by
    rw [trimmedAt, textAt, lookup_ordered]
    exact present_words "x" (by simp)
  refine ⟨hname, by decide +kernel, by rw [label_type]; decide +kernel, by rw [label_hint]; decide +kernel, ?_, ?_⟩
  · simp only [chartTrees, List.forall_mem_cons]
    rw [hdata, hempty _ (by decide), hempty _ (by decide), hempty _ (by decide)]
    refine ⟨?_, rfl, rfl, rfl, fun _ h => absurd h List.not_mem_nil⟩
    have hbytes := byteLength_le label
    have hstring : checkString label = .ok () :=
      Fallible.bind_eq_ok.mpr ⟨(), require_true (decide_eq_true (Nat.le_trans hbytes (Nat.le_trans
        (Nat.mul_le_mul_left 4 hlength) (by decide)))), require_true (by rw [hharmless]; rfl)⟩
    have hkey : checkKey "label" = .ok () :=
      Fallible.bind_eq_ok.mpr ⟨(), require_true (by decide +kernel), require_true (by decide +kernel)⟩
    have hleaf : validateStructuredJsonTree 2 (.string label) = .ok () :=
      Fallible.bind_eq_ok.mpr ⟨(), rfl, hstring⟩
    exact Fallible.bind_eq_ok.mpr ⟨(), rfl,
      Fallible.bind_eq_ok.mpr ⟨(), hkey, Fallible.bind_eq_ok.mpr ⟨(), hleaf, rfl⟩⟩⟩
  · simp only [chartTrees, List.forall_mem_cons]
    rw [hdata, hempty _ (by decide), hempty _ (by decide), hempty _ (by decide)]
    have hlabel := @size_label N label
    have hnone : jsonSerializedSize N (.object []) ≤ chartMetadataMaxBytes := Nat.le_trans (byteLength_le _) (by
      rw [toStr, String.toList_ofList]
      exact (by decide : 4 * 2 ≤ chartMetadataMaxBytes))
    have hdata : jsonSerializedSize N (.object [("label", .string label)]) ≤ chartMetadataMaxBytes :=
      Nat.le_trans hlabel (Nat.le_trans
        (Nat.mul_le_mul_left 4 (Nat.add_le_add_right (Nat.mul_le_mul_left 6 hlength) 42))
        (by decide))
    exact ⟨hdata, hnone, hnone, hnone, fun _ h => absurd h List.not_mem_nil⟩

theorem ordered_chart {α : Type} (n c r d l o m : α) :
    ordered [("name", n), ("chart_type", c), ("renderer_hint", r), ("data", d), ("layout", l), ("options", o),
      ("metadata", m)] = [("chart_type", c), ("data", d), ("layout", l), ("metadata", m), ("name", n), ("options", o),
        ("renderer_hint", r)] := by
  simp only [ordered, List.foldr, insertField, String.reduceLT, String.reduceEq, reduceIte]

def words : List String :=
  ["kind", "chart", "payload", "chart_type", "custom", "data", "label", "layout", "metadata", "name", "x", "options",
    "renderer_hint", "auto"]

theorem length_words : ∀ t ∈ words, ((serdeSpelling.spell t).flatMap Letter.chars).length ≤ 78 := by
  intro t ht
  have hshort : ∀ t ∈ words, t.toList.length ≤ 13 := by decide
  have hle := length_text t
  have ht := hshort t ht
  omega

theorem length_named (s : String) : (toStr N (normalized "chart" (jsonObject [("name", .string "x"),
    ("chart_type", .string "custom"), ("renderer_hint", .string "auto"), ("data", .object [("label", .string s)]),
    ("layout", .object []), ("options", .object []), ("metadata", .object [])]))).toList.length ≤
      6 * s.toList.length + 2000 := by
  have hwords := length_words
  simp only [words, List.forall_mem_cons] at hwords
  obtain ⟨h₁, h₂, h₃, h₄, h₅, h₆, h₇, h₈, h₉, h₁₀, h₁₁, h₁₂, h₁₃, h₁₄, -⟩ :=
    hwords
  have hs := length_text s
  rw [toStr, String.toList_ofList, normalized_eq, jsonObject, ordered_chart]
  simp only [tree, treeFields, JsonTree.write, writeFields, serdeFormat, List.length_cons,
    List.length_append, List.nil_append, List.length_nil]
  omega

theorem labelled_accepted (hharmless : isScriptLike label = false) (hshort : label.toList.length ≤ 160) : ∃ m,
    sanitizeStructuredEventMessage N (plain utf8 (labelled label)) = .ok (some m) := by
  have henvelope (t : Py) {j : Json} (hj : valueOf N t = some j) : valueOf N (envelopeTree "chart" t) =
      some (.object (ordered [("kind", .string "chart"), ("payload", j)])) := by
    have hj' : meaning N (t.map serdeSpelling.spell id) = some j := hj
    simp only [valueOf, BatchWire.docOf, envelopeTree, JsonTree.map, mapFields, meaning, meaningFields,
      text_spell, hj', Option.map_some, Option.bind_eq_bind, Option.bind_some, String.ofList_toList]
  have hnumbers (s : String) : (envelopeTree "chart" (labelled s).payload).allNumbers Literal.isNumeral = true ∧
      (envelopeTree "chart" (labelled s).payload).depth ≤ maxNesting := ⟨rfl, show 3 ≤ maxNesting by decide⟩
  have hread : (fromStr N (plain utf8 (labelled label))).bind fromValue =
      some ⟨"chart", .object (ordered (labelFields label)), false⟩ := by
    have hplain : plain utf8 (labelled label) =
      String.ofList ((envelopeTree "chart" (labelled label).payload).write utf8.format) := rfl
    rw [hplain, fromStr_write, if_pos (hnumbers label), henvelope _ (valueOf_labelled label)]
    simp only [Option.bind_some, fromValue, lookup_ordered]
    rfl
  obtain ⟨hdata, hempty⟩ := label_trees label
  have hclean : cleanChart (ordered (labelFields label)) "x" =
    jsonObject [("name", .string "x"), ("chart_type", .string "custom"),
      ("renderer_hint", .string "auto"), ("data", .object [("label", .string label)]), ("layout", .object []),
      ("options", .object []), ("metadata", .object [])] := by
    rw [cleanChart, label_type, label_hint, hdata, hempty _ (by decide), hempty _ (by decide),
      hempty _ (by decide)]
    rfl
  have hbytes : Text.byteLength (toStr N (normalized "chart" (cleanChart (ordered (labelFields label)) "x"))) ≤
      runEventMaxLen := by
    have hlength := length_named (N := N) label
    rw [← hclean] at hlength
    have hle := byteLength_le (toStr N (normalized "chart" (cleanChart (ordered (labelFields label)) "x")))
    have hmax : runEventMaxLen = 16000 := rfl
    omega
  refine ⟨toStr N (normalized "chart" (cleanChart (ordered (labelFields label)) "x")), ?_⟩
  rw [sanitizeStructuredEventMessage, hread]
  simp only
  rw [if_neg (by decide), if_pos trivial]
  apply Fallible.bind_eq_ok.mpr ⟨(), rfl, ?_⟩
  apply Fallible.bind_eq_ok.mpr ⟨_, sanitizeStructuredChartPayload_fits (fits_labelled hharmless hshort), ?_⟩
  exact Fallible.bind_eq_ok.mpr ⟨(), require_true (decide_eq_true hbytes), rfl⟩

end Labels

section Runs

variable {W : FloatText} {config : Compression} {transport o : DumpOptions} {stamp : Stamp}
    {call : LogCall} {m : String}
  {step : Option Int} {now : F64} {run : RunState} {e : Event} {batch : List Event} {request : IngestBatchHttpRequest}
  {env : Env} {sent : Sent} {fault : Option String} {faults : Faults} {s s' : ServerState} {answer : Ingested}
  {contents : Contents}

theorem shows_of_sanitized {flags : Auth.EndpointRbacTier → Bool} {row : RunEventRow}
    (h : sanitizeStructuredEventMessage N (plain o call) = .ok (some m)) (hrow : row.message = m) :
    Shows N (reader flags N) row call := by
  obtain ⟨envelope, clean, henvelope, -, hclean, -, hread⟩ := sanitized_read h
  obtain ⟨hkind, hpayload⟩ := envelope_of_plain henvelope
  rw [hkind] at hclean hread
  rw [← hrow] at hread
  cases call with
  | chart args => exact chart_shown hpayload hclean hread
  | image args => exact image_shown hpayload hclean hread

/-- The message of a call reaches the sanitizer as it was serialized. -/
theorem submitted_of_received (hlog : call.log step now run = some e) (he : e ∈ batch)
    (hreceived : BatchNumbers.received W config transport stamp batch = some request) :
    ∃ event ∈ request.events, event.message = serializeStructuredMessage call ∧
      event.timestamp.any (fun timestamp => !F64.isFinite timestamp) = false := by
  obtain ⟨htype, level, source, step', hdata⟩ := data_of_log hlog
  obtain ⟨S, -, -, -, hevents⟩ := BatchNumbers.reads_of_received hreceived
  obtain ⟨event, hevent, hdecode⟩ := Fallible.some_of_mem hevents (BatchNumbers.mem_dataOf he htype)
  rw [hdata] at hdecode
  exact ⟨event, hevent, decodeEvent_some hdecode⟩

/-- A chart or an image that the server takes as it is, and that is short enough for
the SDK, is shown after a flush as it was logged. -/
theorem logged_shown (flags : Auth.EndpointRbacTier → Bool)
    (haccepted : sanitizeStructuredEventMessage N (plain o call) = .ok (some m))
    (hlength : (encoded call).length ≤ maxChars) (hlog : call.log step now run = some e) (he : e ∈ batch)
    (hreceived : BatchNumbers.received W config transport stamp batch = some request) (hsent : sent.request = request)
    (hok : httpIngestBatch (sanitizing env N) sent fault faults s = (.ok answer, s'))
    (hcontents : answer.contents = some contents) :
    ∃ stored ∈ contents.events, ∀ row : RunEventRow, row.message = stored.message →
      Shows N (reader flags N) row call := by
  obtain ⟨event, hevent, hmessage, htime⟩ := submitted_of_received hlog he hreceived
  have hserialized : serializeStructuredMessage call = plain compact call := if_pos hlength
  have hsame : sanitizeStructuredEventMessage N (serializeStructuredMessage call) = .ok (some m) := by
    rw [hserialized, ← haccepted]
    exact sanitize_write compact o _
  have hbytes : Text.byteLength (serializeStructuredMessage call) ≤ runEventMaxLen := by
    have hle := byteLength_le (serializeStructuredMessage call)
    rw [hserialized, plain, String.toList_ofList] at hle
    change _ ≤ 4 * (encoded call).length at hle
    rw [hserialized, plain]
    have hmax : maxChars = 1800 := rfl
    have hlimit : runEventMaxLen = 16000 := rfl
    omega
  have hkept : sanitizeRunEventMessage event.message = some (serializeStructuredMessage call) := by
    rw [hmessage]
    exact sanitizeRunEventMessage_braced (braced_serialized call) hbytes
  obtain ⟨p, validation, rfl, rfl⟩ := contents_ingested hok hcontents
  subst hsent
  refine ⟨⟨normalizeRunEventLevel event.level, normalizeRunEventSource event.source, m, event.step,
    event.timestamp⟩, ?_, ?_⟩
  · apply mem_events.mpr
    refine ⟨event, hevent, ?_⟩
    simp only [sanitizeEvent, sanitizing, hkept, htime, hsame]
    rfl
  · exact fun row hrow => shows_of_sanitized haccepted hrow

end Runs

/-- What a server takes of a flush with one event. -/
def flushed (e : Event) : Option (IngestBatchHttpRequest × Contents) :=
  (BatchNumbers.received BatchNumbers.oneFloats ⟨true, 1024⟩ BatchWire.jsonDumps BatchNumbers.stamp [e]).bind
      (fun request =>
    (httpIngestBatch (sanitizing RetrySafety.devServer literalNumbers) { RetrySafety.lossBatch with request :=
      request } none {}
      start).1.toOption.bind (fun answer => answer.contents.map (fun contents => (request, contents))))

def messageEvent (time : Nat) (level source message : String) : Event :=
  ⟨.event, "r", time, [("level", .str level), ("source", .str source), ("message", .str message), ("step", .none),
    ("timestamp", .float BatchNumbers.one)]⟩

theorem received_message {time : Nat} {level source message : String}
    (hfits : BatchNumbers.bodyFits BatchNumbers.oneFloats ⟨true, 1024⟩ BatchWire.jsonDumps BatchNumbers.stamp
      [messageEvent time level source message] = true) :
    BatchNumbers.received BatchNumbers.oneFloats ⟨true, 1024⟩ BatchWire.jsonDumps BatchNumbers.stamp
      [messageEvent time level source message] = some {
        runId := "r"
        batchId := some (BatchNumbers.stamp.batchId "r")
        seq := some 1
        metrics := []
        events := [⟨some level, some source, message, none, some BatchNumbers.one⟩] } := by
  obtain ⟨S, hS⟩ := BatchNumbers.received_eq (W :=
    BatchNumbers.oneFloats) ⟨true, 1024⟩ BatchWire.jsonDumps BatchNumbers.stamp
    [messageEvent time level source message]
  have hevents : (FlushBoundaries.dataOf .event [messageEvent time level source message]).mapM
        (fun data => BatchWire.decodeEvent BatchNumbers.oneFloats
          (BatchWire.docOf S (BatchWire.dataTree BatchNumbers.oneFloats data))) =
        some [⟨some level, some source, message, none, some BatchNumbers.one⟩] := by
    have hdata : FlushBoundaries.dataOf .event [messageEvent time level source message] =
      [(messageEvent time level source message).data] := rfl
    rw [hdata, List.mapM_cons, messageEvent, decodeEvent_logged (by decide) (show _ = some BatchNumbers.one from rfl)]
    rfl
  have hnumbers : (BatchWire.batchTree BatchNumbers.oneFloats BatchNumbers.stamp
      [messageEvent time level source message]).allNumbers Literal.isNumeral = true := by
    rw [BatchNumbers.allNumbers_batchTree]
    simp only [List.forall_mem_cons]
    refine ⟨?_, ?_, ?_, ?_, fun _ h => absurd h List.not_mem_nil⟩
    · exact fun _ h => absurd h List.not_mem_nil
    · exact fun _ h => absurd h List.not_mem_nil
    · exact fun _ h => absurd h List.not_mem_nil
    · rintro data hdata
      obtain rfl := List.mem_singleton.mp hdata
      rfl
  rw [hS, hfits, hnumbers, Bool.and_self, if_pos rfl, BatchWire.decodeRequest_docOf, hevents]
  rfl

theorem flushed_message {time : Nat} {level source message : String}
    (hfits : BatchNumbers.bodyFits BatchNumbers.oneFloats ⟨true, 1024⟩ BatchWire.jsonDumps BatchNumbers.stamp
      [messageEvent time level source message] = true) :
    (flushed (messageEvent time level source message)).isSome = true := by
  simp only [flushed, received_message hfits, Option.bind_some]
  generalize hsent : ({ RetrySafety.lossBatch with request := _ } : Sent) = sent
  have hreceive : ∃ p s', receive (sanitizing RetrySafety.devServer literalNumbers) sent none start =
      (.ok (.process p), s') ∧ s'.db = start.db ∧ p.batch.metrics = [] ∧ p.sent = sent ∧
      validateRequest (sanitizing RetrySafety.devServer literalNumbers).limits.maxTagValueLength
        p.sent.request.toPayload =
        .ok p.batch := by
    subst hsent
    exact ⟨_, _, rfl, rfl, rfl, rfl, rfl⟩
  obtain ⟨p, s', hreceive, hdb, hnil, hp, hbatch⟩ := hreceive
  have hrun : ((start.db.findRun "r").map RunRow.status) = some "running" := rfl
  obtain ⟨run, hrun, hstatus⟩ := Option.map_eq_some_iff.mp hrun
  have hid : p.sent.request.runId = "r" := by
    rw [hp, ← hsent]
  have hsettles : Settles (sanitizing RetrySafety.devServer literalNumbers) {} p s' := by
    refine ⟨⟨run, ?_, by rw [hstatus]; decide⟩, rfl, fun _ => rfl, fun _ => ⟨rfl, rfl, rfl, rfl, rfl⟩, ?_⟩
    · rw [hdb, hid, hrun]
    · intro metric hmetric
      rw [hnil] at hmetric
      exact absurd hmetric List.not_mem_nil
  obtain ⟨answer, s'', hsettle⟩ := settle_completes hbatch hsettles
  obtain ⟨contents, hcontents, -⟩ := settle_ok hsettle
  have hok : (httpIngestBatch (sanitizing RetrySafety.devServer literalNumbers) sent none {} start).1 =
      .ok answer := by
    rw [httpIngestBatch, Commands.bind_ok (Commands.mapError_ok hreceive)]
    change (settle _ _ p s').1 = _
    rw [hsettle]
  rw [hok, Except.toOption, Option.bind_some, hcontents]
  rfl

theorem logged_labelled (label : String) : (labelled label).log none BatchNumbers.one BatchNumbers.newRun =
    some (messageEvent (orTime none BatchNumbers.one).toNat "info" "chart"
      (serializeStructuredMessage (labelled label))) := by
  have hne : serializeStructuredMessage (labelled label) ≠ "" := by
    intro h
    obtain ⟨inner, hinner⟩ := braced_serialized (labelled label)
    rw [h] at hinner
    cases hinner
  have hlevel : normalizedLevel "info" = "info" := by decide +kernel
  have hsource : (if strip (labelled label).kind = "" then "sdk" else strip (labelled label).kind) = "chart" := by
    rw [labelled, LogCall.kind]
    decide +kernel
  rw [LogCall.log, logEvent, strip_serialized, if_neg (by decide), if_neg hne, hlevel, hsource]
  rfl

theorem fits_labelled_a : BatchNumbers.bodyFits BatchNumbers.oneFloats
    ⟨true, 1024⟩ BatchWire.jsonDumps BatchNumbers.stamp
    [messageEvent (orTime none BatchNumbers.one).toNat "info" "chart" (serializeStructuredMessage (labelled "a"))] =
      true := by
  decide +kernel

theorem logged_shown_plain : ∃ m e request contents,
    sanitizeStructuredEventMessage literalNumbers (plain utf8 (labelled "a")) = .ok (some m) ∧
      (labelled "a").log none BatchNumbers.one BatchNumbers.newRun = some e ∧ flushed e = some (request, contents) ∧
      ∃ stored ∈ contents.events, ∀ row : RunEventRow, row.message = stored.message →
        Shows literalNumbers (reader (fun _ => true) literalNumbers) row (labelled "a") := by
  obtain ⟨m, hm⟩ := @labelled_accepted literalNumbers "a" (by decide +kernel) (by decide)
  have hlength : (encoded (labelled "a")).length ≤ maxChars := by decide +kernel
  have he := logged_labelled "a"
  have hflushed := flushed_message fits_labelled_a
  obtain ⟨⟨request, contents⟩, hflush⟩ := Option.isSome_iff_exists.mp hflushed
  obtain ⟨request', hreceived, hrest⟩ := Option.bind_eq_some_iff.mp hflush
  obtain ⟨answer, hanswer, hrest⟩ := Option.bind_eq_some_iff.mp hrest
  obtain ⟨contents', hcontents, hpair⟩ := Option.map_eq_some_iff.mp hrest
  cases hpair
  have hok := Fallible.toOption_eq_some hanswer
  exact ⟨m, _, request, contents, hm, he, hflush,
    logged_shown (fun _ => true) hm hlength he (List.mem_singleton_self _)
    hreceived rfl (Prod.ext hok rfl) hcontents⟩

section Cut

variable {call : LogCall}

theorem truncated_refused (hlength : maxChars < (encoded call).length) {t : String}
    (hsize : N.read (JsonNumerals.intNumeral (encoded call).length) = some t) :
    sanitizeStructuredEventMessage N (serializeStructuredMessage call) =
      .error s!"{call.kind} payload was truncated and cannot be ingested" := by
  have hserialized : serializeStructuredMessage call =
      String.ofList ((truncatedTree call.kind (encoded call)).write compact.format) :=
        if_neg (Nat.not_le.mpr hlength)
  have hvalue : valueOf N (truncatedTree call.kind (encoded call)) =
    some (.object (ordered [("kind", .string call.kind),
      ("truncated", .bool true), ("original_size", .number t),
      ("preview", .string (String.ofList ((encoded call).take (maxChars - 220))))])) := by
    simp only [valueOf, BatchWire.docOf, truncatedTree, BatchWire.intTree, JsonTree.map, mapFields, meaning,
      meaningFields,
      text_spell, id_eq, hsize, Option.map_some, Option.bind_eq_bind, Option.bind_some, String.ofList_toList]
  have hread : (fromStr N (serializeStructuredMessage call)).bind fromValue = some ⟨call.kind, .null, true⟩ := by
    rw [hserialized, fromStr_write, if_pos ⟨rfl, show 1 ≤ maxNesting by decide⟩, hvalue]
    simp only [Option.bind_some, fromValue, lookup_ordered]
    rfl
  rw [sanitizeStructuredEventMessage, hread]
  cases call <;> rfl

end Cut

/-- A label of characters that take twelve letters each in ASCII. -/
def faces : String := String.ofList (List.replicate 160 '😀')

theorem faces_toList : faces.toList = List.replicate 160 '😀' := String.toList_ofList

theorem faces_harmless : isScriptLike faces = false := by
  have hlower : (Text.toAsciiLowercase faces).toList = List.replicate 160 '😀' := by
    rw [Text.toAsciiLowercase, String.toList_ofList, faces_toList, List.map_replicate]
    rfl
  have hnot : ∀ needle : String, (∃ c ∈ needle.toList, c ≠ '😀') →
      Text.containsText needle (Text.toAsciiLowercase faces) = false := by
    rintro needle ⟨c, hc, hne⟩
    rw [Text.containsText, decide_eq_false_iff_not, hlower]
    intro hinside
    exact hne (List.eq_of_mem_replicate (hinside.subset hc))
  rw [isScriptLike, hnot _ ⟨'<', by decide, by decide⟩, hnot _ ⟨'j', by decide, by decide⟩]
  rfl

theorem length_writeFields {κ ν : Type} {F : Format κ ν} {fields : List (κ × JsonTree κ ν)}
    {f : κ × JsonTree κ ν}
    (hf : f ∈ fields) : (f.2.write F).length ≤ (writeFields F fields).length := by
  induction fields with
  | nil => cases hf
  | cons g fields ih =>
      obtain ⟨key, t⟩ := g
      simp only [writeFields, List.length_cons, List.length_append]
      rcases List.mem_cons.mp hf with rfl | hf
      · change (t.write F).length ≤ _
        omega
      · have h := ih hf
        omega

theorem length_field {κ ν : Type} {F : Format κ ν} {fields : List (κ × JsonTree κ ν)} {f : κ × JsonTree κ ν}
    (hf : f ∈ fields) : (f.2.write F).length ≤ ((JsonTree.object fields).write F).length := by
  cases fields with
  | nil => cases hf
  | cons g fields =>
      obtain ⟨key, t⟩ := g
      simp only [JsonTree.write, List.length_cons, List.length_append]
      rcases List.mem_cons.mp hf with rfl | hf
      · change (t.write F).length ≤ _
        omega
      · have h := length_writeFields (F := F) hf
        omega

theorem length_string {κ ν : Type} {F : Format κ ν} (s : κ) :
    (F.text s).length ≤ ((@JsonTree.string κ ν s).write F).length := by
  simp only [JsonTree.write, List.length_cons, List.length_append]
  omega

theorem length_encoded_faces : maxChars < (encoded (labelled faces)).length := by
  have hface : ((asciiSpelling.letters '😀').flatMap Letter.chars).length = 12 := rfl
  have htext (s : String) : compact.format.text s = (asciiSpelling.spell s).flatMap Letter.chars := rfl
  have hfaces : (compact.format.text faces).length = 160 * 12 := by
    rw [htext, Spelling.spell, List.flatMap_assoc, faces_toList, List.length_flatMap, List.map_replicate,
      List.sum_replicate_nat, hface]
  calc maxChars < 160 * 12 := by unfold maxChars; omega
    _ = (compact.format.text faces).length := hfaces.symm
    _ ≤ ((JsonTree.string faces).write compact.format).length := length_string faces
    _ ≤ ((JsonTree.object [("label", .string faces)]).write compact.format).length :=
        length_field (f := ("label", .string faces)) List.mem_cons_self
    _ ≤ ((labelled faces).payload.write compact.format).length :=
        length_field (f := ("data", .object [("label", .string faces)]))
          (List.mem_cons_of_mem _ (List.mem_cons_of_mem _ List.mem_cons_self))
    _ ≤ (encoded (labelled faces)).length :=
        length_field (f := ("payload", (labelled faces).payload)) (List.mem_cons_of_mem _ List.mem_cons_self)

theorem length_plain (s : String) : (plain utf8 (labelled s)).toList.length ≤ 6 * s.toList.length + 2000 := by
  have hwords := length_words
  simp only [words, List.forall_mem_cons] at hwords
  obtain ⟨h₁, h₂, h₃, h₄, h₅, h₆, h₇, h₈, h₉, h₁₀, h₁₁, h₁₂, h₁₃, h₁₄, -⟩ :=
    hwords
  have hs := length_text s
  have hhint : ((none : Option String).filter (fun hint => hint ≠ "")).getD "auto" = "auto" := rfl
  rw [plain, String.toList_ofList]
  simp only [labelled, LogCall.kind, LogCall.payload, ChartArgs.payload, envelopeTree, orEmpty, hhint,
    Option.getD_none,
    JsonTree.write, writeFields, DumpOptions.format, utf8, List.length_cons, List.length_append, List.nil_append,
    List.length_nil]
  omega

/-- A chart that the server takes is too long for the SDK, which has the server refuse it. -/
theorem faces_refused : ∃ m,
    sanitizeStructuredEventMessage literalNumbers (plain utf8 (labelled faces)) = .ok (some m) ∧
      Text.byteLength (plain utf8 (labelled faces)) ≤ runEventMaxLen ∧
      sanitizeStructuredEventMessage literalNumbers (serializeStructuredMessage (labelled faces)) =
        .error "chart payload was truncated and cannot be ingested" := by
  have hshort : faces.toList.length ≤ 160 := by rw [faces_toList, List.length_replicate]
  obtain ⟨m, hm⟩ := labelled_accepted (N := literalNumbers) faces_harmless hshort
  have hlength := length_plain faces
  rw [faces_toList, List.length_replicate] at hlength
  have hle := byteLength_le (plain utf8 (labelled faces))
  have hmax : runEventMaxLen = 16000 := rfl
  exact ⟨m, hm, by omega, truncated_refused length_encoded_faces rfl⟩

end MLRunX.StructuredLogging
