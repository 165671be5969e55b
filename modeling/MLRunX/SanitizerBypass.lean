import MLRunX.EnvelopeReading
import MLRunX.RetrySafety

namespace MLRunX.SanitizerBypass

open Auth Commands EnvelopeReading Ingest IngestRequest JsonMeaning JsonText JsonValues RunTables Sanitizer SerdeJson
  StructuredEvents

variable {N : Numbers}

theorem depthFields_le {fields : List (String × Json)} {n : Nat} (h : ∀ f ∈ fields, (tree f.2).depth ≤ n) :
    depthFields (treeFields fields) ≤ n := by
  induction fields with
  | nil => exact Nat.zero_le n
  | cons f fields ih =>
      obtain ⟨key, j⟩ := f
      obtain ⟨hj, hjs⟩ := List.forall_mem_cons.mp h
      exact Nat.max_le.mpr ⟨hj, ih hjs⟩

theorem depth_jsonObject {fields : List (String × Json)} {n : Nat} (h : ∀ f ∈ fields, (tree f.2).depth ≤ n) :
    (tree (jsonObject fields)).depth ≤ n + 1 :=
  Nat.succ_le_succ (depthFields_le (fun f hf => h f (mem_ordered hf)))

theorem normal_jsonObject {fields : List (String × Json)} (h : ∀ f ∈ fields, Normal N f.2) :
    Normal N (jsonObject fields) :=
  .object (sorted_ordered fields) (fun f hf => h f (mem_ordered hf))

theorem normal_lookup {fields : List (String × Json)} (h : Normal N (.object fields)) {key : String} {j : Json}
    (hj : fields.lookup key = some j) : Normal N j := by
  cases h with
  | object _ hall =>
      obtain ⟨before, after, rfl, -⟩ := List.lookup_eq_some_iff.mp hj
      exact hall (key, j) (List.mem_append_right _ List.mem_cons_self)

theorem normal_valueAt {fields : List (String × Json)} (h : Normal N (.object fields)) (key : String) :
    Normal N (valueAt fields key) := by
  unfold valueAt
  cases hj : fields.lookup key with
  | none => exact .object .nil (fun _ hf => absurd hf List.not_mem_nil)
  | some j => exact normal_lookup h hj

theorem normal_readEnvelope {kind payload truncated : Option Json} {e : StructuredEnvelope}
    (h : readEnvelope kind payload truncated = some e) (hpayload : ∀ j ∈ payload, Normal N j) :
    Normal N e.payload := by
  obtain ⟨text, -, h⟩ := Option.bind_eq_some_iff.mp h
  have hdefault : Normal N (payload.getD .null) := by
    cases payload with
    | none => exact .null
    | some j => exact hpayload j rfl
  split at h
  · obtain rfl := Option.some.inj h
    exact hdefault
  · obtain rfl := Option.some.inj h
    exact hdefault
  · cases h

theorem normal_fromValue {j : Json} {e : StructuredEnvelope} (hj : Normal N j) (h : fromValue j = some e) :
    Normal N e.payload := by
  have hitem : ∀ {items : List Json}, Normal N (.array items) → ∀ i ∈ items, Normal N i := by
    intro items h
    cases h with
    | array hall => exact hall
  unfold fromValue at h
  split at h
  · exact normal_readEnvelope h (fun p hp => normal_lookup hj hp)
  · exact normal_readEnvelope h (fun p hp => absurd hp (Option.not_mem_none p))
  · refine normal_readEnvelope h (fun p hp => ?_)
    obtain rfl := Option.some.inj hp
    exact hitem hj _ (by simp)
  · refine normal_readEnvelope h (fun p hp => ?_)
    obtain rfl := Option.some.inj hp
    exact hitem hj _ (by simp)
  · cases h

theorem normal_optionalText (s : Option String) : Normal N (optionalText s) := by
  cases s with
  | none => exact .null
  | some s => exact .string s

theorem depth_optionalText (s : Option String) : (tree (optionalText s)).depth = 0 := by
  cases s <;> rfl

theorem sanitizePayload_normal {kind : String} {payload clean : Json} (hpayload : Normal N payload)
    (h : sanitizePayload N kind payload = .ok clean) :
    Normal N clean ∧ (tree clean).depth ≤ structuredJsonMaxDepth + 1 := by
  unfold sanitizePayload at h
  split at h
  · obtain ⟨object, name, path, rfl, -, -, hmetadata, rfl⟩ := sanitizeStructuredImagePayload_ok h
    constructor
    · apply normal_jsonObject
      simp only [List.forall_mem_cons]
      exact ⟨.string _, .string _, normal_optionalText _, normal_valueAt hpayload _, fun _ hf =>
        absurd hf List.not_mem_nil⟩
    · apply depth_jsonObject
      have hdepth := hmetadata.nesting
      simp only [List.forall_mem_cons]
      refine ⟨Nat.zero_le _, Nat.zero_le _, ?_, by omega, fun _ hf => absurd hf List.not_mem_nil⟩
      rw [depth_optionalText]
      exact Nat.zero_le _
  · obtain ⟨object, name, rfl, -, htrees, rfl⟩ := sanitizeStructuredChartPayload_ok h
    constructor
    · apply normal_jsonObject
      simp only [List.forall_mem_cons]
      exact ⟨.string _, .string _, .string _, normal_valueAt hpayload _, normal_valueAt hpayload _,
        normal_valueAt hpayload _, normal_valueAt hpayload _, fun _ hf => absurd hf List.not_mem_nil⟩
    · apply depth_jsonObject
      simp only [chartTrees, List.forall_mem_cons] at htrees
      obtain ⟨hdata, hlayout, hoptions, hmetadata, -⟩ := htrees
      have h₁ := hdata.nesting
      have h₂ := hlayout.nesting
      have h₃ := hoptions.nesting
      have h₄ := hmetadata.nesting
      simp only [List.forall_mem_cons]
      exact ⟨Nat.zero_le _, Nat.zero_le _, Nat.zero_le _, by omega, by omega, by omega, by omega,
        fun _ hf => absurd hf List.not_mem_nil⟩

theorem sanitized_read {raw m : String} (h : sanitizeStructuredEventMessage N raw = .ok (some m)) :
    ∃ envelope clean, (fromStr N raw).bind fromValue = some envelope ∧
      (envelope.kind = "image" ∨ envelope.kind = "chart") ∧
      sanitizePayload N envelope.kind envelope.payload = .ok clean ∧
      fromStr N m = some (normalized envelope.kind (reread N clean)) ∧
        envelopeFromStr N m = some ⟨envelope.kind, reread N clean, false⟩ := by
  obtain ⟨envelope, clean, henvelope, hkind, hclean, rfl⟩ := sanitizeStructuredEventMessage_some h
  obtain ⟨j, hj, hvalue⟩ := Option.bind_eq_some_iff.mp henvelope
  obtain ⟨hnormal, hdepth⟩ := sanitizePayload_normal (normal_fromValue (normal_fromStr hj) hvalue) hclean
  have hnesting : (tree clean).depth + 1 ≤ maxNesting := Nat.le_trans (Nat.succ_le_succ hdepth) (by decide)
  refine ⟨envelope, clean, henvelope, hkind, hclean, ?_, envelopeFromStr_normalized hnormal hnesting⟩
  rw [← reread_normalized]
  apply fromStr_toStr (normal_normalized hnormal)
  rw [depth_normalized]
  exact hnesting

def reader (flags : EndpointRbacTier → Bool) (N : Numbers) : EventEnv := ⟨flags, envelopeFromStr N⟩

def ShownAsChart (N : Numbers) (m : String) : Prop :=
  ∃ object name, envelopeFromStr N m = some ⟨"chart", .object object, false⟩ ∧ textAt object "name" = some name

/-- A message that is shown as an image. -/
def ShownAsImage (N : Numbers) (m : String) : Prop :=
  ∃ object name path, envelopeFromStr N m = some ⟨"image", .object object, false⟩ ∧
    textAt object "name" = some name ∧
    ((object.lookup "path").orElse (fun _ => object.lookup "uri")).bind Json.asStr = some path

theorem asObject_some {j : Json} {object : List (String × Json)} (h : j.asObject = some object) :
    j = .object object := by
  cases j with
  | object fields => exact congrArg Json.object (Option.some.inj h)
  | null => cases h
  | bool b => cases h
  | number l => cases h
  | string s => cases h
  | array items => cases h

theorem parseStructuredPayloadForKind_iff {flags : EndpointRbacTier → Bool} {m kind : String} {payload : Json} :
    parseStructuredPayloadForKind (reader flags N) m kind = some payload ↔
      envelopeFromStr N m = some ⟨kind, payload, false⟩ := by
  constructor
  · intro h
    obtain ⟨e, he, h⟩ := Option.bind_eq_some_iff.mp h
    by_cases hmatch : (e.kind == kind && !e.truncated) = true
    · rw [if_pos hmatch] at h
      obtain rfl := Option.some.inj h
      obtain ⟨rfl, htruncated⟩ : e.kind = kind ∧ e.truncated = false := by simpa using hmatch
      rw [← htruncated]
      exact he
    · rw [if_neg hmatch] at h
      cases h
  · exact fun h => Option.bind_eq_some_iff.mpr ⟨_, h, by simp⟩

theorem chartLog_isSome_iff {flags : EndpointRbacTier → Bool} (row : RunEventRow) :
    (chartLogFromEventRow (reader flags N) row).isSome = true ↔ ShownAsChart N row.message := by
  constructor
  · intro h
    obtain ⟨chart, hchart⟩ := Option.isSome_iff_exists.mp h
    obtain ⟨payload, hpayload, hchart⟩ := Option.bind_eq_some_iff.mp hchart
    obtain ⟨object, hobject, hchart⟩ := Option.bind_eq_some_iff.mp hchart
    obtain ⟨name, hname, -⟩ := Option.bind_eq_some_iff.mp hchart
    obtain rfl := asObject_some hobject
    exact ⟨object, name, parseStructuredPayloadForKind_iff.mp hpayload, hname⟩
  · rintro ⟨object, name, henvelope, hname⟩
    apply Option.isSome_iff_exists.mpr
    exact ⟨_, Option.bind_eq_some_iff.mpr ⟨_, parseStructuredPayloadForKind_iff.mpr henvelope,
      Option.bind_eq_some_iff.mpr ⟨object, rfl, Option.bind_eq_some_iff.mpr ⟨name, hname, rfl⟩⟩⟩⟩

theorem imageLog_isSome_iff {flags : EndpointRbacTier → Bool} (row : RunEventRow) :
    (imageLogFromEventRow (reader flags N) row).isSome = true ↔ ShownAsImage N row.message := by
  constructor
  · intro h
    obtain ⟨image, himage⟩ := Option.isSome_iff_exists.mp h
    obtain ⟨payload, hpayload, himage⟩ := Option.bind_eq_some_iff.mp himage
    obtain ⟨object, hobject, himage⟩ := Option.bind_eq_some_iff.mp himage
    obtain ⟨name, hname, himage⟩ := Option.bind_eq_some_iff.mp himage
    obtain ⟨path, hpath, -⟩ := Option.bind_eq_some_iff.mp himage
    obtain rfl := asObject_some hobject
    exact ⟨object, name, path, parseStructuredPayloadForKind_iff.mp hpayload, hname, hpath⟩
  · rintro ⟨object, name, path, henvelope, hname, hpath⟩
    apply Option.isSome_iff_exists.mpr
    exact ⟨_, Option.bind_eq_some_iff.mpr ⟨_, parseStructuredPayloadForKind_iff.mpr henvelope,
      Option.bind_eq_some_iff.mpr ⟨object, rfl, Option.bind_eq_some_iff.mpr ⟨name, hname,
        Option.bind_eq_some_iff.mpr ⟨path, hpath, rfl⟩⟩⟩⟩⟩

/-- A message that is what the sanitizer puts in place of one of a kind. -/
def Sanitized (N : Numbers) (kind m : String) : Prop :=
  ∃ raw envelope, (fromStr N raw).bind fromValue = some envelope ∧ envelope.kind = kind ∧
    sanitizeStructuredEventMessage N raw = .ok (some m)

/-- What is shown of an event as a chart or an image went through the sanitizer. -/
structure ShowsSanitized (env : EventEnv) (N : Numbers) (row : RunEventRow) : Prop where
  chart : (chartLogFromEventRow env row).isSome = true → Sanitized N "chart" row.message
  image : (imageLogFromEventRow env row).isSome = true → Sanitized N "image" row.message

/-- A message that the writer cannot read as a value, while the reader skips what is
wrong with it. -/
def Bypasses (N : Numbers) (m : String) : Prop := fromStr N m = none ∧ (ShownAsChart N m ∨ ShownAsImage N m)

theorem sanitized_readable {kind m : String} (h : Sanitized N kind m) : fromStr N m ≠ none := by
  obtain ⟨raw, envelope, -, -, hm⟩ := h
  obtain ⟨_, _, -, -, -, hread, -⟩ := sanitized_read hm
  rw [hread]
  exact Option.some_ne_none _

theorem not_left {m kind : String} {payload : Json} (hkind : kind = "image" ∨ kind = "chart")
    (henvelope : (fromStr N m).bind fromValue = some ⟨kind, payload, false⟩) :
    sanitizeStructuredEventMessage N m ≠ .ok none := by
  intro h
  simp only [sanitizeStructuredEventMessage, henvelope] at h
  rcases hkind with rfl | rfl
  · rw [if_pos rfl] at h
    obtain ⟨_, -, -, hm⟩ := sanitizeKind_ok h
    cases hm
  · rw [if_neg (by decide), if_pos rfl] at h
    obtain ⟨_, -, -, hm⟩ := sanitizeKind_ok h
    cases hm

theorem sanitized_of_shown {m m' kind : String} {payload : Json}
    (h : sanitizeStructuredEventMessage N m = .ok (some m'))
    (hshown : envelopeFromStr N m' = some ⟨kind, payload, false⟩) :
    Sanitized N kind m' := by
  obtain ⟨envelope, clean, henvelope, -, -, -, hread⟩ := sanitized_read h
  rw [hread] at hshown
  cases hshown
  exact ⟨m, envelope, henvelope, rfl, h⟩

theorem unreadable_of_shown {m kind : String} {payload : Json} (h : sanitizeStructuredEventMessage N m = .ok none)
    (hkind : kind = "image" ∨ kind = "chart") (hshown : envelopeFromStr N m = some ⟨kind, payload, false⟩) :
    fromStr N m = none := by
  cases hread : fromStr N m with
  | none => rfl
  | some j =>
      have henvelope : (fromStr N m).bind fromValue = some ⟨kind, payload, false⟩ := by
        rw [hread]
        exact fromValue_of_envelopeFromStr hread hshown
      exact absurd h (not_left hkind henvelope)

theorem stored_sanitized_iff {m : String} {r : Option String} (h : sanitizeStructuredEventMessage N m = .ok r) :
    ((ShownAsChart N (r.getD m) → Sanitized N "chart" (r.getD m)) ∧
      (ShownAsImage N (r.getD m) → Sanitized N "image" (r.getD m))) ↔ ¬ Bypasses N m := by
  cases r with
  | some m' =>
      refine iff_of_true ⟨?_, ?_⟩ ?_
      · rintro ⟨object, name, hshown, -⟩
        exact sanitized_of_shown h hshown
      · rintro ⟨object, name, path, hshown, -⟩
        exact sanitized_of_shown h hshown
      · rintro ⟨hnone, -⟩
        obtain ⟨_, _, henvelope, -⟩ := sanitized_read h
        rw [hnone] at henvelope
        cases henvelope
  | none =>
      simp only [Option.getD_none]
      constructor
      · rintro ⟨hchart, himage⟩ ⟨hnone, hshown | hshown⟩
        · exact sanitized_readable (hchart hshown) hnone
        · exact sanitized_readable (himage hshown) hnone
      · intro hbypass
        constructor
        · intro hshown
          obtain ⟨object, name, henvelope, -⟩ := id hshown
          exact absurd ⟨unreadable_of_shown h (.inr rfl) henvelope, .inl hshown⟩ hbypass
        · intro hshown
          obtain ⟨object, name, path, henvelope, -⟩ := id hshown
          exact absurd ⟨unreadable_of_shown h (.inl rfl) henvelope, .inr hshown⟩ hbypass

section Handler

theorem mem_events {env : Env} {p : Pending} {validation : Cardinality.ValidationResult} {stored : RunEventInput} :
    stored ∈ (prepareContents env p validation).events ↔
      ∃ event ∈ p.sent.request.events, sanitizeEvent env.sanitizeStructured event = .ok stored := by
  simp only [prepareContents, List.mem_filterMap, List.mem_map]
  constructor
  · rintro ⟨_, ⟨event, hevent, rfl⟩, hok⟩
    exact ⟨event, hevent, Fallible.toOption_eq_some hok⟩
  · rintro ⟨event, hevent, hok⟩
    exact ⟨_, ⟨event, hevent, rfl⟩, by rw [hok]; rfl⟩

theorem contents_ingested {env : Env} {sent : Sent} {fault : Option String} {faults : Faults} {s s' : ServerState}
    {answer : Ingested} {contents : Contents} (hok : httpIngestBatch env sent fault faults s = (.ok answer, s'))
    (hcontents : answer.contents = some contents) :
    ∃ p validation, p.sent = sent ∧ contents = prepareContents env p validation := by
  obtain ⟨admitted, s₁, hreceive, h⟩ := bind_eq_ok hok
  have hcases := receive_cases env sent fault s
  rw [mapError_eq_ok hreceive] at hcases
  cases admitted with
  | duplicate =>
      obtain ⟨rfl, -⟩ := pure_eq_ok h
      cases hcontents
  | process p =>
      obtain ⟨validation, s₂, -, h⟩ := bind_eq_ok h
      obtain ⟨run, s₃, -, h⟩ := bind_eq_ok h
      obtain ⟨_, s₄, -, h⟩ := bind_eq_ok h
      obtain ⟨persisted, s₅, -, h⟩ := bind_eq_ok h
      obtain ⟨rfl, -⟩ := pure_eq_ok h
      exact ⟨p, validation, hcases.1, (Option.some.inj hcontents).symm⟩

/-- A message of a request that comes to the sanitizer. -/
def Submitted (sent : Sent) (m : String) : Prop :=
  ∃ event ∈ sent.request.events, sanitizeRunEventMessage event.message = some m ∧
    event.timestamp.any (fun timestamp => !PayloadHash.F64.isFinite timestamp) = false

theorem sanitizeEvent_ok {sanitize : String → Except String (Option String)} {event : LogEventData}
    {stored : RunEventInput} (h : sanitizeEvent sanitize event = .ok stored) :
    ∃ m r, sanitizeRunEventMessage event.message = some m ∧
      event.timestamp.any (fun timestamp => !PayloadHash.F64.isFinite timestamp) = false ∧ sanitize m = .ok r ∧
      stored.message = r.getD m := by
  simp only [sanitizeEvent] at h
  split at h
  · cases h
  · rename_i m hm
    split at h
    · cases h
    · rename_i htimestamp
      split at h
      · cases h
      · rename_i r hr
        obtain rfl := Except.ok.inj h
        exact ⟨m, r, hm, Bool.eq_false_of_not_eq_true htimestamp, hr, rfl⟩

theorem sanitizeEvent_left {sanitize : String → Except String (Option String)} {event : LogEventData} {m : String}
    (hm : sanitizeRunEventMessage event.message = some m)
    (htimestamp : event.timestamp.any (fun timestamp => !PayloadHash.F64.isFinite timestamp) = false)
    (hleft : sanitize m = .ok none) : ∃ stored, sanitizeEvent sanitize event = .ok stored ∧
      stored.message = m := by
  refine ⟨⟨normalizeRunEventLevel event.level, normalizeRunEventSource event.source, m, event.step,
    event.timestamp⟩, ?_, rfl⟩
  simp only [sanitizeEvent, hm, htimestamp, hleft]
  rfl

def sanitizing (env : Env) (N : Numbers) : Env := { env with sanitizeStructured := sanitizeStructuredEventMessage N }

variable {env : Env} {sent : Sent} {fault : Option String} {faults : Faults} {s s' : ServerState} {answer : Ingested}
  {contents : Contents}

/-- The charts and images of the events that a request stores are sanitized just when
none of its messages bypasses the sanitizer. -/
theorem storedSanitized_iff (flags : EndpointRbacTier → Bool)
    (hok : httpIngestBatch (sanitizing env N) sent fault faults s = (.ok answer, s'))
    (hcontents : answer.contents = some contents) :
    (∀ event ∈ contents.events, ∀ row : RunEventRow, row.message = event.message →
        ShowsSanitized (reader flags N) N row) ↔
      ∀ m, Submitted sent m → ¬ Bypasses N m := by
  obtain ⟨p, validation, rfl, rfl⟩ := contents_ingested hok hcontents
  constructor
  · rintro h m ⟨event, hevent, hm, htimestamp⟩ hbypass
    have hleft : sanitizeStructuredEventMessage N m = .ok none := by
      simp only [sanitizeStructuredEventMessage, hbypass.1, Option.bind_none]
    obtain ⟨stored, hstored, hmessage⟩ := sanitizeEvent_left hm htimestamp hleft
    obtain ⟨hchart, himage⟩ := h stored (mem_events.mpr ⟨event, hevent, hstored⟩)
      ⟨0, "", "", "", m, none, none, ""⟩ hmessage.symm
    rw [chartLog_isSome_iff] at hchart
    rw [imageLog_isSome_iff] at himage
    exact (stored_sanitized_iff hleft).mp ⟨hchart, himage⟩ hbypass
  · intro h stored hstored row hrow
    obtain ⟨event, hevent, hok⟩ := mem_events.mp hstored
    obtain ⟨m, r, hm, htimestamp, hr, hmessage⟩ := sanitizeEvent_ok hok
    have hsafe := (stored_sanitized_iff hr).mpr (h m ⟨event, hevent, hm, htimestamp⟩)
    rw [← hmessage, ← hrow] at hsafe
    constructor
    · rw [chartLog_isSome_iff]
      exact hsafe.1
    · rw [imageLog_isSome_iff]
      exact hsafe.2

def literalNumbers : Numbers where
  read n := some (String.ofList n.chars)
  spell t := if h : isNumber t.toList = true then ⟨t.toList, h⟩ else ⟨['0'], by decide⟩
  readable _ _ _ := ⟨_, rfl⟩

def logging (message : String) : Sent :=
  { RetrySafety.lossBatch with
    request := { RetrySafety.lossBatch.request with events := [⟨none, none, message, none, none⟩] } }

def start : ServerState := ⟨RetrySafety.oneRun, .empty, .empty, []⟩

def accepted (message : String) : Option Contents :=
  match (httpIngestBatch (sanitizing RetrySafety.devServer literalNumbers) (logging message) none {} start).1 with
  | .ok answer => answer.contents
  | .error _ => none

theorem accepted_some {message : String} {contents : Contents} (h : accepted message = some contents) :
    ∃ answer s', httpIngestBatch (sanitizing RetrySafety.devServer literalNumbers) (logging message) none {} start =
      (.ok answer, s') ∧ answer.contents = some contents := by
  unfold accepted at h
  generalize httpIngestBatch (sanitizing RetrySafety.devServer literalNumbers) (logging message) none {} start =
    r at h ⊢
  obtain ⟨e | answer, s'⟩ := r
  · cases h
  · exact ⟨answer, s', rfl, h⟩

theorem storedSanitized_plain : ∃ contents, accepted "saved" = some contents ∧
    ((∀ event ∈ contents.events, ∀ row : RunEventRow, row.message = event.message →
        ShowsSanitized (reader (fun _ => true) literalNumbers) literalNumbers row) ↔
      ∀ m, Submitted (logging "saved") m → ¬ Bypasses literalNumbers m) := by
  have hsome : (accepted "saved").isSome = true := by decide +kernel
  obtain ⟨contents, hcontents⟩ := Option.isSome_iff_exists.mp hsome
  obtain ⟨answer, s', hok, hanswer⟩ := accepted_some hcontents
  exact ⟨contents, hcontents, storedSanitized_iff (fun _ => true) hok hanswer⟩

/-- A chart with a script in it, beside a field with half a character. -/
def surrogateChart : String :=
  "\x7b\"kind\":\"chart\",\"payload\":\x7b\"name\":\"x\",\"data\":\x7b\"label\":\"<script>alert(1)</script>\"\x7d\x7d," ++
    "\"note\":\"\\ud800\"\x7d"

theorem surrogateChart_unreadable : (fromStr literalNumbers surrogateChart).isNone = true := by decide +kernel

theorem surrogateChart_stored : ∃ contents, accepted surrogateChart = some contents ∧
    ¬ ∀ event ∈ contents.events, ∀ row : RunEventRow, row.message = event.message →
      ShowsSanitized (reader (fun _ => true) literalNumbers) literalNumbers row := by
  have hevents : (accepted surrogateChart).map Contents.events =
      some [⟨"info", "sdk", surrogateChart, none, none⟩] := by
    decide +kernel
  have hshown : (chartLogFromEventRow (reader (fun _ => true) literalNumbers)
      ⟨0, "r", "info", "sdk", surrogateChart, none, none, ""⟩).isSome = true := by
    decide +kernel
  obtain ⟨contents, hcontents, hstored⟩ := Option.map_eq_some_iff.mp hevents
  refine ⟨contents, hcontents, fun h => ?_⟩
  rw [hstored] at h
  have hsafe := h _ List.mem_cons_self ⟨0, "r", "info", "sdk", surrogateChart, none, none, ""⟩ rfl
  exact sanitized_readable (hsafe.chart hshown) (Option.isNone_iff_eq_none.mp surrogateChart_unreadable)

end Handler

end MLRunX.SanitizerBypass
