import MLRunX.SerdeJson
import MLRunX.StructuredEvents

namespace MLRunX.Sanitizer

open Ingest IngestRequest JsonMeaning JsonText JsonValues RunTables SerdeJson StructuredEvents Text

def structuredJsonMaxDepth : Nat := 8

def metadataMaxSegmentLen : Nat := 64

def structuredJsonMaxStringLen : Nat := 2048

def chartDataMaxBytes : Nat := 32000

def chartLayoutMaxBytes : Nat := 12000

def chartOptionsMaxBytes : Nat := 12000

def chartMetadataMaxBytes : Nat := 8000

def imageMetadataMaxBytes : Nat := 8000

abbrev Checked (α : Type) := Except String α

def require (ok : Bool) (error : String) : Checked Unit := if ok then .ok () else .error error

def isForbiddenKey (key : String) : Bool := ["__proto__", "constructor", "prototype"].contains (toAsciiLowercase key)

def isScriptLike (s : String) : Bool :=
  containsText "<script" (toAsciiLowercase s) || containsText "javascript:" (toAsciiLowercase s)

def checkDepth (depth : Nat) : Checked Unit :=
  require (depth ≤ structuredJsonMaxDepth) s!"structured payload exceeds max depth {structuredJsonMaxDepth}"

def checkKey (key : String) : Checked Unit := do
  require (!isForbiddenKey key) "structured payload contains forbidden object key"
  require (byteLength key ≤ metadataMaxSegmentLen)
    s!"structured payload key '{key}' exceeds max length {metadataMaxSegmentLen}"

def checkString (s : String) : Checked Unit := do
  require (byteLength s ≤ structuredJsonMaxStringLen)
    s!"structured payload string exceeds max length {structuredJsonMaxStringLen}"
  require (!isScriptLike s) "structured payload contains unsafe script-like content"

mutual

def validateStructuredJsonTree (depth : Nat) : Json → Checked Unit
  | .object fields => do
      checkDepth depth
      validateFields depth fields
  | .array items => do
      checkDepth depth
      validateItems depth items
  | .string s => do
      checkDepth depth
      checkString s
  | _ => checkDepth depth

def validateItems (depth : Nat) : List Json → Checked Unit
  | [] => .ok ()
  | child :: items => do
      validateStructuredJsonTree (depth + 1) child
      validateItems depth items

def validateFields (depth : Nat) : List (String × Json) → Checked Unit
  | [] => .ok ()
  | (key, child) :: fields => do
      checkKey key
      validateStructuredJsonTree (depth + 1) child
      validateFields depth fields

end

variable (N : Numbers)

/-- A text under a key, trimmed, unless it is blank. -/
def trimmedAt (object : List (String × Json)) (key : String) : Option String := present (textAt object key)

def requireText (s : Option String) (error : String) : Checked String :=
  match s with
  | some s => .ok s
  | none => .error error

def checkLength (s what : String) (max : Nat) : Checked Unit :=
  require (byteLength s ≤ max) s!"{what} exceeds max length {max}"

def checkSize (j : Json) (what : String) (max : Nat) : Checked Unit :=
  require (jsonSerializedSize N j ≤ max) s!"{what} exceeds max size {max} bytes"

def checkCaption : Option String → Checked Unit
  | some caption => checkLength caption "image payload.caption" 1024
  | none => .ok ()

def optionalText : Option String → Json
  | some s => .string s
  | none => .null

def sanitizeStructuredImagePayload (payload : Json) : Checked Json :=
  match payload with
  | .object object => do
      let name ← requireText (trimmedAt object "name") "image payload.name is required"
      checkLength name "image payload.name" 256
      let path ← requireText
        (present (((object.lookup "path").orElse (fun _ => object.lookup "uri")).bind Json.asStr))
        "image payload.path is required"
      checkLength path "image payload.path" 4096
      let caption := trimmedAt object "caption"
      checkCaption caption
      let metadata := valueAt object "metadata"
      validateStructuredJsonTree 1 metadata
      checkSize N metadata "image payload.metadata" imageMetadataMaxBytes
      .ok (jsonObject [("name", .string name), ("path", .string path), ("caption", optionalText caption),
        ("metadata", metadata)])
  | _ => .error "image payload must be a JSON object"

def sanitizeStructuredChartPayload (payload : Json) : Checked Json :=
  match payload with
  | .object object => do
      let name ← requireText (trimmedAt object "name") "chart payload.name is required"
      checkLength name "chart payload.name" 256
      let chartType := (trimmedAt object "chart_type").getD "custom"
      checkLength chartType "chart payload.chart_type" 64
      let rendererHint := (trimmedAt object "renderer_hint").getD "auto"
      checkLength rendererHint "chart payload.renderer_hint" 64
      let data := valueAt object "data"
      let layout := valueAt object "layout"
      let options := valueAt object "options"
      let metadata := valueAt object "metadata"
      validateStructuredJsonTree 1 data
      validateStructuredJsonTree 1 layout
      validateStructuredJsonTree 1 options
      validateStructuredJsonTree 1 metadata
      checkSize N data "chart payload.data" chartDataMaxBytes
      checkSize N layout "chart payload.layout" chartLayoutMaxBytes
      checkSize N options "chart payload.options" chartOptionsMaxBytes
      checkSize N metadata "chart payload.metadata" chartMetadataMaxBytes
      .ok (jsonObject [("name", .string name), ("chart_type", .string chartType),
        ("renderer_hint", .string rendererHint), ("data", data), ("layout", layout), ("options", options),
        ("metadata", metadata)])
  | _ => .error "chart payload must be a JSON object"

/-- The fields that an envelope has. Those that are left out have defaults, but for the kind. -/
def readEnvelope (kind payload truncated : Option Json) : Option StructuredEnvelope := do
  let kind ← kind.bind Json.asStr
  match truncated with
  | none => some ⟨kind, payload.getD .null, false⟩
  | some (.bool truncated) => some ⟨kind, payload.getD .null, truncated⟩
  | some _ => none

/-- An envelope read from a value: from its fields, or from a list of them in order. -/
def fromValue : Json → Option StructuredEnvelope
  | .object fields => readEnvelope (fields.lookup "kind") (fields.lookup "payload") (fields.lookup "truncated")
  | .array [kind] => readEnvelope (some kind) none none
  | .array [kind, payload] => readEnvelope (some kind) (some payload) none
  | .array [kind, payload, truncated] => readEnvelope (some kind) (some payload) (some truncated)
  | _ => none

/-- The value under a key that stands once at most. -/
def once (fields : List (String × Doc)) (key : String) : Option (Option Doc) :=
  match fields.filter (fun f => f.1 == key) with
  | [] => some none
  | [f] => some (some f.2)
  | _ => none

/-- A field is read as a value inside of the envelope. -/
def readField (d : Option Doc) : Option (Option Json) :=
  match d with
  | none => some none
  | some d => if d.depth + 1 ≤ maxNesting then (meaning N d).map some else none

/-- An envelope read from a document. Other fields are skipped, and only their keys must be texts. -/
def fromDocument : Doc → Option StructuredEnvelope
  | .object fields => do
      let fields ← fields.mapM (fun f => (text f.1).map (fun key => (String.ofList key, f.2)))
      let kind ← once fields "kind"
      let payload ← once fields "payload"
      let truncated ← once fields "truncated"
      let kind ← readField N kind
      let payload ← readField N payload
      let truncated ← readField N truncated
      readEnvelope kind payload truncated
  | .array items => do
      let items ← items.mapM (fun d => readField N (some d))
      match items with
      | [kind] => readEnvelope kind none none
      | [kind, payload] => readEnvelope kind payload none
      | [kind, payload, truncated] => readEnvelope kind payload truncated
      | _ => none
  | _ => none

/-- A text read as an envelope, without the detour of a value. -/
def envelopeFromStr (s : String) : Option StructuredEnvelope := (scan s.toList).bind (fromDocument N)

/-- What is stored in place of a message of a kind. -/
def encodeStructured (kind : String) (payload : Json) : Checked (Option String) := do
  let encoded := toStr N (jsonObject [("kind", .string kind), ("payload", payload)])
  require (byteLength encoded ≤ runEventMaxLen) s!"{kind} structured message exceeds max length {runEventMaxLen}"
  .ok (some encoded)

def sanitizeKind (envelope : StructuredEnvelope) (sanitizePayload : Json → Checked Json) :
    Checked (Option String) := do
  require (!envelope.truncated) s!"{envelope.kind} payload was truncated and cannot be ingested"
  let payload ← sanitizePayload envelope.payload
  encodeStructured N envelope.kind payload

def sanitizeStructuredEventMessage (rawMessage : String) : Checked (Option String) :=
  match (fromStr N rawMessage).bind fromValue with
  | none => .ok none
  | some envelope =>
      if envelope.kind = "image" then sanitizeKind N envelope (sanitizeStructuredImagePayload N)
      else if envelope.kind = "chart" then sanitizeKind N envelope (sanitizeStructuredChartPayload N)
      else .ok none

mutual

def textsOf : Json → List String
  | .string s => [s]
  | .array items => textsOfItems items
  | .object fields => textsOfFields fields
  | _ => []

def textsOfItems : List Json → List String
  | [] => []
  | j :: items => textsOf j ++ textsOfItems items

def textsOfFields : List (String × Json) → List String
  | [] => []
  | (_, j) :: fields => textsOf j ++ textsOfFields fields

end

mutual

def keysOf : Json → List String
  | .array items => keysOfItems items
  | .object fields => keysOfFields fields
  | _ => []

def keysOfItems : List Json → List String
  | [] => []
  | j :: items => keysOf j ++ keysOfItems items

def keysOfFields : List (String × Json) → List String
  | [] => []
  | (key, j) :: fields => key :: (keysOf j ++ keysOfFields fields)

end

/-- What a value that passes the checks is like below some depth. -/
structure Clean (depth : Nat) (j : Json) : Prop where
  texts : ∀ s ∈ textsOf j, isScriptLike s = false
  keys : ∀ key ∈ keysOf j, isForbiddenKey key = false
  nesting : (tree j).depth + depth ≤ structuredJsonMaxDepth + 1

variable {N}

theorem require_ok {ok : Bool} {error : String} {u : Unit} (h : require ok error = .ok u) : ok = true := by
  unfold require at h
  split at h
  · assumption
  · cases h

theorem checkDepth_ok {depth : Nat} {u : Unit} (h : checkDepth depth = .ok u) :
    depth ≤ structuredJsonMaxDepth := by
  simpa using require_ok h

theorem checkKey_ok {key : String} {u : Unit} (h : checkKey key = .ok u) : isForbiddenKey key = false := by
  obtain ⟨_, hkey, -⟩ := Fallible.bind_eq_ok.mp h
  simpa using require_ok hkey

theorem checkString_ok {s : String} {u : Unit} (h : checkString s = .ok u) : isScriptLike s = false := by
  obtain ⟨_, -, hs⟩ := Fallible.bind_eq_ok.mp h
  simpa using require_ok hs

theorem validateStructuredJsonTree_ok {j : Json} : ∀ {depth}, validateStructuredJsonTree depth j = .ok () →
    Clean depth j := by
  have hleaf : ∀ {depth : Nat} {j : Json}, checkDepth depth = .ok () → textsOf j = [] → keysOf j = [] →
      (tree j).depth = 0 → Clean depth j := by
    intro depth j h htexts hkeys hdepth
    have hle := checkDepth_ok h
    refine ⟨?_, ?_, by omega⟩
    · rw [htexts]
      exact fun _ hs => absurd hs List.not_mem_nil
    · rw [hkeys]
      exact fun _ hs => absurd hs List.not_mem_nil
  induction j using Json.induct with
  | null => exact fun h => hleaf h rfl rfl rfl
  | bool b => exact fun h => hleaf h rfl rfl rfl
  | number l => exact fun h => hleaf h rfl rfl rfl
  | string s =>
      intro depth h
      obtain ⟨_, hdepth, hs⟩ := Fallible.bind_eq_ok.mp h
      have hle := checkDepth_ok hdepth
      refine ⟨List.forall_mem_singleton.mpr (checkString_ok hs), fun _ hk => absurd hk List.not_mem_nil, ?_⟩
      change 0 + depth ≤ _
      omega
  | array items ih =>
      intro depth h
      obtain ⟨_, hdepth, hitems⟩ := Fallible.bind_eq_ok.mp h
      have hle := checkDepth_ok hdepth
      have hall : (∀ s ∈ textsOfItems items, isScriptLike s = false) ∧
        (∀ key ∈ keysOfItems items, isForbiddenKey key = false) ∧
          depthItems (treeItems items) + depth ≤ structuredJsonMaxDepth := by
        clear h
        induction items with
        | nil =>
            refine ⟨fun _ hs => absurd hs List.not_mem_nil, fun _ hs => absurd hs List.not_mem_nil, ?_⟩
            simpa [treeItems, depthItems] using hle
        | cons j items ih' =>
            obtain ⟨hj, hjs⟩ := List.forall_mem_cons.mp ih
            obtain ⟨_, hchild, hrest⟩ := Fallible.bind_eq_ok.mp hitems
            obtain ⟨htexts, hkeys, hnesting⟩ := ih' hjs hrest
            have hclean := hj hchild
            have hdeep := hclean.nesting
            refine ⟨List.forall_mem_append.mpr ⟨hclean.texts, htexts⟩,
              List.forall_mem_append.mpr ⟨hclean.keys, hkeys⟩, ?_⟩
            simp only [treeItems, depthItems]
            omega
      obtain ⟨htexts, hkeys, hnesting⟩ := hall
      refine ⟨htexts, hkeys, ?_⟩
      simp only [tree, JsonTree.depth]
      omega
  | object fields ih =>
      intro depth h
      obtain ⟨_, hdepth, hfields⟩ := Fallible.bind_eq_ok.mp h
      have hle := checkDepth_ok hdepth
      have hall : (∀ s ∈ textsOfFields fields, isScriptLike s = false) ∧
          (∀ key ∈ keysOfFields fields, isForbiddenKey key = false) ∧
          depthFields (treeFields fields) + depth ≤ structuredJsonMaxDepth := by
        clear h
        induction fields with
        | nil =>
            refine ⟨fun _ hs => absurd hs List.not_mem_nil, fun _ hs => absurd hs List.not_mem_nil, ?_⟩
            simpa [treeFields, depthFields] using hle
        | cons f fields ih' =>
            obtain ⟨key, j⟩ := f
            obtain ⟨hj, hjs⟩ := List.forall_mem_cons.mp ih
            obtain ⟨_, hkey, hrest⟩ := Fallible.bind_eq_ok.mp hfields
            obtain ⟨_, hchild, hrest⟩ := Fallible.bind_eq_ok.mp hrest
            obtain ⟨htexts, hkeys, hnesting⟩ := ih' hjs hrest
            have hclean : Clean (depth + 1) j := hj hchild
            have hdeep := hclean.nesting
            refine ⟨List.forall_mem_append.mpr ⟨hclean.texts, htexts⟩,
              List.forall_mem_cons.mpr ⟨checkKey_ok hkey, List.forall_mem_append.mpr ⟨hclean.keys, hkeys⟩⟩,
                ?_⟩
            simp only [treeFields, depthFields]
            omega
      obtain ⟨htexts, hkeys, hnesting⟩ := hall
      refine ⟨htexts, hkeys, ?_⟩
      simp only [tree, JsonTree.depth]
      omega

theorem requireText_ok {s : Option String} {error text : String} (h : requireText s error = .ok text) :
    s = some text := by
  cases s with
  | none => cases h
  | some s => exact congrArg some (Except.ok.inj h)

def cleanChart (object : List (String × Json)) (name : String) : Json :=
  jsonObject [("name", .string name), ("chart_type", .string ((trimmedAt object "chart_type").getD "custom")),
    ("renderer_hint", .string ((trimmedAt object "renderer_hint").getD "auto")), ("data", valueAt object "data"),
    ("layout", valueAt object "layout"), ("options", valueAt object "options"),
    ("metadata", valueAt object "metadata")]

def chartTrees : List String := ["data", "layout", "options", "metadata"]

theorem sanitizeStructuredChartPayload_ok {payload clean : Json}
    (h : sanitizeStructuredChartPayload N payload = .ok clean) :
    ∃ object name, payload = .object object ∧ trimmedAt object "name" = some name ∧
      (∀ key ∈ chartTrees, Clean 1 (valueAt object key)) ∧ clean = cleanChart object name := by
  cases payload with
  | object object =>
      simp only [sanitizeStructuredChartPayload] at h
      obtain ⟨name, hname, h⟩ := Fallible.bind_eq_ok.mp h
      obtain ⟨_, -, h⟩ := Fallible.bind_eq_ok.mp h
      obtain ⟨_, -, h⟩ := Fallible.bind_eq_ok.mp h
      obtain ⟨_, -, h⟩ := Fallible.bind_eq_ok.mp h
      obtain ⟨_, hdata, h⟩ := Fallible.bind_eq_ok.mp h
      obtain ⟨_, hlayout, h⟩ := Fallible.bind_eq_ok.mp h
      obtain ⟨_, hoptions, h⟩ := Fallible.bind_eq_ok.mp h
      obtain ⟨_, hmetadata, h⟩ := Fallible.bind_eq_ok.mp h
      obtain ⟨_, -, h⟩ := Fallible.bind_eq_ok.mp h
      obtain ⟨_, -, h⟩ := Fallible.bind_eq_ok.mp h
      obtain ⟨_, -, h⟩ := Fallible.bind_eq_ok.mp h
      obtain ⟨_, -, h⟩ := Fallible.bind_eq_ok.mp h
      refine ⟨object, name, rfl, requireText_ok hname, ?_, (Except.ok.inj h).symm⟩
      simp only [chartTrees, List.forall_mem_cons]
      exact ⟨validateStructuredJsonTree_ok hdata, validateStructuredJsonTree_ok hlayout,
        validateStructuredJsonTree_ok hoptions, validateStructuredJsonTree_ok hmetadata,
        fun _ hkey => absurd hkey List.not_mem_nil⟩
  | null => cases h
  | bool b => cases h
  | number l => cases h
  | string s => cases h
  | array items => cases h

def cleanImage (object : List (String × Json)) (name path : String) : Json :=
  jsonObject [("name", .string name), ("path", .string path), ("caption", optionalText (trimmedAt object "caption")),
    ("metadata", valueAt object "metadata")]

def imagePath (object : List (String × Json)) : Option String :=
  present (((object.lookup "path").orElse (fun _ => object.lookup "uri")).bind Json.asStr)

theorem sanitizeStructuredImagePayload_ok {payload clean : Json}
    (h : sanitizeStructuredImagePayload N payload = .ok clean) :
    ∃ object name path, payload = .object object ∧ trimmedAt object "name" = some name ∧
      imagePath object = some path ∧
      Clean 1 (valueAt object "metadata") ∧ clean = cleanImage object name path := by
  cases payload with
  | object object =>
      simp only [sanitizeStructuredImagePayload] at h
      obtain ⟨name, hname, h⟩ := Fallible.bind_eq_ok.mp h
      obtain ⟨_, -, h⟩ := Fallible.bind_eq_ok.mp h
      obtain ⟨path, hpath, h⟩ := Fallible.bind_eq_ok.mp h
      obtain ⟨_, -, h⟩ := Fallible.bind_eq_ok.mp h
      obtain ⟨_, -, h⟩ := Fallible.bind_eq_ok.mp h
      obtain ⟨_, hmetadata, h⟩ := Fallible.bind_eq_ok.mp h
      obtain ⟨_, -, h⟩ := Fallible.bind_eq_ok.mp h
      exact ⟨object, name, path, rfl, requireText_ok hname, requireText_ok hpath,
        validateStructuredJsonTree_ok hmetadata, (Except.ok.inj h).symm⟩
  | null => cases h
  | bool b => cases h
  | number l => cases h
  | string s => cases h
  | array items => cases h

theorem sanitizeKind_ok {envelope : StructuredEnvelope} {sanitizePayload : Json → Checked Json} {m : Option String}
    (h : sanitizeKind N envelope sanitizePayload = .ok m) :
    ∃ clean, sanitizePayload envelope.payload = .ok clean ∧ envelope.truncated = false ∧
      m = some (toStr N (jsonObject [("kind", .string envelope.kind), ("payload", clean)])) := by
  obtain ⟨_, htruncated, h⟩ := Fallible.bind_eq_ok.mp h
  obtain ⟨clean, hclean, h⟩ := Fallible.bind_eq_ok.mp h
  obtain ⟨_, -, h⟩ := Fallible.bind_eq_ok.mp h
  exact ⟨clean, hclean, by simpa using require_ok htruncated, (Except.ok.inj h).symm⟩

def sanitizePayload (N : Numbers) (kind : String) : Json → Checked Json :=
  if kind = "image" then sanitizeStructuredImagePayload N else sanitizeStructuredChartPayload N

theorem sanitizeStructuredEventMessage_some {raw m : String}
    (h : sanitizeStructuredEventMessage N raw = .ok (some m)) :
    ∃ envelope clean, (fromStr N raw).bind fromValue = some envelope ∧
      (envelope.kind = "image" ∨ envelope.kind = "chart") ∧
      sanitizePayload N envelope.kind envelope.payload = .ok clean ∧
      m = toStr N (jsonObject [("kind", .string envelope.kind), ("payload", clean)]) := by
  simp only [sanitizeStructuredEventMessage] at h
  cases henvelope : (fromStr N raw).bind fromValue with
  | none =>
      rw [henvelope] at h
      cases h
  | some envelope =>
      rw [henvelope] at h
      simp only at h
      split at h
      · rename_i hkind
        obtain ⟨clean, hclean, -, hm⟩ := sanitizeKind_ok h
        exact ⟨envelope, clean, rfl, .inl hkind, by rwa [sanitizePayload, if_pos hkind], Option.some.inj hm⟩
      · rename_i hother
        split at h
        · rename_i hkind
          obtain ⟨clean, hclean, -, hm⟩ := sanitizeKind_ok h
          exact ⟨envelope, clean, rfl, .inr hkind, by rwa [sanitizePayload, if_neg hother], Option.some.inj hm⟩
        · cases h

end MLRunX.Sanitizer
