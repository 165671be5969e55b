import Mathlib.Data.Nat.Digits.Lemmas
import MLRunX.MetricObjectives
import MLRunX.RecentFirst
import MLRunX.Runs

namespace MLRunX.Presets

open CodeUnits JsObjects JsonText MetricObjectives RecentFirst Runs

def runFilterPresetsKey : String := "mlrunx_run_filter_presets_v1"

def comparePresetsKey : String := "mlrunx_compare_presets_v1"

def maxPresets : Nat := 20

def maxNameLen : Nat := 64

def maxQueryLen : Nat := 512

def maxRunIdsPerPreset : Nat := 100

structure RunFilterPreset where
  id : JsString
  name : JsString
  query : JsString
  updatedAt : JsString
  deriving DecidableEq

structure ComparePreset where
  id : JsString
  name : JsString
  runIds : List JsString
  metricObjectives : Option Overrides
  updatedAt : JsString

/-- The storage of a browser: texts under keys. -/
abbrev Storage := String → Option (List Char)

def clampText (value : JsString) (maxLen : Nat) : JsString := cut maxLen value

/-- What the clock says, and the digits of a random number. -/
structure Draw where
  now : Int
  inRange : now.natAbs ≤ 8640000000000000
  updatedAt : JsString
  fraction : List (Fin 36)

def digit36 (d : Nat) : Fin 65536 := codeUnit (if d < 10 then 48 + d else 87 + d)

/-- An integer in base 36. -/
def base36 (n : Int) : JsString :=
  (if n < 0 then units "-" else []) ++
    (if n = 0 then units "0" else (Nat.digits 36 n.natAbs).reverse.map digit36)

def makePresetId (kind : String) (draw : Draw) : JsString :=
  units kind ++ units "_" ++ base36 draw.now ++ units "_" ++ (draw.fraction.map (fun d => digit36 d.1)).take 6

def property (fields : List (JsString × JsValue)) (key : String) : Option JsValue := fields.lookup (units key)

def asText : JsValue → Option JsString
  | .string s => some s
  | _ => none

def asItems : JsValue → Option (List JsValue)
  | .array items => some items
  | _ => none

def asObject : JsValue → Option Overrides
  | .object fields => some (fromEntries fields)
  | _ => none

variable (localeCompare : JsString → JsString → Int)

def normalizePresetObjectives (metricObjectives : Option Overrides) : Option Overrides :=
  metricObjectives.bind (fun overrides =>
    let normalized := normalizeMetricObjectiveOverrides localeCompare overrides
    if (ownEntries normalized).isEmpty then none else some normalized)

def asRunFilterPreset (entry : JsValue) : Option RunFilterPreset := do
  let candidate ← asObject entry
  let id ← (property candidate "id").bind asText
  let name ← (property candidate "name").bind asText
  let query ← (property candidate "query").bind asText
  let updatedAt ← (property candidate "updatedAt").bind asText
  some { id, name, query, updatedAt }

def clampRunFilterPreset (entry : RunFilterPreset) : RunFilterPreset where
  id := clampText entry.id 128
  name := clampText entry.name maxNameLen
  query := clampText entry.query maxQueryLen
  updatedAt := entry.updatedAt

/-- The array that a stored text is. -/
def storedItems (raw : Option (List Char)) : List JsValue :=
  ((raw.bind (fun text => if text.isEmpty then none else jsonParse text)).bind asItems).getD []

def parseRunFilterPresets (raw : Option (List Char)) : List RunFilterPreset :=
  ((((storedItems raw).filterMap asRunFilterPreset).map clampRunFilterPreset).filter
    (fun entry => !entry.id.isEmpty && !entry.name.isEmpty && !entry.query.isEmpty)).take maxPresets

def clampRunIds (runIds : List JsString) : List JsString :=
  ((runIds.map (fun value => clampText value 128)).filter (fun value => !value.isEmpty)).take maxRunIdsPerPreset

/-- An entry with the texts of its run ids, and its objectives if there is an object of them. -/
def asComparePreset (entry : JsValue) : Option ComparePreset := do
  let candidate ← asObject entry
  let id ← (property candidate "id").bind asText
  let name ← (property candidate "name").bind asText
  let runIds ← (property candidate "runIds").bind asItems
  let updatedAt ← (property candidate "updatedAt").bind asText
  some { id, name, runIds := runIds.filterMap asText, updatedAt,
         metricObjectives := (property candidate "metricObjectives").bind asObject }

def clampComparePreset (entry : ComparePreset) : ComparePreset where
  metricObjectives := normalizePresetObjectives localeCompare entry.metricObjectives
  id := clampText entry.id 128
  name := clampText entry.name maxNameLen
  runIds := clampRunIds entry.runIds
  updatedAt := entry.updatedAt

def parseComparePresets (raw : Option (List Char)) : List ComparePreset :=
  ((((storedItems raw).filterMap asComparePreset).map (clampComparePreset localeCompare)).filter
    (fun entry => !entry.id.isEmpty && !entry.name.isEmpty && !entry.runIds.isEmpty)).take maxPresets

def RunFilterPreset.json (preset : RunFilterPreset) : JsValue :=
  .object [(units "id", .string preset.id), (units "name", .string preset.name), (units "query", .string preset.query),
    (units "updatedAt", .string preset.updatedAt)]

def ComparePreset.json (preset : ComparePreset) : JsValue :=
  .object ([(units "id", .string preset.id), (units "name", .string preset.name),
    (units "runIds", .array (preset.runIds.map .string)), (units "updatedAt", .string preset.updatedAt)] ++
      (preset.metricObjectives.map (fun overrides =>
        (units "metricObjectives", .object (ownEntries overrides)))).toList)

def loadRunFilterPresets (storage : Storage) : List RunFilterPreset :=
  parseRunFilterPresets (storage runFilterPresetsKey)

def saveRunFilterPresets (presets : List RunFilterPreset) (storage : Storage) : Storage :=
  Function.update storage runFilterPresetsKey
    (some (jsonStringify (.array ((presets.take maxPresets).map RunFilterPreset.json))))

def loadComparePresets (storage : Storage) : List ComparePreset :=
  parseComparePresets localeCompare (storage comparePresetsKey)

def saveComparePresets (presets : List ComparePreset) (storage : Storage) : Storage :=
  Function.update storage comparePresetsKey
    (some (jsonStringify (.array ((presets.take maxPresets).map ComparePreset.json))))

def normalizeRunIdSet (runIds : List JsString) : List JsString :=
  ((runIds.map (fun runId => clampText runId 128)).filter (fun runId => !runId.isEmpty)).eraseDups.take
    maxRunIdsPerPreset

variable (toLowerCase : JsString → JsString)

/-- A preset goes to the front, in the place of the one whose name it has. -/
def upsertRunFilterPreset (presets : List RunFilterPreset) (name query : JsString) (draw : Draw) :
    Except String (RunFilterPreset × List RunFilterPreset) :=
  let normalizedName := clampText name maxNameLen
  let normalizedQuery := clampText query maxQueryLen
  if normalizedName.isEmpty || normalizedQuery.isEmpty then .error "Preset name and query are required."
  else .ok (place (fun preset => toLowerCase preset.name) maxPresets (toLowerCase normalizedName)
    (fun preset => { preset with name := normalizedName, query := normalizedQuery, updatedAt := draw.updatedAt })
    { id := makePresetId "filter" draw, name := normalizedName, query := normalizedQuery, updatedAt := draw.updatedAt }
    presets)

def deleteRunFilterPreset (presets : List RunFilterPreset) (presetId : JsString) : List RunFilterPreset :=
  presets.filter (fun preset => preset.id != presetId)

def upsertComparePreset (presets : List ComparePreset) (name : JsString) (runIds : List JsString)
    (metricObjectives : Option Overrides) (draw : Draw) : Except String (ComparePreset × List ComparePreset) :=
  let normalizedName := clampText name maxNameLen
  let normalizedRunIds := normalizeRunIdSet runIds
  let normalizedObjectives := normalizePresetObjectives localeCompare metricObjectives
  if normalizedName.isEmpty || normalizedRunIds.length == 0 then .error "Preset name and run IDs are required."
  else .ok (place (fun preset => toLowerCase preset.name) maxPresets (toLowerCase normalizedName)
    (fun preset => { id := preset.id, name := normalizedName, runIds := normalizedRunIds, updatedAt := draw.updatedAt,
                     metricObjectives := normalizedObjectives })
    { id := makePresetId "compare" draw, name := normalizedName, runIds := normalizedRunIds, updatedAt :=
      draw.updatedAt,
      metricObjectives := normalizedObjectives } presets)

def deleteComparePreset (presets : List ComparePreset) (presetId : JsString) : List ComparePreset :=
  presets.filter (fun preset => preset.id != presetId)

structure Lists where
  runFilters : List RunFilterPreset
  compares : List ComparePreset

inductive Op
  | upsertRunFilterPreset (name query : JsString) (draw : Draw)
  | upsertComparePreset (name : JsString) (runIds : List JsString) (metricObjectives : Option Overrides) (draw : Draw)
  | deleteRunFilterPreset (presetId : JsString)
  | deleteComparePreset (presetId : JsString)

inductive Reply
  | runFilter (saved : RunFilterPreset)
  | compare (saved : ComparePreset)
  | deleted
  | error (message : String)

def step : Machine Lists Op Reply
  | s, .upsertRunFilterPreset name query draw =>
      match Presets.upsertRunFilterPreset toLowerCase s.runFilters name query draw with
      | .ok (saved, presets) => (.runFilter saved, { s with runFilters := presets })
      | .error message => (.error message, s)
  | s, .upsertComparePreset name runIds metricObjectives draw =>
      match Presets.upsertComparePreset localeCompare toLowerCase s.compares name runIds metricObjectives draw with
      | .ok (saved, presets) => (.compare saved, { s with compares := presets })
      | .error message => (.error message, s)
  | s, .deleteRunFilterPreset presetId =>
      (.deleted, { s with runFilters := Presets.deleteRunFilterPreset s.runFilters presetId })
  | s, .deleteComparePreset presetId =>
      (.deleted, { s with compares := Presets.deleteComparePreset s.compares presetId })

def reached (ops : List Op) : Lists := after (step localeCompare toLowerCase) ⟨[], []⟩ ops

end MLRunX.Presets
