import MLRunX.AliasRuns
import MLRunX.CodeUnits
import MLRunX.CsvFiles

namespace MLRunX.AliasImport

open Auth AliasRuns Commands CsvFiles Http Interleaving KeyedTables MetricAliases Statements Tables UiAuth UiRequests
open Text (byteLength isWhitespace toAsciiLowercase trimChars trim_trim)

def maxAliasRawNameLen : Nat := 256

def maxAliasDisplayNameLen : Nat := 128

def maxAliasUnitLen : Nat := 32

def maxAliasDescriptionLen : Nat := 512

inductive Action
  | create | update | deactivate | reactivate | noop | error
  deriving DecidableEq, Repr

structure PreviewRow where
  rowNumber : Nat
  rawName : String
  displayName : String
  unit : String
  description : String
  isActive : Bool
  action : Action
  error : Option String
  deriving DecidableEq, Repr

def jsTrim (s : String) : String := String.ofList (trim s.toList)

def jsLength (s : String) : Nat := (CodeUnits.units s).length

def validateAliasForm (rawName displayName unit description : String) : List String :=
  (if maxAliasRawNameLen < jsLength (jsTrim rawName) then
    [s!"Raw metric key must be <= {maxAliasRawNameLen} characters."]
    else if (jsTrim rawName).isEmpty then ["Raw metric key is required."] else []) ++
  (if maxAliasDisplayNameLen < jsLength (jsTrim displayName) then
      [s!"Display label must be <= {maxAliasDisplayNameLen} characters."]
    else if (jsTrim displayName).isEmpty then ["Display label is required."] else []) ++
  (if maxAliasUnitLen < jsLength (jsTrim unit) then [s!"Unit must be <= {maxAliasUnitLen} characters."] else []) ++
  (if maxAliasDescriptionLen < jsLength (jsTrim description) then
      [s!"Description must be <= {maxAliasDescriptionLen} characters."] else [])

def getMetricAliasRawName (row : MetricAliasRow) : String := jsTrim row.metricName

def textOf (value : Option String) : String := jsTrim (value.getD "")

variable (toLowerCase : String → String)

def normalizeAliasBool (value : String) : Option Bool :=
  let normalized := toLowerCase (jsTrim value)
  if normalized.isEmpty then some true
  else if ["1", "true", "yes", "y", "active"].contains normalized then some true
  else if ["0", "false", "no", "n", "inactive"].contains normalized then some false
  else none

def headerIndex (headers : List String) (name : String) : Option Nat :=
  ((headers.zipIdx.filter (fun header => header.1 == name)).getLast?).map Prod.snd

structure Columns where
  raw : Nat
  display : Nat
  unit : Option Nat
  description : Option Nat
  active : Option Nat

def columnsOf (headers : List String) : Option Columns :=
  match (headerIndex headers "raw_name").or (headerIndex headers "metric_name"), headerIndex headers "display_name" with
  | some raw, some display =>
      some ⟨raw, display, headerIndex headers "unit", headerIndex headers "description",
        headerIndex headers "is_active"⟩
  | _, _ => none

def cellAt (cells : List String) (index : Option Nat) : String := jsTrim ((index.bind (fun i => cells[i]?)).getD "")

/-- The alias of the list that a metric has, and the metric whose active alias shows a name. -/
def existingByRaw (aliases : List MetricAliasRow) (rawName : String) : Option MetricAliasRow :=
  (aliases.filter (fun row => getMetricAliasRawName row == rawName)).getLast?

def displayTakenBy (aliases : List MetricAliasRow) (displayName : String) : Option String :=
  ((aliases.filter (fun row => row.isActive &&
    toLowerCase (jsTrim row.displayName) == toLowerCase displayName)).getLast?).map getMetricAliasRawName

def invalidActive : String := "is_active must be true/false (or 1/0, yes/no)."

def actionFor (existing : Option MetricAliasRow) (displayName unit description : String) (isActive : Bool) : Action :=
  match existing with
  | some row =>
      if row.isActive == isActive && jsTrim row.displayName == displayName && textOf row.unit == unit &&
          textOf row.description == description then .noop
      else if !row.isActive && isActive then .reactivate
      else if row.isActive && !isActive then .deactivate
      else .update
  | none => if isActive then .create else .deactivate

def rowError (active : Option Bool) (rawName displayName unit description : String) : Option String :=
  if active.isNone then some invalidActive else (validateAliasForm rawName displayName unit description).head?

def takenError (aliases : List MetricAliasRow) (rawName displayName : String) (isActive : Bool) : Option String :=
  if isActive then
    ((displayTakenBy toLowerCase aliases displayName).filter (fun raw => !raw.isEmpty && raw != rawName)).map
      (fun raw => s!"display_name '{displayName}' already used by active alias '{raw}'.")
  else none

def activeAt (cells : List String) (index : Option Nat) : Option Bool :=
  match index with
  | some i => normalizeAliasBool toLowerCase (cells[i]?.getD "")
  | none => some true

def previewRow (aliases : List MetricAliasRow) (columns : Columns) (rowNumber : Nat) (cells : List String) :
    PreviewRow :=
  let rawName := cellAt cells (some columns.raw)
  let displayName := cellAt cells (some columns.display)
  let unit := cellAt cells columns.unit
  let description := cellAt cells columns.description
  let active := activeAt toLowerCase cells columns.active
  let isActive := active.getD true
  let error := (rowError active rawName displayName unit description).or
    (takenError toLowerCase aliases rawName displayName isActive)
  { rowNumber, rawName, displayName, unit, description, isActive, error
    action := if error.isSome then .error
      else actionFor (existingByRaw aliases rawName) displayName unit description isActive }

/-- The rows of a file with what importing each of them would do. -/
def handleAliasImportFile (aliases : List MetricAliasRow) (content : String) : List PreviewRow × String :=
  match readLines content.toList with
  | [] => ([], "CSV is empty.")
  | header :: lines =>
      match columnsOf ((parseCsvLine header).map (fun cell => toLowerCase (jsTrim (String.ofList cell)))) with
      | none => ([], "CSV must include 'raw_name' (or 'metric_name') and 'display_name' headers.")
      | some columns =>
          let rows := lines.zipIdx.map (fun line =>
            previewRow toLowerCase aliases columns (line.2 + 2) ((parseCsvLine line.1).map String.ofList))
          (rows,
            s!"Loaded CSV preview ({rows.length} rows, {(rows.filter (fun row => row.action == .error)).length} errors).")

def actionableRows (rows : List PreviewRow) : List PreviewRow :=
  rows.filter (fun row => row.action != .error && row.action != .noop)

def presentText (text : String) : Option String := if text.isEmpty then none else some text

def PreviewRow.request (row : PreviewRow) : UpsertMetricAliasRequest where
  rawName := row.rawName
  displayName := row.displayName
  unit := presentText row.unit
  description := presentText row.description
  isActive := row.isActive

variable (setup : Setup) (auth : AuthContext) (projectId : String)

/-- One request after the other, up to the first that is refused. -/
def applyRows (envs : Nat → AliasEnv) : Nat → List PreviewRow → Command AliasStore HttpError Unit
  | _, [] => pure ()
  | k, row :: rows => do
      let _ ← (httpUpsertProjectMetricAlias setup auth projectId row.request).alone (envs k)
      applyRows envs (k + 1) rows

def handleApplyAliasImport (envs : Nat → AliasEnv) (rows : List PreviewRow) : Command AliasStore HttpError Unit :=
  applyRows setup auth projectId envs 0 (actionableRows rows)

/-! Texts in ASCII are cut and measured alike on both sides. -/

def Ascii (cs : List Char) : Prop := ∀ c ∈ cs, c.toNat < 128

section Ascii

variable {cs : List Char} {s : String}

theorem isJsSpace_eq {c : Char} (h : c.toNat < 128) : NextPath.isJsSpace c = isWhitespace c := by
  have hall : ∀ n < 128, ((9 ≤ n && n ≤ 13) || (0x2000 ≤ n && n ≤ 0x200A) ||
      [0x20, 0xA0, 0x1680, 0x2028, 0x2029, 0x202F, 0x205F, 0x3000, 0xFEFF].contains n) =
      ((9 ≤ n && n ≤ 13) || (0x2000 ≤ n && n ≤ 0x200A) ||
        [0x20, 0x85, 0xA0, 0x1680, 0x2028, 0x2029, 0x202F, 0x205F, 0x3000].contains n) := by decide
  exact hall c.toNat h

theorem dropWhile_congr {p q : Char → Bool} (h : ∀ c ∈ cs, p c = q c) : cs.dropWhile p = cs.dropWhile q := by
  induction cs with
  | nil => rfl
  | cons c cs ih =>
      obtain ⟨hc, hcs⟩ := List.forall_mem_cons.mp h
      rw [List.dropWhile_cons, List.dropWhile_cons, hc, ih hcs]

theorem trim_ascii (h : Ascii cs) : trim cs = trimChars cs := by
  rw [trim, trimChars, dropWhile_congr (fun c hc => isJsSpace_eq (h c hc)), List.rdropWhile]
  congr 1
  refine dropWhile_congr (fun c hc => isJsSpace_eq (h c ?_))
  exact (List.dropWhile_suffix _).subset (List.mem_reverse.mp hc)

theorem jsTrim_ascii (h : Ascii s.toList) : jsTrim s = Text.trim s := by
  rw [jsTrim, Text.trim, trim_ascii h]

theorem ascii_trim (h : Ascii cs) : Ascii (trim cs) := by
  intro c hc
  exact h c ((List.dropWhile_suffix _).subset ((List.rdropWhile_prefix _ _).subset hc))

theorem ascii_jsTrim (h : Ascii s.toList) : Ascii (jsTrim s).toList := by
  rw [jsTrim, String.toList_ofList]
  exact ascii_trim h

theorem jsLength_ascii (h : Ascii s.toList) : jsLength s = byteLength s := by
  rw [jsLength, CodeUnits.units, byteLength, List.length_flatMap]
  congr 1
  refine List.map_congr_left (fun c hc => ?_)
  have hsmall := h c hc
  have hunits : CodeUnits.unitsOf c = [CodeUnits.codeUnit c.toNat] := if_pos (by omega)
  have hsize : c.utf8Size = 1 := by
    rw [Char.utf8Size, if_pos]
    exact Nat.lt_succ_iff.mp hsmall
  rw [hunits, hsize]
  rfl

theorem trim_jsTrim (h : Ascii s.toList) : Text.trim (jsTrim s) = jsTrim s := by
  rw [jsTrim_ascii h, trim_trim]

end Ascii

/-- A row whose texts the server takes as they are. -/
structure Valid (row : PreviewRow) : Prop where
  raw : Text.trim row.rawName = row.rawName ∧ row.rawName ≠ "" ∧ byteLength row.rawName ≤ 256
  display : Text.trim row.displayName = row.displayName ∧ row.displayName ≠ "" ∧
    byteLength row.displayName ≤ 128
  unit : Text.trim row.unit = row.unit
  description : Text.trim row.description = row.description

/-- No alias of the list but the row's own shows its name. -/
def FreeOf (aliases : List MetricAliasRow) (row : PreviewRow) : Prop :=
  row.isActive = true → ∀ a ∈ aliases, a.isActive = true →
    toAsciiLowercase a.displayName = toAsciiLowercase row.displayName → a.metricName = row.rawName

section Preview

variable {toLowerCase : String → String} {aliases : List MetricAliasRow} {columns : Columns} {rowNumber : Nat}
  {cells : List String}

theorem validateAliasForm_nil {rawName displayName unit description : String}
    (h : validateAliasForm rawName displayName unit description = []) :
    (jsTrim rawName ≠ "" ∧ jsLength (jsTrim rawName) ≤ maxAliasRawNameLen) ∧
      jsTrim displayName ≠ "" ∧ jsLength (jsTrim displayName) ≤ maxAliasDisplayNameLen := by
  simp only [validateAliasForm, List.append_eq_nil_iff] at h
  obtain ⟨⟨⟨hraw, hdisplay⟩, -⟩, -⟩ := h
  constructor
  · split at hraw
    · cases hraw
    · split at hraw
      · cases hraw
      · rename_i hlen hne
        exact ⟨fun heq => hne (by rw [heq]; rfl), Nat.le_of_not_lt hlen⟩
  · split at hdisplay
    · cases hdisplay
    · split at hdisplay
      · cases hdisplay
      · rename_i hlen hne
        exact ⟨fun heq => hne (by rw [heq]; rfl), Nat.le_of_not_lt hlen⟩

theorem cell_of_cellAt (index : Option Nat) :
    cellAt cells index = jsTrim "" ∨ ∃ cell ∈ cells, cellAt cells index = jsTrim cell := by
  cases hcell : index.bind (fun i => cells[i]?) with
  | none => exact .inl (by rw [cellAt, hcell, Option.getD_none])
  | some cell =>
      obtain ⟨i, -, hi⟩ := Option.bind_eq_some_iff.mp hcell
      exact .inr ⟨cell, List.mem_of_getElem? hi, by rw [cellAt, hcell, Option.getD_some]⟩

theorem ascii_cellAt (h : ∀ cell ∈ cells, Ascii cell.toList) (index : Option Nat) :
    Ascii (cellAt cells index).toList ∧ Text.trim (cellAt cells index) = cellAt cells index ∧
      jsTrim (cellAt cells index) = cellAt cells index := by
  have hcell : ∃ cell : String, Ascii cell.toList ∧ cellAt cells index = jsTrim cell := by
    rcases cell_of_cellAt index with heq | ⟨cell, hmem, heq⟩
    · exact ⟨"", fun c hc => absurd hc (by simp), heq⟩
    · exact ⟨cell, h cell hmem, heq⟩
  obtain ⟨cell, hascii, heq⟩ := hcell
  rw [heq]
  refine ⟨ascii_jsTrim hascii, trim_jsTrim hascii, ?_⟩
  rw [jsTrim_ascii (ascii_jsTrim hascii), trim_jsTrim hascii]

theorem previewRow_passed (h : (previewRow toLowerCase aliases columns rowNumber cells).action ≠ .error) :
    validateAliasForm (cellAt cells (some columns.raw)) (cellAt cells (some columns.display))
        (cellAt cells columns.unit)
        (cellAt cells columns.description) = [] ∧
      takenError toLowerCase aliases (cellAt cells (some columns.raw)) (cellAt cells (some columns.display))
        (previewRow toLowerCase aliases columns rowNumber cells).isActive = none := by
  simp only [previewRow] at h ⊢
  split at h
  · exact absurd rfl h
  · rename_i hnone
    rw [Option.isSome_iff_ne_none, not_not, Option.or_eq_none_iff] at hnone
    obtain ⟨hrow, htaken⟩ := hnone
    refine ⟨?_, htaken⟩
    rw [rowError] at hrow
    split at hrow
    · cases hrow
    · exact List.head?_eq_none_iff.mp hrow

theorem previewRow_valid (hcells : ∀ cell ∈ cells, Ascii cell.toList)
    (h : (previewRow toLowerCase aliases columns rowNumber cells).action ≠ .error) :
    Valid (previewRow toLowerCase aliases columns rowNumber cells) := by
  obtain ⟨hform, -⟩ := previewRow_passed h
  obtain ⟨⟨hraw, hrawLen⟩, hdisplay, hdisplayLen⟩ := validateAliasForm_nil hform
  obtain ⟨hrawAscii, hrawTrim, hrawJs⟩ := ascii_cellAt hcells (some columns.raw)
  obtain ⟨hdisplayAscii, hdisplayTrim, hdisplayJs⟩ := ascii_cellAt hcells (some columns.display)
  rw [hrawJs] at hraw hrawLen
  rw [hdisplayJs] at hdisplay hdisplayLen
  exact ⟨⟨hrawTrim, hraw, jsLength_ascii hrawAscii ▸ hrawLen⟩,
    ⟨hdisplayTrim, hdisplay, jsLength_ascii hdisplayAscii ▸ hdisplayLen⟩,
    (ascii_cellAt hcells columns.unit).2.1, (ascii_cellAt hcells columns.description).2.1⟩

/-- The aliases of a list, as the server keeps them. -/
structure Listed (aliases : List MetricAliasRow) : Prop where
  ascii : ∀ a ∈ aliases, Ascii a.metricName.toList ∧ Ascii a.displayName.toList
  metric : ∀ a ∈ aliases, Kept a.metricName
  display : ∀ a ∈ aliases, Kept a.displayName
  apart : ∀ a ∈ aliases, ∀ b ∈ aliases, a.isActive = true → b.isActive = true →
    toAsciiLowercase a.displayName = toAsciiLowercase b.displayName → a.metricName = b.metricName

theorem previewRow_free (hlower : ∀ text : String, Ascii text.toList → toLowerCase text = toAsciiLowercase text)
    (hlisted : Listed aliases) (hcells : ∀ cell ∈ cells, Ascii cell.toList)
    (h : (previewRow toLowerCase aliases columns rowNumber cells).action ≠ .error) :
    FreeOf aliases (previewRow toLowerCase aliases columns rowNumber cells) := by
  intro hactive a ha haActive hname
  obtain ⟨-, htaken⟩ := previewRow_passed h
  have hname : toAsciiLowercase a.displayName = toAsciiLowercase (cellAt cells (some columns.display)) := hname
  have hkeys : ∀ b ∈ aliases, toLowerCase (jsTrim b.displayName) = toAsciiLowercase b.displayName := by
    intro b hb
    rw [jsTrim_ascii (hlisted.ascii b hb).2, (hlisted.display b hb).trimmed, hlower _ (hlisted.ascii b hb).2]
  have hcell := hlower _ (ascii_cellAt hcells (some columns.display)).1
  rw [takenError, hactive, if_pos rfl, Option.map_eq_none_iff, displayTakenBy] at htaken
  have hmem : a ∈ aliases.filter (fun row => row.isActive &&
      toLowerCase (jsTrim row.displayName) == toLowerCase (cellAt cells (some columns.display))) :=
    List.mem_filter.mpr ⟨ha, by simp [haActive, hkeys a ha, hcell, hname]⟩
  cases hlast : (aliases.filter (fun row => row.isActive &&
      toLowerCase (jsTrim row.displayName) == toLowerCase (cellAt cells (some columns.display)))).getLast? with
  | none =>
      rw [List.getLast?_eq_none_iff.mp hlast] at hmem
      exact absurd hmem List.not_mem_nil
  | some b =>
      obtain ⟨hb, hboth⟩ := List.mem_filter.mp (List.mem_of_getLast? hlast)
      rw [Bool.and_eq_true, beq_iff_eq, hkeys b hb, hcell] at hboth
      have hraw : getMetricAliasRawName b = b.metricName := by
        rw [getMetricAliasRawName, jsTrim_ascii (hlisted.ascii b hb).1, (hlisted.metric b hb).trimmed]
      rw [hlast, Option.map_some, hraw, Option.filter_eq_none_iff] at htaken
      have hsame := htaken b.metricName rfl
      rw [Bool.and_eq_true, not_and] at hsame
      rw [hlisted.apart a ha b hb haActive hboth.1 (hname.trans hboth.2.symm)]
      have hne : (!b.metricName.isEmpty) = true := by
        simpa [String.isEmpty_iff] using (hlisted.metric b hb).nonempty
      have hown : b.metricName = cellAt cells (some columns.raw) := by simpa using hsame hne
      exact hown

end Preview

theorem listed_ofProject {s : AliasStore} {projectId : String} (hs : Sound s)
    (hascii : ∀ r ∈ s.aliases.rows, r.projectId = projectId →
      Ascii r.metricName.toList ∧ Ascii r.displayName.toList) :
    Listed (s.ofProject projectId) := by
  have hmem : ∀ {r}, r ∈ s.ofProject projectId → r ∈ s.aliases.rows ∧ r.projectId = projectId := by
    intro r hr
    rw [AliasStore.ofProject, List.mem_insertionSort] at hr
    obtain ⟨hrow, hproject⟩ := List.mem_filter.mp hr
    exact ⟨hrow, beq_iff_eq.mp hproject⟩
  refine ⟨fun a ha => hascii a (hmem ha).1 (hmem ha).2, fun a ha => (hs.named a (hmem ha).1).metric.1,
    fun a ha => (hs.named a (hmem ha).1).display.1, ?_⟩
  intro a ha b hb haActive hbActive hname
  obtain ⟨harow, haproject⟩ := hmem ha
  obtain ⟨hbrow, hbproject⟩ := hmem hb
  refine congrArg MetricAliasRow.metricName (eq_of_mem (p := fun r => r.projectId == projectId && r.isActive &&
    toAsciiLowercase r.displayName == toAsciiLowercase b.displayName) ?_ harow hbrow ?_ ?_)
  · intro r r' hr hr'
    simp only [Bool.and_eq_true, beq_iff_eq] at hr hr'
    exact ⟨hr.1.1.trans hr'.1.1.symm, .inr ⟨hr.1.2, hr'.1.2, hr.2.trans hr'.2.symm⟩⟩
  · simp [haproject, haActive, hname]
  · simp [hbproject, hbActive]

theorem actionable_ready {toLowerCase : String → String} {aliases : List MetricAliasRow} {content : String}
    (hlower : ∀ text : String, Ascii text.toList → toLowerCase text = toAsciiLowercase text)
    (hlisted : Listed aliases) (hcontent : Ascii content.toList) {row : PreviewRow}
    (hrow : row ∈ actionableRows (handleAliasImportFile toLowerCase aliases content).1) : Valid row ∧
      FreeOf aliases row := by
  obtain ⟨hrow, haction⟩ := List.mem_filter.mp hrow
  have hnot : row.action ≠ .error := by
    intro heq
    simp [heq] at haction
  rw [handleAliasImportFile] at hrow
  split at hrow
  · exact absurd hrow List.not_mem_nil
  · rename_i header lines hlines
    split at hrow
    · exact absurd hrow List.not_mem_nil
    · obtain ⟨⟨line, k⟩, hline, rfl⟩ := List.mem_map.mp hrow
      have hcells : ∀ cell ∈ (parseCsvLine line).map String.ofList, Ascii cell.toList := by
        intro cell hcell c hc
        obtain ⟨chars, hchars, rfl⟩ := List.mem_map.mp hcell
        rw [String.toList_ofList] at hc
        have hmem : line ∈ readLines content.toList := by
          rw [hlines]
          exact List.mem_cons_of_mem _ (List.fst_mem_of_mem_zipIdx hline)
        rcases mem_of_cell hchars hc with h | h
        · exact absurd h List.not_mem_nil
        · exact hcontent c (mem_of_line hmem h)
      exact ⟨previewRow_valid hcells hnot, previewRow_free hlower hlisted hcells hnot⟩

/-! What applying them leaves. -/

/-- What an alias tells beside its times. -/
structure Content where
  displayName : String
  unit : Option String
  description : Option String
  isActive : Bool
  deriving DecidableEq, Repr

def contentOf (r : MetricAliasRow) : Content := ⟨r.displayName, r.unit, r.description, r.isActive⟩

def PreviewRow.content (row : PreviewRow) : Content :=
  ⟨row.displayName, presentText row.unit, presentText row.description, row.isActive⟩

def lastFor (rows : List PreviewRow) (rawName : String) : Option PreviewRow :=
  (rows.filter (fun row => row.rawName == rawName)).getLast?

/-- The name is not shown by what an earlier row left another metric. -/
def Clear (before : List PreviewRow) (row : PreviewRow) : Prop :=
  row.isActive = true → ∀ rawName earlier, rawName ≠ row.rawName → lastFor before rawName = some earlier →
    earlier.isActive = true → toAsciiLowercase earlier.displayName ≠ toAsciiLowercase row.displayName

def AllClear (rows : List PreviewRow) : Prop :=
  ∀ before row later, rows = before ++ row :: later → Clear before row

/-- The store when these rows are written. -/
structure Applied (s : AliasStore) (rows : List PreviewRow) (t : AliasStore) : Prop where
  ui : t.ui = s.ui
  own : ∀ rawName, (t.find (projectId, rawName)).map contentOf =
    ((lastFor rows rawName).map PreviewRow.content).or ((s.find (projectId, rawName)).map contentOf)
  others : ∀ key : String × String, key.1 ≠ projectId → t.find key = s.find key

section Applied

variable {setup auth projectId} {s t t' : AliasStore} {before rows : List PreviewRow} {row : PreviewRow}
    {env : AliasEnv}

theorem lastFor_concat (before : List PreviewRow) (row : PreviewRow) (rawName : String) :
    lastFor (before ++ [row]) rawName = if row.rawName = rawName then some row else lastFor before rawName := by
  rw [lastFor, List.filter_append]
  split
  · rename_i heq
    rw [List.filter_cons_of_pos (by simpa using heq), List.filter_nil, List.getLast?_concat]
  · rename_i hne
    rw [List.filter_cons_of_neg (by simpa using hne), List.filter_nil, List.append_nil, lastFor]

theorem applied_nil (s : AliasStore) : Applied projectId s [] s := ⟨rfl, fun _ => rfl, fun _ _ => rfl⟩

theorem optionalText_presentText {text : String} (h : Text.trim text = text) :
    optionalText (presentText text) = presentText text := by
  rw [presentText]
  split
  · rfl
  · rename_i hne
    rw [optionalText, Option.map_some, h, Option.filter_some, if_pos (by simpa using hne)]

theorem Applied.write (h : Applied projectId s before t) (hvalid : Valid row)
    (hwrite : writeMetricAlias env projectId row.rawName row.displayName (optionalText row.request.unit)
      (optionalText row.request.description) row.isActive t = .ok ((), t')) :
    Applied projectId s (before ++ [row]) t' := by
  obtain ⟨createdAt, hwritten⟩ := writtenRow_eq env projectId row.rawName row.displayName
    (optionalText row.request.unit) (optionalText row.request.description) row.isActive t
  have hfind := writeMetricAlias_find hwrite
  refine ⟨(writeMetricAlias_ok hwrite).1.trans h.ui, fun rawName => ?_, fun key hkey => ?_⟩
  · rw [hfind, lastFor_concat]
    split
    · rename_i heq
      rw [← heq, Function.update_self, hwritten, Option.map_some, Option.map_some, Option.some_or]
      simp only [contentOf, PreviewRow.content, PreviewRow.request, optionalText_presentText hvalid.unit,
        optionalText_presentText hvalid.description]
    · rename_i hne
      rw [Function.update_of_ne (fun heq => hne (congrArg Prod.snd heq).symm), h.own]
  · rw [hfind, Function.update_of_ne (fun heq => hkey (congrArg Prod.fst heq)), h.others key hkey]

theorem mem_ofProject {r : MetricAliasRow} (hfind : s.find (projectId, r.metricName) = some r) :
    r ∈ s.ofProject projectId := by
  obtain ⟨hmem, hkey⟩ := (lookup_eq_some_iff clash_of_key).mp hfind
  rw [AliasStore.ofProject, List.mem_insertionSort]
  exact List.mem_filter.mpr ⟨hmem, beq_iff_eq.mpr (congrArg Prod.fst hkey)⟩

theorem taken_iff (h : Applied projectId s before t) (hfree : FreeOf (s.ofProject projectId) row) :
    row.isActive = true ∧ Taken t projectId row.rawName row.displayName ↔ ¬ Clear before row := by
  constructor
  · rintro ⟨hactive, r, hr, hproject, hne, hrActive, hname⟩ hclear
    have hfind : t.find (projectId, r.metricName) = some r :=
      (lookup_eq_some_iff clash_of_key).mpr ⟨hr, Prod.ext hproject rfl⟩
    have hown := h.own r.metricName
    rw [hfind, Option.map_some] at hown
    cases hlast : lastFor before r.metricName with
    | some earlier =>
        rw [hlast, Option.map_some, Option.some_or] at hown
        obtain ⟨hdisplay, -, -, hearlier⟩ := Content.mk.inj (Option.some.inj hown)
        refine hclear hactive r.metricName earlier hne hlast (hearlier ▸ hrActive) ?_
        rw [← hdisplay, hname]
    | none =>
        rw [hlast, Option.map_none, Option.none_or] at hown
        obtain ⟨a, ha, hcontent⟩ := Option.map_eq_some_iff.mp hown.symm
        obtain ⟨hdisplay, -, -, haActive⟩ := Content.mk.inj hcontent
        have hkey := ((lookup_eq_some_iff clash_of_key).mp ha).2
        have hraw : a.metricName = r.metricName := congrArg Prod.snd hkey
        have hsame := hfree hactive a (mem_ofProject (hraw ▸ ha)) (haActive ▸ hrActive) (hdisplay ▸ hname)
        exact hne (hraw.symm.trans hsame)
  · intro hnot
    simp only [Clear, not_forall, not_not] at hnot
    obtain ⟨hactive, rawName, earlier, hne, hlast, hearlier, hname⟩ := hnot
    have hown := h.own rawName
    rw [hlast, Option.map_some, Option.some_or] at hown
    obtain ⟨r, hr, hcontent⟩ := Option.map_eq_some_iff.mp hown
    obtain ⟨hdisplay, -, -, hrActive⟩ := Content.mk.inj hcontent
    obtain ⟨hmem, hkey⟩ := (lookup_eq_some_iff clash_of_key).mp hr
    obtain ⟨hproject, hraw⟩ := Prod.mk.inj hkey
    refine ⟨hactive, r, hmem, hproject, ?_, hrActive.trans hearlier, by rw [hdisplay, hname]⟩
    rw [hraw]
    exact hne

/-- The caller may write aliases of the project, and the database answers. -/
structure Admits (setup : Setup) (auth : AuthContext) (projectId : String) (env : AliasEnv)
    (s : AliasStore) : Prop where
  path : validatePathId projectId "project_id" = .ok ()
  project : ∀ t, t.ui = s.ui → (requireProject projectId).alone env t = (.ok (), t)
  access : requireEndpointAccess auth setup.uiJwt.rbac .write (some projectId) = .ok ()
  editor : ∀ t, t.ui = s.ui → (requireUiProjectEditorOrOwner auth projectId).alone env t = (.ok (), t)
  writeAlias : env.writeAlias = none
  readAlias : env.readAlias = none

theorem requiredName_kept {field name : String} {limit : Nat} (htrim : Text.trim name = name) (hne : name ≠ "")
    (hlen : byteLength name ≤ limit) : requiredName field limit name = .ok name := by
  rw [requiredName, htrim, if_neg (by simpa [String.isEmpty_iff] using hne), if_neg (Nat.not_lt.mpr hlen)]

theorem Admits.passed (h : Admits setup auth projectId env s) (hui : t.ui = s.ui) (hvalid : Valid row) :
    (admitUpsert setup auth projectId row.request).alone env t = (.ok (row.rawName, row.displayName), t) := by
  obtain ⟨hrawTrim, hraw, hrawLen⟩ := hvalid.raw
  obtain ⟨hdisplayTrim, hdisplay, hdisplayLen⟩ := hvalid.display
  have hrawName : requiredName "raw_name" 256 row.request.rawName = .ok row.rawName :=
    requiredName_kept hrawTrim hraw hrawLen
  have hdisplayName : requiredName "display_name" 128 row.request.displayName = .ok row.displayName :=
    requiredName_kept hdisplayTrim hdisplay hdisplayLen
  have hdone : ∀ {α : Type} {answer : Except HttpError α} {a : α}, answer = .ok a →
      (Thread.done answer : AliasThread α).alone env t = (.ok a, t) := by
    rintro α answer a rfl
    rfl
  rw [admitUpsert, alone_bind, bind_ok (hdone h.path), alone_bind, bind_ok (h.project t hui), alone_bind,
    bind_ok (hdone h.access), alone_bind, bind_ok (h.editor t hui), alone_bind,
    bind_ok (hdone hrawName), alone_bind, bind_ok (hdone hdisplayName)]
  rfl

theorem applyRows_outcome {envs : Nat → AliasEnv} (hadmits : ∀ k, Admits setup auth projectId (envs k) s) (k : Nat)
    (hready : ∀ row ∈ rows, Valid row ∧ FreeOf (s.ofProject projectId) row) (h : Applied projectId s before t) :
    ∃ applied rest, rows = applied ++ rest ∧
      Applied projectId s (before ++ applied) (applyRows setup auth projectId envs k rows t).2 ∧
      (∀ front row later, applied = front ++ row :: later → Clear (before ++ front) row) ∧
      (rest = [] ∧ (applyRows setup auth projectId envs k rows t).1 = .ok () ∨
        (∃ row later, rest = row :: later ∧ ¬ Clear (before ++ applied) row) ∧
          (applyRows setup auth projectId envs k rows t).1 = .error nameTaken) := by
  induction rows generalizing before t k with
  | nil =>
      refine ⟨[], [], rfl, ?_, fun front row later heq => by simp at heq, .inl ⟨rfl, rfl⟩⟩
      rw [List.append_nil]
      exact h
  | cons row rows ih =>
      obtain ⟨⟨hvalid, hfree⟩, hrest⟩ := List.forall_mem_cons.mp hready
      have hpassed := (hadmits k).passed h.ui hvalid
      rw [applyRows]
      by_cases hclear : Clear before row
      · have hnot : ¬ (row.request.isActive = true ∧ Taken t projectId row.rawName row.displayName) := fun htaken =>
          (taken_iff h hfree).mp htaken hclear
        obtain ⟨t', hserved, hwrite⟩ := upsert_served hpassed (hadmits k).writeAlias (hadmits k).readAlias hnot
        rw [bind_ok hserved]
        obtain ⟨applied, rest, rfl, happlied, hclears, hend⟩ := ih (k + 1) hrest (h.write hvalid hwrite)
        refine ⟨row :: applied, rest, rfl, by simpa using happlied, ?_, by simpa using hend⟩
        intro front other later heq
        cases front with
        | nil =>
            obtain ⟨rfl, -⟩ := List.cons.inj heq
            simpa using hclear
        | cons first front =>
            obtain ⟨hfirst, htail⟩ := List.cons.inj heq
            rw [← hfirst]
            simpa using hclears front other later htail
      · obtain ⟨hactive, htaken⟩ := (taken_iff h hfree).mpr hclear
        have hrefused := upsert_refused hpassed (hadmits k).writeAlias hactive htaken
        rw [bind_error hrefused]
        exact ⟨[], row :: rows, rfl, by simpa using h, fun front other later heq => by simp at heq,
          .inr ⟨⟨row, rows, rfl, by simpa using hclear⟩, rfl⟩⟩

end Applied

/-- An import of texts in ASCII writes the rows of its preview in their order. It is stopped, with
a conflict, by the first row that shows a name which an earlier row of the file gave another metric. -/
theorem import_outcome {toLowerCase : String → String} {setup : Setup} {auth : AuthContext} {projectId : String}
    {envs : Nat → AliasEnv} {s : AliasStore} {content : String}
    (hlower : ∀ text : String, Ascii text.toList → toLowerCase text = toAsciiLowercase text) (hs : Sound s)
    (hascii : ∀ r ∈ s.aliases.rows, r.projectId = projectId →
      Ascii r.metricName.toList ∧ Ascii r.displayName.toList)
    (hcontent : Ascii content.toList) (hadmits : ∀ k, Admits setup auth projectId (envs k) s)
    {rows : List PreviewRow} (hrows : (handleAliasImportFile toLowerCase (s.ofProject projectId) content).1 = rows) :
    ∃ applied rest, actionableRows rows = applied ++ rest ∧ AllClear applied ∧
      Applied projectId s applied (handleApplyAliasImport setup auth projectId envs rows s).2 ∧
      (rest = [] ∧ (handleApplyAliasImport setup auth projectId envs rows s).1 = .ok () ∨
        (∃ row later, rest = row :: later ∧ ¬ Clear applied row) ∧
          (handleApplyAliasImport setup auth projectId envs rows s).1 = .error nameTaken) := by
  subst hrows
  obtain ⟨applied, rest, hsplit, happlied, hclear, hend⟩ := applyRows_outcome hadmits 0
    (fun row hrow => actionable_ready hlower (listed_ofProject hs hascii) hcontent hrow) (applied_nil s)
  exact ⟨applied, rest, hsplit, hclear, happlied, hend⟩

def oneProject : AliasStore :=
  ⟨{ UiTables.UiStore.empty with projects := ⟨[⟨"p", "vision", none⟩], by simp⟩ }, .empty⟩

def twoRows : String := "raw_name,display_name\nval/acc,Accuracy\ntrain/acc,accuracy\n"

theorem sound_oneProject : Sound oneProject :=
  ⟨fun _ h => absurd h List.not_mem_nil, fun _ h => absurd h List.not_mem_nil⟩

theorem admits_oneProject :
    Admits DisabledUsers.oneUser (.devMode 0) "p" { ui := { now := 1 } } oneProject := by
  refine ⟨rfl, ?_, rfl, ?_, rfl, rfl⟩
  · rintro ⟨ui, aliases⟩ rfl
    rfl
  · rintro ⟨ui, aliases⟩ rfl
    rfl

theorem ascii_twoRows : Ascii twoRows.toList := by
  simp [Ascii, twoRows]

theorem import_outcome_twoRows :
    ∃ applied rest, actionableRows (handleAliasImportFile toAsciiLowercase (oneProject.ofProject "p") twoRows).1 =
        applied ++ rest ∧ AllClear applied ∧
      Applied "p" oneProject applied (handleApplyAliasImport DisabledUsers.oneUser (.devMode 0) "p"
        (fun _ => { ui := { now := 1 } }) (handleAliasImportFile toAsciiLowercase (oneProject.ofProject "p") twoRows).1
        oneProject).2 ∧
      (rest = [] ∧ (handleApplyAliasImport DisabledUsers.oneUser (.devMode 0) "p" (fun _ => { ui := { now := 1 } })
          (handleAliasImportFile toAsciiLowercase (oneProject.ofProject "p") twoRows).1 oneProject).1 = .ok () ∨
        (∃ row later, rest = row :: later ∧ ¬ Clear applied row) ∧
          (handleApplyAliasImport DisabledUsers.oneUser (.devMode 0) "p" (fun _ => { ui := { now := 1 } })
            (handleAliasImportFile toAsciiLowercase (oneProject.ofProject "p") twoRows).1 oneProject).1 =
            .error nameTaken) :=
  import_outcome (fun _ _ => rfl) sound_oneProject (fun _ h => absurd h List.not_mem_nil) ascii_twoRows
    (fun _ => admits_oneProject) rfl

end MLRunX.AliasImport
