import MLRunX.EqualityFilters
import MLRunX.RetrySafety
import MLRunX.RunPages
import MLRunX.StoredRows
import MLRunX.TrackedBatches

namespace MLRunX.FilterSearch

open Atomicity Commands Conditions EqualityFilters Ingest IngestRequest KeyCase MetadataKey Mutators RunFilter
  RunInit RunListing
  RunPages RunTables Runs Sqlite Statements StoredRows Text
open RunServer hiding Op step

/-- What changes the runs, their data and their projects. -/
inductive Op
  | run (op : RunServer.Op)
  | ui (op : UiRequests.Op)
  | deleteProject (faults : DeleteProjectFaults) (projectId : String)

variable (setup : UiAuth.Setup) (env : Env)

def step : Machine Server Op Unit
  | s, .run op => ((), (RunServer.step env s op).2)
  | s, .ui op => ((), { s with store := { s.store with ui := (UiRequests.step setup s.store.ui op).2 } })
  | s, .deleteProject faults projectId => ((), (RunServer.onStore (Mutators.deleteProject faults projectId) s).2)

def metadata (s : Server) : MetadataStore := ⟨s.store.ui, s.store.runTables, s.times⟩

/-! Every key that is stored has its canonical form. -/

def properKeys : RowSpec where
  tag _ t := Proper t.1
  param _ p := Proper p.1
  metric _ _ := True

theorem validateInitTag_proper {maxTagValueLen : Nat} {tag stored : String × String}
    (h : validateInitTag maxTagValueLen tag = .ok stored) : Proper stored.1 := by
  rw [validateInitTag] at h
  split at h
  · cases h
  · rename_i key hkey
    split at h
    · cases h
    · obtain rfl := Except.ok.inj h
      exact proper_of_canonical hkey

theorem validateInitParam_proper {param : String × ConfigValue} {stored : String × String}
    (h : validateInitParam param = .ok stored) : Proper stored.1 := by
  rw [validateInitParam] at h
  split at h
  · cases h
  · rename_i key hkey
    split at h
    · cases h
    · obtain rfl := Except.ok.inj h
      exact proper_of_canonical hkey

theorem validateTag_proper {maxTagValueLen : Nat} {tag : TagData} {stored : String × String}
    (h : IngestRequest.validateTag maxTagValueLen tag = .ok stored) : Proper stored.1 := by
  rw [IngestRequest.validateTag] at h
  split at h
  · cases h
  · rename_i key hkey
    split at h
    · cases h
    · obtain rfl := Except.ok.inj h
      exact proper_of_canonical hkey

theorem validateParam_proper {param : ParamData} {stored : String × String}
    (h : validateParam param = .ok stored) :
    Proper stored.1 := by
  rw [validateParam] at h
  split at h
  · cases h
  · rename_i key hkey
    split at h
    · cases h
    · obtain rfl := Except.ok.inj h
      exact proper_of_canonical hkey

theorem validateRequest_proper {maxTagValueLen : Nat} {payload : Payload} {batch : ValidatedBatch}
    (h : validateRequest maxTagValueLen payload = .ok batch) :
    (∀ t ∈ batch.tags, Proper t.1) ∧ ∀ p ∈ batch.params, Proper p.1 := by
  obtain ⟨params, hparams, h⟩ := Fallible.bind_eq_ok.mp h
  obtain ⟨tags, htags, h⟩ := Fallible.bind_eq_ok.mp h
  obtain ⟨metrics, -, h⟩ := Fallible.bind_eq_ok.mp h
  obtain rfl := Except.ok.inj h
  constructor
  · intro t ht
    obtain ⟨raw, -, hraw⟩ := Fallible.exists_of_mapM htags t ht
    exact validateTag_proper hraw
  · intro p hp
    obtain ⟨raw, -, hraw⟩ := Fallible.exists_of_mapM hparams p hp
    exact validateParam_proper hraw

variable {env}

theorem stepAllows_properKeys {s : Server} (op : RunServer.Op) : StepAllows properKeys env s op := by
  cases op with
  | init auth initEnv req =>
      constructor
      · intro tags htags t ht
        obtain ⟨raw, -, hraw⟩ := Fallible.exists_of_mapM htags t ht
        exact validateInitTag_proper hraw
      · intro params hparams p hp
        obtain ⟨raw, -, hraw⟩ := Fallible.exists_of_mapM hparams p hp
        exact validateInitParam_proper hraw
  | ingest sent fault faults =>
      intro p validation tracker' hsent hbatch hvalid
      obtain ⟨htags, hparams⟩ := validateRequest_proper hbatch
      constructor
      · intro t ht
        exact htags t ((TrackedBatches.accepted_mem hvalid).1 t ht).1
      · exact hparams
      · exact fun _ _ => trivial
  | process faults index => trivial
  | finish auth finishEnv runId status => trivial
  | delete auth faults runId => trivial

theorem keeps_deleteRunRows {R : RowSpec} (runId : String) (faults : Nat → Option String) :
    Keeps (fun s : SqliteStore => AllRows R s.runTables) (deleteRunRows runId faults) := by
  have hsub : ∀ {α : Type} {fault : Option String} {f : SqliteStore → Sql (α × SqliteStore)},
      (∀ s a s', f s = .ok (a, s') → (∀ t ∈ s'.runTables.tags.rows, t ∈ s.runTables.tags.rows) ∧
        (∀ p ∈ s'.runTables.params.rows, p ∈ s.runTables.params.rows) ∧
          ∀ m ∈ s'.runTables.metrics, m ∈ s.runTables.metrics) →
      Keeps (fun s : SqliteStore => AllRows R s.runTables) (execute fault f) := by
    intro α fault f hf
    apply keeps_execute
    intro s a s' h hwrite
    obtain ⟨htags, hparams, hmetrics⟩ := hf s a s' hwrite
    exact h.of_sublists htags hparams hmetrics
  refine keeps_bind (keeps_bind (hsub ?_) (fun _ => keeps_bind (hsub ?_) (fun _ => keeps_bind (hsub ?_) (fun _ =>
    keeps_bind (hsub ?_) (fun _ => keeps_bind (hsub ?_) (fun _ => keeps_bind (hsub ?_) (fun _ => hsub ?_)))))))
    (fun _ => hsub ?_)
  all_goals
    rintro s a s' hwrite
    obtain ⟨-, rfl⟩ := Prod.mk.inj (Except.ok.inj hwrite)
    refine ⟨?_, ?_, ?_⟩ <;> intro row hrow <;> first | exact hrow | exact (List.mem_filter.mp hrow).1

theorem keeps_deleteRuns {R : RowSpec} (faults : Nat → Nat → Option String) (runIds : List String) :
    Keeps (fun s : SqliteStore => AllRows R s.runTables) (deleteRuns faults runIds) := by
  induction runIds generalizing faults with
  | nil => exact triple_pure (fun _ h => h)
  | cons runId runIds ih => exact keeps_bind (keeps_deleteRunRows runId _) (fun _ => ih _)

theorem keeps_deleteProject {R : RowSpec} (faults : DeleteProjectFaults) (projectId : String) :
    Keeps (fun s : SqliteStore => AllRows R s.runTables) (Mutators.deleteProject faults projectId) := by
  have hleave : ∀ {α : Type} {x : Mutation α}, Leaves SqliteStore.runTables x →
      Keeps (fun s : SqliteStore => AllRows R s.runTables) x := fun hx => hx.keeps (fun _ _ heq hs => heq ▸ hs)
  have hexecute : ∀ (fault : Option String) (f : SqliteStore → SqliteStore),
    (∀ s, (f s).runTables = s.runTables) →
      Keeps (fun s : SqliteStore => AllRows R s.runTables) (execute fault (fun s => .ok ((), f s))) := by
    intro fault f hf
    apply hleave
    apply leaves_execute
    intro s a s' hwrite
    obtain ⟨-, rfl⟩ := Prod.mk.inj (Except.ok.inj hwrite)
    exact hf s
  apply keeps_transaction
  refine keeps_bind (hleave (leaves_query _ _)) (fun project => ?_)
  cases project with
  | none => exact triple_fail (fun _ h => h)
  | some project =>
      refine keeps_bind (hleave (leaves_query _ _)) (fun runIds => keeps_bind (keeps_deleteRuns _ _) (fun _ => ?_))
      refine keeps_bind (hexecute _ _ (fun _ => rfl))
        (fun _ => keeps_bind (hexecute _ _ (fun _ => rfl)) (fun _ => ?_))
      refine keeps_bind (hexecute _ _ (fun _ => rfl))
        (fun _ => keeps_bind (hexecute _ _ (fun _ => rfl)) (fun _ => ?_))
      exact keeps_bind (hexecute _ _ (fun _ => rfl)) (fun _ => hexecute _ _ (fun _ => rfl))

variable {setup}

theorem holds_after (store : SqliteStore) (ops : List Op) :
    Holds properKeys (after (step setup env) (Server.start store) ops).db
      (after (step setup env) (Server.start store) ops).stream := by
  induction ops using List.reverseRecOn with
  | nil => exact holds_start store
  | append_singleton ops op ih =>
      rw [after_concat]
      generalize after (step setup env) (Server.start store) ops = s at ih ⊢
      cases op with
      | run op => exact holds_step ih (stepAllows_properKeys op)
      | ui op => exact ih
      | deleteProject faults projectId =>
          exact ⟨(keeps_deleteProject faults projectId).after (fun _ _ h => h) (fun _ h => h) ih.db, ih.stream⟩

/-! Which runs a filter finds. -/

/-- The run has the attribute with the value. -/
def HasAttribute (db : Database) (row : JoinedRow) (value : String) : Attribute → Prop
  | .name => row.run.name = some value
  | .status => row.run.status = value
  | .runId => row.run.id = value
  | .owner => row.run.createdByUserId = some value
  | .project => row.run.projectId = value ∨ row.project.map UiTables.ProjectRow.name = some value
  | .tag key => (key, value) ∈ metadataOf db row.run.id .tags
  | .param key => (key, value) ∈ metadataOf db row.run.id .params

def onlyFilter (e : RunFilterExpr) : RunListArgs where
  project := none
  ownerUserId := none
  status := none
  query := none
  name := none
  createdAfter := none
  createdBefore := none
  tagFilters := []
  paramFilters := []
  filterExpr := some e
  sortField := .createdAt
  sortOrder := .desc
  limit := 1000
  offset := 0

/-- The filter on an attribute is accepted and selects the run. -/
def Found (chrono : Chrono) (s : MetadataStore) (row : JoinedRow) (a : Attribute) (value : String) : Prop :=
  ∃ e, parseRunFilterExpr chrono (some (filterText a value)) = .ok (some e) ∧ row ∈ matching (onlyFilter e) s

/-- What an attribute keeps of being trimmed and of having its key, or a status, put
in lower case. -/
def Survives (db : Database) (row : JoinedRow) (value : String) : Attribute → Prop
  | .name | .runId | .owner => trim value = value
  | .status => toAsciiLowercase (trim value) = value
  | .project => row.run.projectId = trim value ∨ row.project.map UiTables.ProjectRow.name = some (trim value)
  | .tag key => (toAsciiLowercase key, trim value) ∈ metadataOf db row.run.id .tags
  | .param key => (toAsciiLowercase key, trim value) ∈ metadataOf db row.run.id .params

variable {db : Database} {row : JoinedRow} {s : MetadataStore} {value : String}

theorem mem_matching_onlyFilter (e : RunFilterExpr) :
    row ∈ matching (onlyFilter e) s ↔ row ∈ joined s ∧ ExprMeets s.db row e := by
  rw [mem_matching_iff]
  refine and_congr_right (fun _ => ⟨fun h => h.filter e rfl, fun h => ?_⟩)
  constructor <;> simp [onlyFilter, h]

theorem metadataMeets_eq {pairs : List (String × String)} {key : String} :
    MetadataMeets pairs key none value .eq ↔ (key, value) ∈ pairs := by
  constructor
  · rintro ⟨⟨k, v⟩, hpair, hkey | hkey, rfl⟩
    · rwa [← hkey]
    · cases hkey
  · intro h
    exact ⟨(key, value), h, .inl rfl, rfl⟩

theorem conditionMeets_iff (a : Attribute) (h : HasAttribute db row value a) :
    ConditionMeets db row ⟨a.target, .eq, a.wanted value⟩ ↔ Survives db row value a := by
  cases a with
  | name =>
      change row.run.name = some (trim value) ↔ trim value = value
      rw [show row.run.name = some value from h, Option.some_inj, eq_comm]
  | status =>
      change some row.run.status = some (toAsciiLowercase (trim value)) ↔ _
      rw [show row.run.status = value from h, Option.some_inj, eq_comm]
      rfl
  | runId =>
      change some row.run.id = some (trim value) ↔ trim value = value
      rw [show row.run.id = value from h, Option.some_inj, eq_comm]
  | owner =>
      change row.run.createdByUserId = some (trim value) ↔ trim value = value
      rw [show row.run.createdByUserId = some value from h, Option.some_inj, eq_comm]
  | project => exact Iff.rfl
  | tag key => exact metadataMeets_eq
  | param key => exact metadataMeets_eq

theorem wellKeyed_of_stored (h : AllRows properKeys db) {a : Attribute} (ha : HasAttribute db row value a) :
    a.WellKeyed := by
  cases a with
  | name | status | runId | owner | project => trivial
  | tag key =>
      obtain ⟨t, ht, heq⟩ := List.mem_map.mp ha
      obtain ⟨rfl, -⟩ := Prod.mk.inj heq
      exact h.tags t (List.mem_filter.mp ht).1
  | param key =>
      obtain ⟨p, hp, heq⟩ := List.mem_map.mp ha
      obtain ⟨rfl, -⟩ := Prod.mk.inj heq
      exact h.params p (List.mem_filter.mp hp).1

/-- A run is found by one of its attributes exactly when the value is not blank and
the attribute stays the run's own while the filter trims it and puts keys and
statuses in lower case. -/
theorem found_iff (setup : UiAuth.Setup) (env : Env) (store : SqliteStore) (ops : List Op) (chrono : Chrono)
    {row : JoinedRow} {a : Attribute} {value : String}
    (hrow : row ∈ joined (metadata (after (step setup env) (Server.start store) ops)))
    (hvalue : HasAttribute (after (step setup env) (Server.start store) ops).db row value a)
    (hlength : byteLength (filterText a value) ≤ runFilterMaxLen) :
    Found chrono (metadata (after (step setup env) (Server.start store) ops)) row a value ↔
      trim value ≠ "" ∧ Survives (after (step setup env) (Server.start store) ops).db row value a := by
  have hkeyed := wellKeyed_of_stored (holds_after store ops).db hvalue
  have hparse := parseRunFilterExpr_filterText chrono hkeyed hlength
  by_cases hempty : trim value = ""
  · rw [if_pos hempty] at hparse
    constructor
    · rintro ⟨e, he, -⟩
      rw [hparse] at he
      cases he
    · rintro ⟨hne, -⟩
      exact absurd hempty hne
  · rw [if_neg hempty] at hparse
    have hmeets := conditionMeets_iff a hvalue
    constructor
    · rintro ⟨e, he, hmatch⟩
      rw [hparse] at he
      obtain rfl := Option.some.inj (Except.ok.inj he)
      exact ⟨hempty, hmeets.mp ((mem_matching_onlyFilter _).mp hmatch).2⟩
    · rintro ⟨-, hsurvives⟩
      exact ⟨_, hparse, (mem_matching_onlyFilter _).mpr ⟨hrow, hmeets.mpr hsurvives⟩⟩

def tagged (key : String) : List Op :=
  [.run (.init (.devMode 0) { generatedId := "g", now :=
    "t" } ⟨some "r", some "p", none, none, [(key, "vision")], []⟩)]

def taggedServer (key : String) : Server :=
  after (step localServer RetrySafety.devServer) (Server.start projectStore) (tagged key)

def taggedRow : JoinedRow where
  run := ⟨"r", "p", none, "running", none, none, 0, 0⟩
  times := ⟨"t", "t", none⟩
  project := some ⟨"p", "p", none⟩

theorem found_iff_lower_case :
    taggedRow ∈ joined (metadata (taggedServer "team")) ∧
      Found FilterGrammar.noTimes (metadata (taggedServer "team")) taggedRow (.tag "tags.team") "vision" := by
  have hrow : taggedRow ∈ joined (metadata (taggedServer "team")) := by decide +kernel
  refine ⟨hrow, (found_iff localServer RetrySafety.devServer projectStore (tagged "team") FilterGrammar.noTimes hrow
    ?_ ?_).mpr ⟨?_, ?_⟩⟩
  · change ("tags.team", "vision") ∈ metadataOf (taggedServer "team").db taggedRow.run.id .tags
    decide +kernel
  · decide +kernel
  · decide +kernel
  · change (toAsciiLowercase "tags.team", trim "vision") ∈ metadataOf (taggedServer "team").db taggedRow.run.id .tags
    decide +kernel

theorem capital_key_lost :
    taggedRow ∈ joined (metadata (taggedServer "Team")) ∧
      HasAttribute (taggedServer "Team").db taggedRow "vision" (.tag "tags.Team") ∧
        byteLength (filterText (.tag "tags.Team") "vision") ≤ runFilterMaxLen ∧
          ¬ Found FilterGrammar.noTimes (metadata (taggedServer "Team")) taggedRow (.tag "tags.Team") "vision" := by
  have hvalue : HasAttribute (taggedServer "Team").db taggedRow "vision" (.tag "tags.Team") := by
    change ("tags.Team", "vision") ∈ metadataOf (taggedServer "Team").db taggedRow.run.id .tags
    decide +kernel
  have hlength : byteLength (filterText (.tag "tags.Team") "vision") ≤ runFilterMaxLen := by decide +kernel
  refine ⟨by decide +kernel, hvalue, hlength, ?_⟩
  rintro ⟨e, he, hmatch⟩
  have hkeyed := wellKeyed_of_stored (holds_after projectStore (tagged "Team")).db hvalue
  rw [parseRunFilterExpr_filterText _ hkeyed hlength, if_neg (by decide +kernel)] at he
  obtain rfl := Option.some.inj (Except.ok.inj he)
  have hmeets := ((mem_matching_onlyFilter _).mp hmatch).2
  have hmem : (toAsciiLowercase "tags.Team", trim "vision") ∈
      metadataOf (taggedServer "Team").db taggedRow.run.id .tags := metadataMeets_eq.mp hmeets
  revert hmem
  decide +kernel

end MLRunX.FilterSearch
