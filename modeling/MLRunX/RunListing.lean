import Mathlib.Data.Rat.Cast.Order
import MLRunX.Conditions
import MLRunX.RunFilter
import MLRunX.RunInit

namespace MLRunX.RunListing

open Auth Commands Conditions Http PayloadHash RunFilter RunInit RunTables Runs Sqlite Statements Tables UiRequests
  UiTables

/-- A run with its times and its project, which is missing for a run without one. -/
structure JoinedRow where
  run : RunRow
  times : RunTimes
  project : Option ProjectRow
  deriving DecidableEq, Repr

inductive RunColumn
  | id | projectId | name | status | createdByUserId | createdAt | projectName
  deriving DecidableEq, Repr

def RunColumn.read (row : JoinedRow) : RunColumn → Option String
  | .id => some row.run.id
  | .projectId => some row.run.projectId
  | .name => row.run.name
  | .status => some row.run.status
  | .createdByUserId => row.run.createdByUserId
  | .createdAt => some row.times.createdAt
  | .projectName => row.project.map ProjectRow.name

inductive MetadataTable
  | tags | params
  deriving DecidableEq, Repr

inductive MetadataColumn
  | key | value
  deriving DecidableEq, Repr

def MetadataColumn.read (pair : String × String) : MetadataColumn → Option String
  | .key => some pair.1
  | .value => some pair.2

def metadataOf (db : Database) (runId : String) : MetadataTable → List (String × String)
  | .tags => (db.tags.select (fun t => t.runId == runId)).map (fun t => (t.key, t.value))
  | .params => (db.params.select (fun p => p.runId == runId)).map (fun p => (p.name, p.value))

/-- A test of a run, or whether a row of another table with its run id exists. -/
inductive RunAtom
  | test (test : Test RunColumn)
  | found (present : Bool) (table : MetadataTable) (condition : Condition (Test MetadataColumn))

abbrev RunCondition := Condition RunAtom

def RunAtom.truth (db : Database) (row : JoinedRow) : RunAtom → Truth
  | .test t => t.truth (RunColumn.read row)
  | .found present table condition => some
      ((metadataOf db row.run.id table).any (fun pair => condition.selects (Test.truth (MetadataColumn.read pair)))
        == present)

def compareColumn (column : RunColumn) (op : Comparison) (value : String) : RunCondition :=
  .atom (.test (.compare column op value))

def columnLike (column : RunColumn) (value : String) : RunCondition :=
  .atom (.test (.like column s!"%{value}%"))

def textColumnCondition (column : RunColumn) (value : String) : RunFilterOperator → RunCondition
  | .eq => compareColumn column .eq value
  | .notEq => compareColumn column .ne value
  | .contains => columnLike column value
  | _ => .constant false

def timeColumnCondition (value : String) : RunFilterOperator → RunCondition
  | .eq => compareColumn .createdAt .eq value
  | .notEq => compareColumn .createdAt .ne value
  | .gt => compareColumn .createdAt .gt value
  | .gte => compareColumn .createdAt .ge value
  | .lt => compareColumn .createdAt .lt value
  | .lte => compareColumn .createdAt .le value
  | .contains => columnLike .createdAt value

def isProject (value : String) : RunCondition :=
  .either (compareColumn .projectId .eq value) (compareColumn .projectName .eq value)

def projectCondition (value : String) : RunFilterOperator → RunCondition
  | .eq => isProject value
  | .notEq => .both (compareColumn .projectId .ne value)
      (.either (.atom (.test (.isNull .projectName))) (compareColumn .projectName .ne value))
  | .contains => .either (columnLike .projectId value) (columnLike .projectName value)
  | _ => .constant false

def keyCondition (key : String) : Option String → Condition (Test MetadataColumn)
  | some legacyKey => .either (.atom (.compare .key .eq key)) (.atom (.compare .key .eq legacyKey))
  | none => .atom (.compare .key .eq key)

def metadataCondition (table : MetadataTable) (key : String) (legacyKey : Option String) (value : String) :
    RunFilterOperator → RunCondition
  | .eq => .atom (.found true table (.both (keyCondition key legacyKey) (.atom (.compare .value .eq value))))
  | .notEq => .atom (.found false table (.both (keyCondition key legacyKey) (.atom (.compare .value .eq value))))
  | .contains => .atom (.found true table (.both (keyCondition key legacyKey) (.atom (.like .value s!"%{value}%"))))
  | _ => .constant false

def appendRunFilterConditionSql (c : RunFilterCondition) : RunCondition :=
  match c.target with
  | .project => projectCondition c.value c.op
  | .owner => textColumnCondition .createdByUserId c.value c.op
  | .status => textColumnCondition .status c.value c.op
  | .name => textColumnCondition .name c.value c.op
  | .runId => textColumnCondition .id c.value c.op
  | .createdAt => timeColumnCondition c.value c.op
  | .tag key legacyKey => metadataCondition .tags key legacyKey c.value c.op
  | .param key legacyKey => metadataCondition .params key legacyKey c.value c.op

def appendRunFilterExprSql : RunFilterExpr → RunCondition
  | .condition c => appendRunFilterConditionSql c
  | .and left right => .both (appendRunFilterExprSql left) (appendRunFilterExprSql right)
  | .or left right => .either (appendRunFilterExprSql left) (appendRunFilterExprSql right)

def metadataFilterSql (table : MetadataTable) (filter : MetadataFilter) : RunCondition :=
  .atom (.found true table (match filter.value with
    | some value => .both (keyCondition filter.key filter.legacyKey) (.atom (.compare .value .eq value))
    | none => keyCondition filter.key filter.legacyKey))

structure RunListArgs where
  project : Option String
  ownerUserId : Option String
  status : Option String
  query : Option String
  name : Option String
  createdAfter : Option String
  createdBefore : Option String
  tagFilters : List MetadataFilter
  paramFilters : List MetadataFilter
  filterExpr : Option RunFilterExpr
  sortField : RunListSortField
  sortOrder : RunListSortOrder
  limit : Nat
  offset : Nat

def RunListArgs.conditions (args : RunListArgs) : List RunCondition :=
  (args.project.map isProject).toList ++
    (args.ownerUserId.map (compareColumn .createdByUserId .eq)).toList ++
    (args.status.map (compareColumn .status .eq)).toList ++
    (args.query.map (fun q => .either (columnLike .name q) (columnLike .id q))).toList ++
    (args.name.map (compareColumn .name .eq)).toList ++
    (args.createdAfter.map (compareColumn .createdAt .ge)).toList ++
    (args.createdBefore.map (compareColumn .createdAt .le)).toList ++
    args.tagFilters.map (metadataFilterSql .tags) ++
    args.paramFilters.map (metadataFilterSql .params) ++
    (args.filterExpr.map appendRunFilterExprSql).toList

/-- What the request relies on: the flags of the access check, the library that
reads times, and the day number that the database gives a time. Differences of
days are taken to be exact. -/
structure ListEnv where
  flags : EndpointRbacTier → Bool
  chrono : Chrono
  julianday : String → Option ℚ

variable (env : ListEnv)

def durationSeconds (times : RunTimes) : Option ℚ := do
  let finished ← env.julianday (times.finishedAt.getD times.updatedAt)
  let created ← env.julianday times.createdAt
  pure ((finished - created) * 86400)

def compareField (field : RunListSortField) (a b : JoinedRow) : Ordering :=
  match field with
  | .createdAt => compare a.times.createdAt b.times.createdAt
  | .updatedAt => compare a.times.updatedAt b.times.updatedAt
  | .name => compare (a.run.name.getD "") (b.run.name.getD "")
  | .status => compare a.run.status b.run.status
  | .durationSeconds => compare (durationSeconds env a.times) (durationSeconds env b.times)
  | .metricsCount => compare a.run.metricsCount b.run.metricsCount
  | .paramsCount => compare a.run.paramsCount b.run.paramsCount

def directed : RunListSortOrder → Ordering → Ordering
  | .asc, o => o
  | .desc, o => o.swap

def appendRunOrderSql (field : RunListSortField) (order : RunListSortOrder) (a b : JoinedRow) : Ordering :=
  ((directed order (compareField env field a b)).then
    (if field = .createdAt then .eq else compare b.times.createdAt a.times.createdAt)).then
    (directed order (compare a.run.id b.run.id))

def joined (s : MetadataStore) : List JoinedRow :=
  s.db.runs.rows.map (fun run => ⟨run, s.times run.id, s.ui.projects.find (fun r => r.id == run.projectId)⟩)

def matching (args : RunListArgs) (s : MetadataStore) : List JoinedRow :=
  (joined s).filter (fun row => (whereClause args.conditions).selects (RunAtom.truth s.db row))

/-- No table has more rows than a signed 64-bit number counts, where the code cuts
limit and offset. -/
def page (args : RunListArgs) (s : MetadataStore) : List JoinedRow :=
  ((sortBy (appendRunOrderSql env args.sortField args.sortOrder) (matching args s)).drop args.offset).take args.limit

structure ListFaults where
  count : Option String := none
  select : Option String := none
  tags : Nat → Option String := fun _ => none

def listRuns (faults : ListFaults) (args : RunListArgs) :
    Command MetadataStore SqliteError (List JoinedRow × Nat) := do
  let total ← query faults.count (fun s => (matching args s).length)
  let runs ← query faults.select (page env args)
  pure (runs, total)

structure ListRunsQuery where
  project : Option String := none
  owner : Option String := none
  status : Option String := none
  name : Option String := none
  q : Option String := none
  tags : Option String := none
  params : Option String := none
  filter : Option String := none
  sortBy : Option String := none
  sortOrder : Option String := none
  createdAfter : Option String := none
  createdBefore : Option String := none
  limit : Option Nat := none
  offset : Option Nat := none
  deriving DecidableEq, Repr

structure RunResponse where
  runId : String
  projectId : String
  name : Option String
  status : String
  metricsCount : Nat
  paramsCount : Nat
  tags : List (String × String)
  createdAt : String
  updatedAt : String
  durationSeconds : Option ℚ
  deriving DecidableEq

structure ListRunsResponse where
  runs : List RunResponse
  total : Nat
  limit : Nat
  offset : Nat
  deriving DecidableEq

def effectiveProject (auth : AuthContext) (requested : Option String) : Answer (Option String) :=
  if auth.isPlatformAdmin then
    .ok requested
  else match auth.allowedProjectIds with
    | some allowed => match requested with
        | some project =>
            if project ∈ allowed then .ok (some project)
            else .error ⟨.forbidden, s!"Access denied: this user is not a member of project '{project}'."⟩
        | none =>
            if allowed.card = 1 then .ok (Memberships.sorted allowed).head?
            else .error ⟨.badRequest, "Multiple project memberships found. Provide ?project=<project_id>."⟩
    | none => match auth.apiKey.projectId with
        | some scope =>
            if requested.all (fun project => project == scope) then .ok (some scope)
            else .error ⟨.forbidden,
              s!"Access denied: your key is scoped to project '{scope}', cannot query '{requested.getD default}'."⟩
        | none => .ok requested

def ownerUserFilter (auth : AuthContext) (requested : Option String) : Answer (Option String) :=
  if auth.isUiJwt && !auth.isPlatformAdmin then
    match authUserId auth with
    | none => .error ⟨.forbidden, "Unable to resolve user identity for run listing."⟩
    | some userId =>
        if requested.all (fun owner => owner == userId) then .ok (some userId)
        else .error ⟨.forbidden, "Access denied: non-admin users can only query their own runs."⟩
  else
    .ok requested

def validateOwner : Option String → Answer Unit
  | some owner => validatePathId owner "owner"
  | none => .ok ()

def readQuery (auth : AuthContext) (query : ListRunsQuery) : Answer RunListArgs := do
  requireEndpointAccess auth env.flags .read none
  let tagFilters ← parseMetadataFilters query.tags "tags" "tags"
  let paramFilters ← parseMetadataFilters query.params "parameters" "params"
  let filterExpr ← parseRunFilterExpr env.chrono query.filter
  let sortField ← parseRunListSortField query.sortBy
  let sortOrder ← parseRunListSortOrder query.sortOrder
  let createdAfter ← query.createdAfter.mapM (fun raw => normalizeCreatedAtFilter env.chrono raw "created_after")
  let createdBefore ← query.createdBefore.mapM (fun raw => normalizeCreatedAtFilter env.chrono raw "created_before")
  let project ← effectiveProject auth query.project
  let ownerUserId ← ownerUserFilter auth query.owner
  validateOwner ownerUserId
  pure {
    project, ownerUserId, createdAfter, createdBefore, tagFilters, paramFilters, filterExpr, sortField, sortOrder
    status := query.status
    query := query.q
    name := query.name
    limit := min (query.limit.getD 100) 1000
    offset := query.offset.getD 0 }

def getTags (fault : Option String) (runId : String) : Command MetadataStore SqliteError (List (String × String)) :=
  query fault (fun s => metadataOf s.db runId .tags)

def runResponse (row : JoinedRow) (tags : List (String × String)) : RunResponse where
  runId := row.run.id
  projectId := row.run.projectId
  name := row.run.name
  status := row.run.status
  metricsCount := row.run.metricsCount.toNat
  paramsCount := row.run.paramsCount.toNat
  tags := tags
  createdAt := row.times.createdAt
  updatedAt := row.times.updatedAt
  durationSeconds := durationSeconds env row.times

def runResponses : (faults : Nat → Option String) → List JoinedRow → RunInit.Handler (List RunResponse)
  | _, [] => pure []
  | faults, row :: rows => do
      let tags ← attempt (getTags (faults 0) row.run.id)
      let responses ← runResponses (fun i => faults (i + 1)) rows
      pure (runResponse env row (tags.getD []) :: responses)

def httpListRuns (auth : AuthContext) (query : ListRunsQuery) (faults : ListFaults) :
    RunInit.Handler ListRunsResponse := do
  let args ← ofExcept (readQuery env auth query)
  let (rows, total) ← RunInit.internal (listRuns env faults args)
  let runs ← runResponses env faults.tags rows
  pure ⟨runs, total, args.limit, args.offset⟩

section Selection

variable {env} {args : RunListArgs} {s : MetadataStore}

theorem selects_compareColumn {db : Database} {row : JoinedRow} {column : RunColumn} {value : String} :
    (compareColumn column .eq value).selects (RunAtom.truth db row) = true ↔ column.read row = some value := by
  rw [compareColumn, selects_atom]
  exact truth_compare_eq

theorem mem_joined {row : JoinedRow} (h : row ∈ joined s) :
    row.run ∈ s.db.runs.rows ∧ row.project = s.ui.projects.find (fun r => r.id == row.run.projectId) := by
  obtain ⟨run, hrun, rfl⟩ := List.mem_map.mp h
  exact ⟨hrun, rfl⟩

theorem mem_matching {row : JoinedRow} :
    row ∈ matching args s ↔
      row ∈ joined s ∧ ∀ c ∈ args.conditions, c.selects (RunAtom.truth s.db row) = true := by
  rw [matching, List.mem_filter, selects_whereClause]

theorem mem_page {row : JoinedRow} (h : row ∈ page env args s) : row ∈ matching args s := by
  have hsorted := List.mem_of_mem_drop (List.mem_of_mem_take h)
  exact (List.perm_insertionSort _ _).mem_iff.mp hsorted

theorem exists_page (env : ListEnv) {row : JoinedRow} (h : row ∈ matching args s) (hlimit : 0 < args.limit) :
    ∃ offset, row ∈ page env { args with offset } s := by
  have hsorted : row ∈ sortBy (appendRunOrderSql env args.sortField args.sortOrder) (matching args s) :=
    (List.perm_insertionSort _ _).mem_iff.mpr h
  obtain ⟨offset, hoffset, hrow⟩ := List.mem_iff_getElem.mp hsorted
  refine ⟨offset, ?_⟩
  obtain ⟨n, hn⟩ := Nat.exists_eq_add_of_lt hlimit
  change row ∈ ((sortBy (appendRunOrderSql env args.sortField args.sortOrder) (matching args s)).drop offset).take
    args.limit
  rw [List.drop_eq_getElem_cons hoffset, hrow, hn, Nat.zero_add]
  exact List.mem_cons_self

theorem listRuns_ok {faults : ListFaults} {rows : List JoinedRow} {total : Nat} {s' : MetadataStore}
    (h : listRuns env faults args s = (.ok (rows, total), s')) : rows = page env args s ∧ s' = s := by
  obtain ⟨_, s₁, hcount, h⟩ := bind_eq_ok h
  obtain ⟨_, s₂, hselect, h⟩ := bind_eq_ok h
  obtain ⟨-, rfl⟩ := query_eq_ok hcount
  obtain ⟨rfl, rfl⟩ := query_eq_ok hselect
  obtain ⟨hrows, rfl⟩ := pure_eq_ok h
  exact ⟨(Prod.mk.inj hrows).1, rfl⟩

theorem runResponses_ok (env : ListEnv) (faults : Nat → Option String) (rows : List JoinedRow)
    (s : MetadataStore) :
    ∃ responses, runResponses env faults rows s = (.ok responses, s) ∧
      responses.map RunResponse.projectId = rows.map (fun row => row.run.projectId) := by
  induction rows generalizing faults with
  | nil => exact ⟨[], rfl, rfl⟩
  | cons row rows ih =>
      obtain ⟨responses, hrest, hids⟩ := ih (fun i => faults (i + 1))
      have htags : (attempt (getTags (faults 0) row.run.id) : RunInit.Handler _) s =
          (.ok (getTags (faults 0) row.run.id s).1.toOption, s) := rfl
      refine ⟨_, (bind_ok htags).trans ((bind_ok hrest).trans rfl), ?_⟩
      rw [List.map_cons, List.map_cons, hids]
      rfl

theorem exists_row_of_response {faults : Nat → Option String} {rows : List JoinedRow}
    {responses : List RunResponse}
    {s' : MetadataStore} (h : runResponses env faults rows s = (.ok responses, s')) {response : RunResponse}
    (hmem : response ∈ responses) : ∃ row ∈ rows, row.run.projectId = response.projectId := by
  obtain ⟨responses', h', hids⟩ := runResponses_ok env faults rows s
  obtain rfl := Except.ok.inj (Prod.mk.inj (h'.symm.trans h)).1
  exact List.mem_map.mp (hids ▸ List.mem_map_of_mem hmem)

theorem projectCondition_mem {projectId : String} (h : args.project = some projectId) :
    isProject projectId ∈ args.conditions := by
  simp [RunListArgs.conditions, h]

theorem ownerCondition_mem {userId : String} (h : args.ownerUserId = some userId) :
    compareColumn .createdByUserId .eq userId ∈ args.conditions := by
  simp [RunListArgs.conditions, h]

end Selection

section Scope

/-- A caller confined to a project: a key of the project, or a user who is a
member of it and no admin. -/
structure ConfinedTo (auth : AuthContext) (projectId : String) : Prop where
  notAdmin : auth.isPlatformAdmin = false
  scope : (auth.allowedProjectIds = none ∧ auth.apiKey.projectId = some projectId) ∨
    ∃ allowed, auth.allowedProjectIds = some allowed ∧ projectId ∈ allowed

/-- A user of several projects asks for one of them. -/
def AsksFor (auth : AuthContext) (projectId : String) (query : ListRunsQuery) : Prop :=
  auth.allowedProjectIds = none ∨ auth.allowedProjectIds = some {projectId} ∨ query.project = some projectId

/-- The listing shows a confined caller runs of the own project only. -/
def ListsOnly (auth : AuthContext) (projectId : String) (s : MetadataStore) : Prop :=
  ∀ query faults response s', AsksFor auth projectId query →
    httpListRuns env auth query faults s = (.ok response, s') → ∀ run ∈ response.runs, run.projectId = projectId

/-- The listing is open to the caller, and the run is the user's own if the
caller is a user. -/
structure MaySee (auth : AuthContext) (run : RunRow) : Prop where
  access : requireEndpointAccess auth env.flags .read none = .ok ()
  owner : ∃ owner, ownerUserFilter auth none = .ok owner ∧ validateOwner owner = .ok () ∧
    ∀ userId ∈ owner, run.createdByUserId = some userId

variable {env} {auth : AuthContext} {projectId : String}

theorem effectiveProject_some (hconf : ConfinedTo auth projectId) :
    effectiveProject auth (some projectId) = .ok (some projectId) := by
  rcases hconf.scope with ⟨hnone, hkey⟩ | ⟨allowed, hallowed, hmem⟩
  · simp [effectiveProject, hconf.notAdmin, hnone, hkey]
  · simp [effectiveProject, hconf.notAdmin, hallowed, hmem]

theorem effectiveProject_of_asksFor (hconf : ConfinedTo auth projectId) {query : ListRunsQuery}
    (hask : AsksFor auth projectId query) {project : Option String}
    (h : effectiveProject auth query.project = .ok project) : project = some projectId := by
  rcases hask with hnone | hall | hproject
  · rcases hconf.scope with ⟨_, hkey⟩ | ⟨allowed, hallowed, _⟩
    · simp only [effectiveProject, hconf.notAdmin, Bool.false_eq_true, if_false, hnone, hkey] at h
      split at h
      · exact (Except.ok.inj h).symm
      · cases h
    · rw [hallowed] at hnone
      cases hnone
  · simp only [effectiveProject, hconf.notAdmin, Bool.false_eq_true, if_false, hall, Finset.mem_singleton,
      Finset.card_singleton, if_true, Memberships.sorted, Finset.sort_singleton, List.head?_cons] at h
    cases hp : query.project with
    | none =>
        rw [hp] at h
        exact (Except.ok.inj h).symm
    | some requested =>
        rw [hp] at h
        by_cases hr : requested = projectId
        · rw [hr] at h
          simpa using h.symm
        · simp [hr] at h
  · rw [hproject, effectiveProject_some hconf] at h
    exact (Except.ok.inj h).symm

theorem readQuery_ok {query : ListRunsQuery} {args : RunListArgs} (h : readQuery env auth query = .ok args) :
    requireEndpointAccess auth env.flags .read none = .ok () ∧
      effectiveProject auth query.project = .ok args.project ∧
        ownerUserFilter auth query.owner = .ok args.ownerUserId ∧ validateOwner args.ownerUserId = .ok () := by
  obtain ⟨_, haccess, h⟩ := Fallible.bind_eq_ok.mp h
  obtain ⟨_, _, h⟩ := Fallible.bind_eq_ok.mp h
  obtain ⟨_, _, h⟩ := Fallible.bind_eq_ok.mp h
  obtain ⟨_, _, h⟩ := Fallible.bind_eq_ok.mp h
  obtain ⟨_, _, h⟩ := Fallible.bind_eq_ok.mp h
  obtain ⟨_, _, h⟩ := Fallible.bind_eq_ok.mp h
  obtain ⟨_, _, h⟩ := Fallible.bind_eq_ok.mp h
  obtain ⟨_, _, h⟩ := Fallible.bind_eq_ok.mp h
  obtain ⟨_, hproject, h⟩ := Fallible.bind_eq_ok.mp h
  obtain ⟨_, howner, h⟩ := Fallible.bind_eq_ok.mp h
  obtain ⟨_, hvalid, h⟩ := Fallible.bind_eq_ok.mp h
  obtain rfl := Except.ok.inj h
  exact ⟨haccess, hproject, howner, hvalid⟩

/-- The arguments of a request that names a project and nothing else. -/
def plainArgs (projectId : String) (ownerUserId : Option String) (offset : Nat) : RunListArgs :=
  ⟨some projectId, ownerUserId, none, none, none, none, none, [], [], none, .createdAt, .desc, 100, offset⟩

theorem readQuery_plain (hconf : ConfinedTo auth projectId)
    (haccess : requireEndpointAccess auth env.flags .read none = .ok ()) {owner : Option String}
    (howner : ownerUserFilter auth none = .ok owner) (hvalid : validateOwner owner = .ok ()) (offset : Nat) :
    readQuery env auth { project := some projectId, offset := some offset } =
      .ok (plainArgs projectId owner offset) := by
  simp only [readQuery, haccess, effectiveProject_some hconf, howner]
  change (validateOwner owner >>= fun _ => Except.ok (plainArgs projectId owner offset)) = _
  rw [hvalid]
  rfl

theorem ownerUserFilter_none {requested owner : Option String} (h : ownerUserFilter auth requested = .ok owner)
    (hvalid : validateOwner owner = .ok ()) :
    ∃ own, ownerUserFilter auth none = .ok own ∧ validateOwner own = .ok () ∧
      ∀ userId ∈ own, owner = some userId := by
  simp only [ownerUserFilter] at h ⊢
  by_cases hui : (auth.isUiJwt && !auth.isPlatformAdmin) = true
  · rw [if_pos hui] at h ⊢
    cases huser : authUserId auth with
    | none =>
        rw [huser] at h
        cases h
    | some userId =>
        simp only [huser] at h
        refine ⟨some userId, rfl, ?_⟩
        split at h
        · obtain rfl := Except.ok.inj h
          exact ⟨hvalid, fun _ hu => hu⟩
        · cases h
  · rw [if_neg hui]
    exact ⟨none, rfl, rfl, fun _ hu => nomatch hu⟩

theorem mem_plainMatching {owner : Option String} {offset : Nat} {s : MetadataStore} {row : JoinedRow} :
    row ∈ matching (plainArgs projectId owner offset) s ↔
      row ∈ joined s ∧ (row.run.projectId = projectId ∨ row.project.map ProjectRow.name = some projectId) ∧
        ∀ userId ∈ owner, row.run.createdByUserId = some userId := by
  rw [mem_matching]
  refine and_congr_right (fun _ => ?_)
  have hproject : (isProject projectId).selects (RunAtom.truth s.db row) = true ↔
      row.run.projectId = projectId ∨ row.project.map ProjectRow.name = some projectId := by
    rw [isProject, selects_either, selects_compareColumn, selects_compareColumn]
    exact or_congr_left Option.some_inj
  cases owner with
  | none => simp [plainArgs, RunListArgs.conditions, hproject]
  | some userId =>
      simp [plainArgs, RunListArgs.conditions, hproject, selects_compareColumn, RunColumn.read]

/-- A run is listed to a confined caller exactly when the caller may see it and
its project has the caller's project for its id or for its name. -/
theorem listsOnly_iff (hconf : ConfinedTo auth projectId) (s : MetadataStore) :
    ListsOnly env auth projectId s ↔
      ∀ run ∈ s.db.runs.rows, MaySee env auth run →
        ∀ project ∈ s.ui.projects.rows, project.id = run.projectId → project.name = projectId →
          run.projectId = projectId := by
  constructor
  · intro hlists run hrun hsee project hproject hid hname
    obtain ⟨owner, howner, hvalid, hown⟩ := hsee.owner
    have hfind : s.ui.projects.find (fun r => r.id == run.projectId) = some project := by
      refine (find_eq_some_iff _ (fun a b ha hb => ?_)).mpr ⟨hproject, beq_iff_eq.mpr hid⟩
      exact Or.inl ((beq_iff_eq.mp ha).trans (beq_iff_eq.mp hb).symm)
    have hmatch : ⟨run, s.times run.id, some project⟩ ∈ matching (plainArgs projectId owner 0) s := by
      rw [mem_plainMatching, ← hfind]
      refine ⟨List.mem_map_of_mem hrun, .inr ?_, hown⟩
      rw [hfind, Option.map_some, hname]
    obtain ⟨offset, hpage⟩ := exists_page env hmatch (Nat.succ_pos 99)
    obtain ⟨responses, hresponses, hids⟩ := runResponses_ok env (fun _ => none)
      (page env (plainArgs projectId owner offset) s) s
    have hanswer : httpListRuns env auth { project := some projectId, offset := some offset } {} s =
        (.ok ⟨responses, (matching (plainArgs projectId owner offset) s).length, 100, offset⟩, s) :=
      (bind_ok (ofExcept_ok (readQuery_plain hconf hsee.access howner hvalid offset) s)).trans
        ((bind_ok rfl).trans (bind_ok hresponses))
    have hmem : run.projectId ∈ responses.map RunResponse.projectId := by
      rw [hids]
      exact List.mem_map_of_mem (f := fun row => row.run.projectId) hpage
    obtain ⟨response, hresponse, heq⟩ := List.mem_map.mp hmem
    rw [← heq]
    exact hlists _ _ _ _ (.inr (.inr rfl)) hanswer response hresponse
  · intro hnames query faults response s' hask h run hrun
    obtain ⟨args, s₁, hargs, h⟩ := bind_eq_ok h
    obtain ⟨⟨rows, total⟩, s₂, hlist, h⟩ := bind_eq_ok h
    obtain ⟨responses, s₃, hresponses, h⟩ := bind_eq_ok h
    obtain ⟨rfl, rfl⟩ := pure_eq_ok h
    obtain ⟨hread, rfl⟩ := Prod.mk.inj hargs
    obtain ⟨rfl, rfl⟩ := listRuns_ok (mapError_eq_ok hlist)
    obtain ⟨haccess, hproject, howner, hvalid⟩ := readQuery_ok hread
    obtain ⟨own, hown, hownvalid, hsame⟩ := ownerUserFilter_none howner hvalid
    obtain ⟨row, hrow, hid⟩ := exists_row_of_response hresponses hrun
    obtain ⟨hjoined, hselected⟩ := mem_matching.mp (mem_page hrow)
    obtain ⟨hstored, hrowproject⟩ := mem_joined hjoined
    have hsee : MaySee env auth row.run := by
      refine ⟨haccess, own, hown, hownvalid, fun userId hu => ?_⟩
      exact selects_compareColumn.mp (hselected _ (ownerCondition_mem (hsame userId hu)))
    rw [← hid]
    have hmine := hselected _ (projectCondition_mem (effectiveProject_of_asksFor hconf hask hproject))
    rw [isProject, selects_either, selects_compareColumn, selects_compareColumn] at hmine
    rcases hmine with hmine | hnamed
    · exact Option.some.inj hmine
    · obtain ⟨project, hproject, hname⟩ := Option.map_eq_some_iff.mp hnamed
      obtain ⟨hprojectstored, hprojectid⟩ := find_some (hrowproject.symm.trans hproject)
      exact hnames _ hstored hsee _ hprojectstored (beq_iff_eq.mp hprojectid) hname

end Scope

/-- The requests that create projects and runs. -/
inductive BuildOp
  | createProject (auth : AuthContext) (name : String) (description : Option String) (env : UiTables.Env)
  | initRun (auth : AuthContext) (req : InitRunHttpRequest) (env : InitEnv)

def build (setup : UiAuth.Setup) (maxTagValueLen : Nat) : Machine MetadataStore BuildOp Bool
  | s, .createProject auth name description env =>
      let r := onUi (httpCreateProject setup env auth name description) s
      (r.1.isOk, r.2)
  | s, .initRun auth req env =>
      let r := httpInitRun setup.uiJwt.rbac maxTagValueLen auth env req s
      (r.1.isOk, r.2)

def localServer : UiAuth.Setup where
  authDisabled := true
  uiJwt := ⟨false, none, none, .hs256, false, "personal", none, none, "oidc", 3600, none, fun _ => true⟩
  hashing := KeyStore.plainHashing
  jwt := ⟨fun _ => .ok (), fun _ => .ok (), fun _ _ _ _ _ _ => .error "InvalidToken"⟩

def listEnv : ListEnv := ⟨fun _ => true, ⟨fun _ => none, fun _ => none⟩, fun _ => none⟩

def research : String := "0190a6f0-0001-7000-8000-000000000001"

def readKey : ApiKey := ⟨"k", "h", "mlrx", some research, none, none, ["read"], 0, none, none, none⟩

def secondId : String := "0190a6f0-0002-7000-8000-000000000002"

/-- A project, a second one named by the id of the first, and a run in the project given. -/
def twoProjects (projectId : String) : List BuildOp :=
  [.createProject (.devMode 0) "research" none { now := 0, projectId := research },
    .createProject (.devMode 0) research none { now := 0, projectId := secondId },
    .initRun (.devMode 0) ⟨none, some projectId, none, some "run", [], []⟩
      { generatedId := "0190a6f0-0003-7000-8000-000000000003", now := "2026-01-01 00:00:00" }]

theorem listsOnly_iff_own_run :
    ConfinedTo (.ofApiKey readKey) research ∧
      ListsOnly listEnv (.ofApiKey readKey) research (after (build localServer 256) .empty (twoProjects research)) := by
  have hconf : ConfinedTo (.ofApiKey readKey) research := ⟨rfl, .inl ⟨rfl, rfl⟩⟩
  refine ⟨hconf, (listsOnly_iff hconf _).mpr ?_⟩
  intro run hrun _ _ _ _ _
  have hids : (after (build localServer 256) .empty (twoProjects research)).db.runs.rows.map RunRow.projectId =
      [research] := by
    decide +kernel
  exact List.mem_singleton.mp (hids ▸ List.mem_map_of_mem hrun)

theorem impostor_run_listed :
    ConfinedTo (.ofApiKey readKey) research ∧
      ¬ ListsOnly listEnv (.ofApiKey readKey) research
        (after (build localServer 256) .empty (twoProjects secondId)) := by
  refine ⟨⟨rfl, .inl ⟨rfl, rfl⟩⟩, fun h => ?_⟩
  have hlisted : ((httpListRuns listEnv (.ofApiKey readKey) {} {}
      (after (build localServer 256) .empty (twoProjects secondId))).1.toOption.map
        (fun response => response.runs.map RunResponse.projectId)) = some [secondId] := by
    decide +kernel
  generalize hr : httpListRuns listEnv (.ofApiKey readKey) {} {}
    (after (build localServer 256) .empty (twoProjects secondId)) = r at hlisted
  rcases r with ⟨e | response, s'⟩
  · cases hlisted
  · have hids : response.runs.map RunResponse.projectId = [secondId] := Option.some.inj hlisted
    have hmem : secondId ∈ response.runs.map RunResponse.projectId := by
      rw [hids]
      exact List.mem_cons_self
    obtain ⟨run, hrun, hid⟩ := List.mem_map.mp hmem
    have hown := h {} {} response s' (.inl rfl) hr run hrun
    rw [hid] at hown
    exact absurd hown (by decide)

end MLRunX.RunListing
