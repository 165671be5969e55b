import MLRunX.Constraints
import MLRunX.KeyServer
import MLRunX.MutatorAtomicity

namespace MLRunX.ForeignKeys

open Atomicity Auth Commands Constraints KeyServer KeyStore MutatorAtomicity Mutators Processor RunTables
  Sqlite Statements
  Tables UiTables

def hasKey (s : SqliteStore) (keyId : String) : Bool := (s.apiKeys.find (fun r => r.id == keyId)).isSome

def hasRun (s : SqliteStore) (runId : String) : Bool := (s.runTables.findRun runId).isSome

/-- The references between the tables, in the order of the schema. -/
structure Referential (s : SqliteStore) : Prop where
  aliasesProject : ∀ r ∈ s.metricAliases, hasProject s r.projectId = true
  runsProject : ∀ r ∈ s.runTables.runs.rows, hasProject s r.projectId = true
  runsKey : ∀ r ∈ s.runTables.runs.rows, r.createdByKeyId.all (hasKey s) = true
  runsUser : ∀ r ∈ s.runTables.runs.rows, r.createdByUserId.all (hasUser s) = true
  tagsRun : ∀ r ∈ s.runTables.tags.rows, hasRun s r.runId = true
  metricsRun : ∀ r ∈ s.runTables.metrics, hasRun s r.1 = true
  eventsRun : ∀ r ∈ s.runTables.events, hasRun s r.1 = true
  paramsRun : ∀ r ∈ s.runTables.params.rows, hasRun s r.runId = true
  batchesRun : ∀ r ∈ s.batches.rows, hasRun s r.runId = true
  membershipsProject : ∀ r ∈ s.ui.memberships.rows, hasProject s r.projectId = true
  membershipsUser : ∀ r ∈ s.ui.memberships.rows, hasUser s r.userId = true
  membershipsGrantor : ∀ r ∈ s.ui.memberships.rows, r.grantedByUserId.all (hasUser s) = true
  keysProject : ∀ r ∈ s.apiKeys.rows, r.projectId.all (hasProject s) = true
  keysUser : ∀ r ∈ s.apiKeys.rows, r.createdByUserId.all (hasUser s) = true
  auditKey : ∀ r ∈ s.auditEvents, r.actorKeyId.all (hasKey s) = true
  auditProject : ∀ r ∈ s.auditEvents, r.projectId.all (hasProject s) = true
  auditRun : ∀ r ∈ s.auditEvents, r.runId.all (hasRun s) = true
  sessionsUser : ∀ r ∈ s.ui.sessions.rows, hasUser s r.userId = true
  tokensRun : ∀ r ∈ s.shareTokens, hasRun s r.runId = true

theorem hasKey_iff {s : SqliteStore} {keyId : String} :
    hasKey s keyId = true ↔ ∃ r ∈ s.apiKeys.rows, r.id = keyId := by
  simp [hasKey, Table.find]

theorem hasRun_iff {s : SqliteStore} {runId : String} :
    hasRun s runId = true ↔ ∃ r ∈ s.runTables.runs.rows, r.id = runId := by
  simp [hasRun, Database.findRun, Table.find]

theorem hasProject_iff {s : SqliteStore} {projectId : String} :
    hasProject s projectId = true ↔ ∃ r ∈ s.ui.projects.rows, r.id = projectId := by
  simp [hasProject, Table.find]

variable {s : SqliteStore} {runId projectId : String}

/-- An audit event that may have lost references. -/
structure Cleared (r r' : AuditEventRow) : Prop where
  actorKeyId : r'.actorKeyId = r.actorKeyId ∨ r'.actorKeyId = none
  projectId : r'.projectId = r.projectId ∨ r'.projectId = none
  runId : r'.runId = r.runId ∨ r'.runId = none

theorem all_of_cleared {α : Type} {o o' : Option α} {p : α → Bool} (h : o' = o ∨ o' = none)
    (ho : o.all p = true) :
    o'.all p = true := by
  rcases h with rfl | rfl
  · exact ho
  · rfl

theorem Referential.clearAudit (h : Referential s) {p : AuditEventRow → Bool} {g : AuditEventRow → AuditEventRow}
    (hg : ∀ r, Cleared r (g r)) : Referential { s with auditEvents := s.auditEvents.map (setWhere p g) } := by
  have hcleared : ∀ r ∈ s.auditEvents.map (setWhere p g), ∃ r₀ ∈ s.auditEvents, Cleared r₀ r := by
    intro r hr
    obtain ⟨r₀, hr₀, rfl⟩ := List.mem_map.mp hr
    refine ⟨r₀, hr₀, ?_⟩
    unfold setWhere
    split
    · exact hg r₀
    · exact ⟨.inl rfl, .inl rfl, .inl rfl⟩
  refine { h with auditKey := ?_, auditProject := ?_, auditRun := ?_ }
  · intro r hr
    obtain ⟨r₀, hr₀, hc⟩ := hcleared r hr
    exact all_of_cleared hc.actorKeyId (h.auditKey r₀ hr₀)
  · intro r hr
    obtain ⟨r₀, hr₀, hc⟩ := hcleared r hr
    exact all_of_cleared hc.projectId (h.auditProject r₀ hr₀)
  · intro r hr
    obtain ⟨r₀, hr₀, hc⟩ := hcleared r hr
    exact all_of_cleared hc.runId (h.auditRun r₀ hr₀)

theorem Referential.clearAuditRun (h : Referential s) (runId : String) :
    Referential (Mutators.clearAuditRun runId s) :=
  h.clearAudit (fun _ => ⟨.inl rfl, .inl rfl, .inr rfl⟩)

theorem Referential.clearAuditKeys (h : Referential s) (projectId : String) :
    Referential (Mutators.clearAuditKeys projectId s) := h.clearAudit (fun _ => ⟨.inr rfl, .inl rfl, .inl rfl⟩)

theorem Referential.clearAuditProject (h : Referential s) (projectId : String) :
    Referential (Mutators.clearAuditProject projectId s) := h.clearAudit (fun _ => ⟨.inl rfl, .inr rfl, .inl rfl⟩)

theorem Referential.deleteShareTokens (h : Referential s) (runId : String) :
    Referential (Mutators.deleteShareTokens runId s) :=
  { h with tokensRun := fun r hr => h.tokensRun r (List.mem_filter.mp hr).1 }

theorem Referential.deleteMetrics (h : Referential s) (runId : String) :
    Referential (Mutators.deleteMetrics runId s) :=
  { h with metricsRun := fun r hr => h.metricsRun r (List.mem_filter.mp hr).1 }

theorem Referential.deleteEvents (h : Referential s) (runId : String) :
    Referential (Mutators.deleteEvents runId s) :=
  { h with eventsRun := fun r hr => h.eventsRun r (List.mem_filter.mp hr).1 }

theorem Referential.deleteTags (h : Referential s) (runId : String) : Referential (Mutators.deleteTags runId s) :=
  { h with tagsRun := fun r hr => h.tagsRun r (List.mem_filter.mp hr).1 }

theorem Referential.deleteParams (h : Referential s) (runId : String) :
    Referential (Mutators.deleteParams runId s) :=
  { h with paramsRun := fun r hr => h.paramsRun r (List.mem_filter.mp hr).1 }

theorem Referential.deleteBatches (h : Referential s) (runId : String) :
    Referential (Mutators.deleteBatches runId s) :=
  { h with batchesRun := fun r hr => h.batchesRun r (List.mem_filter.mp hr).1 }

theorem Referential.deleteMemberships (h : Referential s) (projectId : String) :
    Referential (Mutators.deleteMemberships projectId s) :=
  { h with
    membershipsProject := fun r hr => h.membershipsProject r (List.mem_filter.mp hr).1
    membershipsUser := fun r hr => h.membershipsUser r (List.mem_filter.mp hr).1
    membershipsGrantor := fun r hr => h.membershipsGrantor r (List.mem_filter.mp hr).1 }

theorem Referential.deleteMetricAliases (h : Referential s) (projectId : String) :
    Referential (Mutators.deleteMetricAliases projectId s) :=
  { h with aliasesProject := fun r hr => h.aliasesProject r (List.mem_filter.mp hr).1 }

structure Unreferenced (runId : String) (s : SqliteStore) : Prop where
  tags : ∀ r ∈ s.runTables.tags.rows, r.runId ≠ runId
  metrics : ∀ r ∈ s.runTables.metrics, r.1 ≠ runId
  events : ∀ r ∈ s.runTables.events, r.1 ≠ runId
  params : ∀ r ∈ s.runTables.params.rows, r.runId ≠ runId
  batches : ∀ r ∈ s.batches.rows, r.runId ≠ runId
  tokens : ∀ r ∈ s.shareTokens, r.runId ≠ runId
  audit : ∀ r ∈ s.auditEvents, r.runId ≠ some runId

theorem hasRun_deleteRunRow {id : String} (h : hasRun s id = true) (hne : id ≠ runId) :
    hasRun (deleteRunRow runId s) id = true := by
  obtain ⟨r, hr, rfl⟩ := hasRun_iff.mp h
  exact hasRun_iff.mpr ⟨r, List.mem_filter.mpr ⟨hr, by simpa using hne⟩, rfl⟩

theorem Referential.deleteRunRow (h : Referential s) (hrun : Unreferenced runId s) :
    Referential (Mutators.deleteRunRow runId s) :=
  { h with
    runsProject := fun r hr => h.runsProject r (List.mem_filter.mp hr).1
    runsKey := fun r hr => h.runsKey r (List.mem_filter.mp hr).1
    runsUser := fun r hr => h.runsUser r (List.mem_filter.mp hr).1
    tagsRun := fun r hr => hasRun_deleteRunRow (h.tagsRun r hr) (hrun.tags r hr)
    metricsRun := fun r hr => hasRun_deleteRunRow (h.metricsRun r hr) (hrun.metrics r hr)
    eventsRun := fun r hr => hasRun_deleteRunRow (h.eventsRun r hr) (hrun.events r hr)
    paramsRun := fun r hr => hasRun_deleteRunRow (h.paramsRun r hr) (hrun.params r hr)
    batchesRun := fun r hr => hasRun_deleteRunRow (h.batchesRun r hr) (hrun.batches r hr)
    tokensRun := fun r hr => hasRun_deleteRunRow (h.tokensRun r hr) (hrun.tokens r hr)
    auditRun := by
      intro r hr
      apply Option.all_eq_true _ _ |>.mpr
      intro id hid
      refine hasRun_deleteRunRow ((Option.all_eq_true _ _).mp (h.auditRun r hr) id hid) ?_
      rintro rfl
      exact hrun.audit r hr hid }

theorem Referential.deleteApiKeys (h : Referential s)
    (hruns : ∀ r ∈ s.runTables.runs.rows, ∀ k ∈ s.apiKeys.rows, r.createdByKeyId = some k.id →
      k.projectId ≠ some projectId)
    (haudit : ∀ r ∈ s.auditEvents, ∀ k ∈ s.apiKeys.rows, r.actorKeyId = some k.id →
      k.projectId ≠ some projectId) :
    Referential (Mutators.deleteApiKeys projectId s) := by
  have hkept : ∀ o : Option String, o.all (hasKey s) = true →
      (∀ k ∈ s.apiKeys.rows, o = some k.id → k.projectId ≠ some projectId) →
        o.all (hasKey (Mutators.deleteApiKeys projectId s)) = true := by
    intro o ho hother
    apply Option.all_eq_true _ _ |>.mpr
    intro id hid
    obtain ⟨k, hk, rfl⟩ := hasKey_iff.mp ((Option.all_eq_true _ _).mp ho id hid)
    exact hasKey_iff.mpr ⟨k, List.mem_filter.mpr ⟨hk, by simpa using hother k hk hid⟩, rfl⟩
  exact { h with
    keysProject := fun r hr => h.keysProject r (List.mem_filter.mp hr).1
    keysUser := fun r hr => h.keysUser r (List.mem_filter.mp hr).1
    runsKey := fun r hr => hkept _ (h.runsKey r hr) (hruns r hr)
    auditKey := fun r hr => hkept _ (h.auditKey r hr) (haudit r hr) }

structure ProjectUnreferenced (projectId : String) (s : SqliteStore) : Prop where
  aliases : ∀ r ∈ s.metricAliases, r.projectId ≠ projectId
  runs : ∀ r ∈ s.runTables.runs.rows, r.projectId ≠ projectId
  memberships : ∀ r ∈ s.ui.memberships.rows, r.projectId ≠ projectId
  keys : ∀ r ∈ s.apiKeys.rows, r.projectId ≠ some projectId
  audit : ∀ r ∈ s.auditEvents, r.projectId ≠ some projectId

theorem Referential.deleteProjectRow (h : Referential s) (hproject : ProjectUnreferenced projectId s) :
    Referential (Mutators.deleteProjectRow projectId s) := by
  have hkept : ∀ id, hasProject s id = true → id ≠ projectId →
      hasProject (Mutators.deleteProjectRow projectId s) id = true := by
    intro id hid hne
    obtain ⟨r, hr, rfl⟩ := hasProject_iff.mp hid
    exact hasProject_iff.mpr ⟨r, List.mem_filter.mpr ⟨hr, by simpa using hne⟩, rfl⟩
  have hall : ∀ o : Option String, o.all (hasProject s) = true → o ≠ some projectId →
      o.all (hasProject (Mutators.deleteProjectRow projectId s)) = true := by
    intro o ho hne
    apply Option.all_eq_true _ _ |>.mpr
    intro id hid
    refine hkept id ((Option.all_eq_true _ _).mp ho id hid) ?_
    rintro rfl
    exact hne hid
  exact { h with
    aliasesProject := fun r hr => hkept _ (h.aliasesProject r hr) (hproject.aliases r hr)
    runsProject := fun r hr => hkept _ (h.runsProject r hr) (hproject.runs r hr)
    membershipsProject := fun r hr => hkept _ (h.membershipsProject r hr) (hproject.memberships r hr)
    keysProject := fun r hr => hall _ (h.keysProject r hr) (hproject.keys r hr)
    auditProject := fun r hr => hall _ (h.auditProject r hr) (hproject.audit r hr) }

instance : DecidablePred Referential := fun s =>
  decidable_of_iff
    (((∀ r ∈ s.metricAliases, hasProject s r.projectId = true) ∧
      (∀ r ∈ s.runTables.runs.rows, hasProject s r.projectId = true) ∧
      (∀ r ∈ s.runTables.runs.rows, r.createdByKeyId.all (hasKey s) = true) ∧
      (∀ r ∈ s.runTables.runs.rows, r.createdByUserId.all (hasUser s) = true)) ∧
      ((∀ r ∈ s.runTables.tags.rows, hasRun s r.runId = true) ∧
      (∀ r ∈ s.runTables.metrics, hasRun s r.1 = true) ∧
      (∀ r ∈ s.runTables.events, hasRun s r.1 = true) ∧
      (∀ r ∈ s.runTables.params.rows, hasRun s r.runId = true) ∧
      (∀ r ∈ s.batches.rows, hasRun s r.runId = true)) ∧
      ((∀ r ∈ s.ui.memberships.rows, hasProject s r.projectId = true) ∧
      (∀ r ∈ s.ui.memberships.rows, hasUser s r.userId = true) ∧
      (∀ r ∈ s.ui.memberships.rows, r.grantedByUserId.all (hasUser s) = true)) ∧
      ((∀ r ∈ s.apiKeys.rows, r.projectId.all (hasProject s) = true) ∧
      (∀ r ∈ s.apiKeys.rows, r.createdByUserId.all (hasUser s) = true)) ∧
      ((∀ r ∈ s.auditEvents, r.actorKeyId.all (hasKey s) = true) ∧
      (∀ r ∈ s.auditEvents, r.projectId.all (hasProject s) = true) ∧
      (∀ r ∈ s.auditEvents, r.runId.all (hasRun s) = true)) ∧
      (∀ r ∈ s.ui.sessions.rows, hasUser s r.userId = true) ∧
      (∀ r ∈ s.shareTokens, hasRun s r.runId = true))
    ⟨fun ⟨⟨a, b, c, d⟩, ⟨e, f, g, h, i⟩, ⟨j, k, l⟩, ⟨m, n⟩, ⟨o, p, q⟩, r, t⟩ =>
        ⟨a, b, c, d, e, f, g, h, i, j, k, l, m, n, o, p, q, r, t⟩,
      fun h => ⟨⟨h.aliasesProject, h.runsProject, h.runsKey, h.runsUser⟩,
        ⟨h.tagsRun, h.metricsRun, h.eventsRun, h.paramsRun, h.batchesRun⟩,
        ⟨h.membershipsProject, h.membershipsUser, h.membershipsGrantor⟩, ⟨h.keysProject, h.keysUser⟩,
        ⟨h.auditKey, h.auditProject, h.auditRun⟩, h.sessionsUser, h.tokensRun⟩⟩

def refusal : String := "FOREIGN KEY constraint failed"

/-- The statements on the runs of a project, one run after the other. -/
def runWrites : (faults : Nat → Nat → Option String) → List String → List (Write SqliteStore)
  | _, [] => []
  | faults, runId :: runIds => writes id (faults 0) (runDeletes runId) ++ runWrites (fun i => faults (i + 1)) runIds

def projectWrites (faults : DeleteProjectFaults) (projectId : String) : List (Write SqliteStore) :=
  [(faults.auditKeys, clearAuditKeys projectId), (faults.auditProject, clearAuditProject projectId),
    (faults.apiKeys, deleteApiKeys projectId), (faults.memberships, deleteMemberships projectId),
    (faults.metricAliases, deleteMetricAliases projectId), (faults.project, deleteProjectRow projectId)]

def runIdsOf (projectId : String) (s : SqliteStore) : List String :=
  (s.runTables.runs.select (fun r => r.projectId == projectId)).map RunRow.id

/-- The deletion of a project with the foreign keys enforced, statement by statement. -/
def deleteProject (faults : DeleteProjectFaults) (projectId : String) : Mutation Unit :=
  transaction faults.begin faults.commit (do
    let project ← query faults.findProject (fun s => s.ui.projects.find (fun r => r.id == projectId))
    match project with
    | none => fail (.notFound s!"Project not found: '{projectId}'")
    | some _ => do
        let runIds ← query faults.listRuns (runIdsOf projectId)
        enforcedAll Referential refusal (runWrites faults.run runIds ++ projectWrites faults projectId))

/-- Outside a transaction: what is written before a refused statement stays. -/
def deleteRun (faults : Nat → Option String) (runId : String) : Mutation Unit := do
  enforcedAll Referential refusal (writes id faults (dataDeletes runId))
  let changes ← query none (fun s : SqliteStore => (s.runTables.runs.select (fun r => r.id == runId)).length)
  enforced Referential refusal (faults 7, deleteRunRow runId)
  if changes = 0 then fail (.notFound s!"Run not found: {runId}") else pure ()

/-- What the statements on some runs and on what refers to them leave of the tables. -/
structure RunsGone (gone : String → Bool) (s s' : SqliteStore) : Prop where
  runs : s'.runTables.runs.rows = s.runTables.runs.rows.filter (fun r => !gone r.id)
  metrics : s'.runTables.metrics = s.runTables.metrics.filter (fun r => !gone r.1)
  events : s'.runTables.events = s.runTables.events.filter (fun r => !gone r.1)
  tags : s'.runTables.tags.rows = s.runTables.tags.rows.filter (fun r => !gone r.runId)
  params : s'.runTables.params.rows = s.runTables.params.rows.filter (fun r => !gone r.runId)
  batches : s'.batches.rows = s.batches.rows.filter (fun r => !gone r.runId)
  tokens : s'.shareTokens = s.shareTokens.filter (fun r => !gone r.runId)
  audit : s'.auditEvents = s.auditEvents.map (setWhere (fun r => r.runId.any gone) (fun r => { r with runId := none }))
  besides : s'.ui = s.ui ∧ s'.apiKeys = s.apiKeys ∧ s'.metricAliases = s.metricAliases

theorem runsGone_nil (s : SqliteStore) : RunsGone (fun _ => false) s s := by
  have hset : setWhere (fun r : AuditEventRow => r.runId.any (fun _ => false)) (fun r => { r with runId := none }) =
      id := by
    funext r
    simp [setWhere]
  constructor
  case besides => exact ⟨rfl, rfl, rfl⟩
  case audit => rw [hset, List.map_id]
  all_goals exact (List.filter_true _).symm

theorem runsGone_runDeletes (faults : Nat → Option String) (runId : String) (s : SqliteStore) :
    RunsGone (fun id => id == runId) s (carriedOut (writes id faults (runDeletes runId)) s) := by
  have hany : (fun r : AuditEventRow => r.runId == some runId) = fun r => r.runId.any (fun id => id == runId) := by
    funext r
    cases r.runId <;> rfl
  constructor
  case besides => exact ⟨rfl, rfl, rfl⟩
  case audit => exact congrArg (fun p => s.auditEvents.map (setWhere p _)) hany
  all_goals rfl

theorem RunsGone.trans {gone gone' : String → Bool} {s₁ s' : SqliteStore} (h : RunsGone gone s s₁)
    (h' : RunsGone gone' s₁ s') : RunsGone (fun id => gone id || gone' id) s s' := by
  have hfilter : ∀ {ρ : Type} (key : ρ → String) (l : List ρ),
      (l.filter (fun r => !gone (key r))).filter (fun r => !gone' (key r)) =
        l.filter (fun r => !(gone (key r) || gone' (key r))) := by
    intro ρ key l
    rw [List.filter_filter]
    congr 1
    funext r
    rw [Bool.not_or, Bool.and_comm]
  constructor
  case besides => exact ⟨h'.besides.1.trans h.besides.1, h'.besides.2.1.trans h.besides.2.1,
    h'.besides.2.2.trans h.besides.2.2⟩
  case runs => rw [h'.runs, h.runs, hfilter]
  case metrics => rw [h'.metrics, h.metrics, hfilter]
  case events => rw [h'.events, h.events, hfilter]
  case tags => rw [h'.tags, h.tags, hfilter]
  case params => rw [h'.params, h.params, hfilter]
  case batches => rw [h'.batches, h.batches, hfilter]
  case tokens => rw [h'.tokens, h.tokens, hfilter]
  case audit =>
    rw [h'.audit, h.audit, List.map_map]
    congr 1
    funext r
    cases hrun : r.runId with
    | none => simp [setWhere, hrun]
    | some id => cases hgone : gone id <;> simp [setWhere, hrun, hgone]

theorem runsGone_runWrites (faults : Nat → Nat → Option String) (runIds : List String) (s : SqliteStore) :
    RunsGone runIds.contains s (carriedOut (runWrites faults runIds) s) := by
  induction runIds generalizing faults s with
  | nil => exact runsGone_nil s
  | cons runId runIds ih =>
      have hcontains : (runId :: runIds).contains = fun id => (id == runId) || runIds.contains id := by
        funext id
        exact List.contains_cons
      rw [runWrites, carriedOut_append, hcontains]
      exact (runsGone_runDeletes (faults 0) runId s).trans (ih _ _)

theorem passes_dataDeletes (h : Referential s) (faults : Nat → Option String) (runId : String) :
    Passes Referential (writes id faults (dataDeletes runId)) s := by
  have h₁ := h.clearAuditRun runId
  have h₂ := h₁.deleteShareTokens runId
  have h₃ := h₂.deleteMetrics runId
  have h₄ := h₃.deleteEvents runId
  have h₅ := h₄.deleteTags runId
  have h₆ := h₅.deleteParams runId
  exact ⟨h₁, h₂, h₃, h₄, h₅, h₆, h₆.deleteBatches runId, trivial⟩

theorem unreferenced_dataDeletes (faults : Nat → Option String) (runId : String) (s : SqliteStore) :
    Unreferenced runId (carriedOut (writes id faults (dataDeletes runId)) s) := by
  have hfilter : ∀ {ρ : Type} {key : ρ → String} {l : List ρ}, ∀ r ∈ l.filter (fun r => !(key r == runId)),
      key r ≠ runId := by
    intro ρ key l r hr
    simpa using (List.mem_filter.mp hr).2
  constructor
  case audit =>
    intro r hr
    obtain ⟨r₀, -, rfl⟩ := List.mem_map.mp hr
    by_cases hrun : r₀.runId = some runId
    · rw [setWhere, if_pos (beq_iff_eq.mpr hrun)]
      exact fun hnone => absurd hnone (Option.some_ne_none _).symm
    · rwa [setWhere, if_neg (fun hb => hrun (beq_iff_eq.mp hb))]
  all_goals exact hfilter

theorem writes_runDeletes (faults : Nat → Option String) (runId : String) :
    writes id faults (runDeletes runId) = writes id faults (dataDeletes runId) ++ [(faults 7, deleteRunRow runId)] :=
      rfl

theorem passes_runDeletes (h : Referential s) (faults : Nat → Option String) (runId : String) :
    Passes Referential (writes id faults (runDeletes runId)) s := by
  rw [writes_runDeletes, passes_append]
  have hdata := passes_dataDeletes h faults runId
  exact ⟨hdata, (hdata.holds h).deleteRunRow (unreferenced_dataDeletes faults runId s), trivial⟩

theorem passes_runWrites (h : Referential s) (faults : Nat → Nat → Option String) (runIds : List String) :
    Passes Referential (runWrites faults runIds) s := by
  induction runIds generalizing faults s with
  | nil => trivial
  | cons runId runIds ih =>
      have hrun := passes_runDeletes h (faults 0) runId
      rw [runWrites, passes_append]
      exact ⟨hrun, ih (hrun.holds h) _⟩

/-- Only runs of the project itself were created with its keys. -/
def KeysInside (projectId : String) (s : SqliteStore) : Prop :=
  ∀ r ∈ s.runTables.runs.rows, ∀ k ∈ s.apiKeys.rows, r.createdByKeyId = some k.id →
    k.projectId = some projectId →
    r.projectId = projectId

theorem audit_clearAuditKeys {r : AuditEventRow} (hr : r ∈ (clearAuditKeys projectId s).auditEvents)
    {k : ApiKeyRow}
    (hk : k ∈ s.apiKeys.rows) (hactor : r.actorKeyId = some k.id) : k.projectId ≠ some projectId := by
  intro hproject
  obtain ⟨r₀, -, rfl⟩ := List.mem_map.mp hr
  have howned : k.id ∈ ownedKeyIds projectId s :=
    List.mem_map.mpr ⟨k, List.mem_filter.mpr ⟨hk, beq_iff_eq.mpr hproject⟩, rfl⟩
  by_cases hany : (r₀.actorKeyId.any (fun id => (ownedKeyIds projectId s).contains id)) = true
  · rw [setWhere, if_pos hany] at hactor
    cases hactor
  · rw [setWhere, if_neg hany] at hactor
    rw [hactor] at hany
    exact hany (List.contains_iff_mem.mpr howned)

theorem audit_clearAuditProject {r : AuditEventRow} (hr : r ∈ (clearAuditProject projectId s).auditEvents) :
    r.projectId ≠ some projectId ∧ ∃ r₀ ∈ s.auditEvents, r.actorKeyId = r₀.actorKeyId := by
  obtain ⟨r₀, hr₀, rfl⟩ := List.mem_map.mp hr
  by_cases hproject : r₀.projectId = some projectId
  · rw [setWhere, if_pos (beq_iff_eq.mpr hproject)]
    exact ⟨fun hnone => absurd hnone (Option.some_ne_none _).symm, r₀, hr₀, rfl⟩
  · rw [setWhere, if_neg (fun hb => hproject (beq_iff_eq.mp hb))]
    exact ⟨hproject, r₀, hr₀, rfl⟩

theorem passes_projectWrites (h : Referential s) (hruns : ∀ r ∈ s.runTables.runs.rows, r.projectId ≠ projectId)
    (hinside : KeysInside projectId s) (faults : DeleteProjectFaults) :
    Passes Referential (projectWrites faults projectId) s := by
  have h₂ := (h.clearAuditKeys projectId).clearAuditProject projectId
  have h₃ := @Referential.deleteApiKeys _ projectId h₂
    (fun r hr k hk hcreated hscope => hruns r hr (hinside r hr k hk hcreated hscope))
    (by
      intro r hr k hk hactor
      obtain ⟨-, r₀, hr₀, hsame⟩ := audit_clearAuditProject hr
      exact audit_clearAuditKeys hr₀ hk (hsame.symm.trans hactor))
  have h₅ := (h₃.deleteMemberships projectId).deleteMetricAliases projectId
  refine ⟨h.clearAuditKeys projectId, h₂, h₃, h₃.deleteMemberships projectId, h₅,
    h₅.deleteProjectRow ?_, trivial⟩
  exact
    { aliases := fun r hr => by simpa using (List.mem_filter.mp hr).2
      runs := hruns
      memberships := fun r hr => by simpa using (List.mem_filter.mp hr).2
      keys := fun r hr => by simpa using (List.mem_filter.mp hr).2
      audit := fun r hr => (audit_clearAuditProject hr).1 }

/-- The references of an audit event that do not outlive the project. -/
def forget (projectId : String) (s : SqliteStore) (r : AuditEventRow) : AuditEventRow where
  actorKeyId := r.actorKeyId.filter (fun id => !(ownedKeyIds projectId s).contains id)
  projectId := r.projectId.filter (fun id => !(id == projectId))
  runId := r.runId.filter (fun id => !(runIdsOf projectId s).contains id)

/-- The rows of the project and of its runs are gone, and every other row is what it was, but for
the references of the audit events. -/
structure Deleted (projectId : String) (s s' : SqliteStore) : Prop where
  runs : s'.runTables.runs.rows = s.runTables.runs.rows.filter (fun r => !(r.projectId == projectId))
  metrics : s'.runTables.metrics = s.runTables.metrics.filter (fun r => !(runIdsOf projectId s).contains r.1)
  events : s'.runTables.events = s.runTables.events.filter (fun r => !(runIdsOf projectId s).contains r.1)
  tags : s'.runTables.tags.rows = s.runTables.tags.rows.filter (fun r => !(runIdsOf projectId s).contains r.runId)
  params : s'.runTables.params.rows = s.runTables.params.rows.filter (fun r => !(runIdsOf projectId s).contains r.runId)
  batches : s'.batches.rows = s.batches.rows.filter (fun r => !(runIdsOf projectId s).contains r.runId)
  tokens : s'.shareTokens = s.shareTokens.filter (fun r => !(runIdsOf projectId s).contains r.runId)
  apiKeys : s'.apiKeys.rows = s.apiKeys.rows.filter (fun r => !(r.projectId == some projectId))
  memberships : s'.ui.memberships.rows = s.ui.memberships.rows.filter (fun r => !(r.projectId == projectId))
  aliases : s'.metricAliases = s.metricAliases.filter (fun r => !(r.projectId == projectId))
  projects : s'.ui.projects.rows = s.ui.projects.rows.filter (fun r => !(r.id == projectId))
  users : s'.ui.users = s.ui.users ∧ s'.ui.sessions = s.ui.sessions
  audit : s'.auditEvents = s.auditEvents.map (forget projectId s)

theorem mem_runIdsOf {r : RunRow} (hr : r ∈ s.runTables.runs.rows) :
    (runIdsOf projectId s).contains r.id = (r.projectId == projectId) := by
  apply Bool.eq_iff_iff.mpr
  rw [List.contains_iff_mem, beq_iff_eq]
  constructor
  · intro hmem
    obtain ⟨r', hr', hid⟩ := List.mem_map.mp hmem
    obtain ⟨hr', hproject⟩ := List.mem_filter.mp hr'
    have hsame : r' = r := eq_of_mem (p := fun a => a.id == r.id) (fun a b ha hb =>
      (beq_iff_eq.mp ha).trans (beq_iff_eq.mp hb).symm) hr' hr (beq_iff_eq.mpr hid) (beq_self_eq_true _)
    rw [← hsame]
    exact beq_iff_eq.mp hproject
  · intro hproject
    exact List.mem_map.mpr ⟨r, List.mem_filter.mpr ⟨hr, beq_iff_eq.mpr hproject⟩, rfl⟩

theorem setWhere_runId (p : String → Bool) (r : AuditEventRow) :
    setWhere (fun r => r.runId.any p) (fun r => { r with runId := none }) r =
      { r with runId := r.runId.filter (fun id => !p id) } :=
  setWhere_clear AuditEventRow.runId (fun runId r => { r with runId }) (fun _ => rfl) p r

theorem setWhere_actorKeyId (p : String → Bool) (r : AuditEventRow) :
    setWhere (fun r => r.actorKeyId.any p) (fun r => { r with actorKeyId := none }) r =
      { r with actorKeyId := r.actorKeyId.filter (fun id => !p id) } :=
  setWhere_clear AuditEventRow.actorKeyId (fun actorKeyId r => { r with actorKeyId }) (fun _ => rfl) p r

theorem setWhere_projectId (r : AuditEventRow) :
    setWhere (fun r => r.projectId == some projectId) (fun r => { r with projectId := none }) r =
      { r with projectId := r.projectId.filter (fun id => !(id == projectId)) } := by
  have hany : (fun r : AuditEventRow => r.projectId == some projectId) = fun r =>
      r.projectId.any (fun id => id == projectId) := by
    funext r
    cases r.projectId <;> rfl
  rw [hany]
  exact setWhere_clear AuditEventRow.projectId (fun projectId r => { r with projectId }) (fun _ => rfl) _ r

theorem deleted_carriedOut (faults : DeleteProjectFaults) (projectId : String) (s : SqliteStore) :
    Deleted projectId s (carriedOut (runWrites faults.run (runIdsOf projectId s) ++
      projectWrites faults projectId) s) := by
  have hgone := runsGone_runWrites faults.run (runIdsOf projectId s) s
  rw [carriedOut_append]
  generalize carriedOut (runWrites faults.run (runIdsOf projectId s)) s = s₁ at hgone ⊢
  obtain ⟨hui, hkeys, haliases⟩ := hgone.besides
  change Deleted projectId s (clearProject projectId s₁)
  constructor
  case runs =>
    refine hgone.runs.trans (List.filter_congr (fun r hr => ?_))
    rw [mem_runIdsOf hr]
  case metrics => exact hgone.metrics
  case events => exact hgone.events
  case tags => exact hgone.tags
  case params => exact hgone.params
  case batches => exact hgone.batches
  case tokens => exact hgone.tokens
  case apiKeys =>
    change (s₁.apiKeys.rows.filter _) = _
    rw [hkeys]
  case memberships =>
    change (s₁.ui.memberships.rows.filter _) = _
    rw [hui]
  case aliases =>
    change (s₁.metricAliases.filter _) = _
    rw [haliases]
  case projects =>
    change (s₁.ui.projects.rows.filter _) = _
    rw [hui]
  case users =>
    change s₁.ui.users = s.ui.users ∧ s₁.ui.sessions = s.ui.sessions
    rw [hui]
    exact ⟨rfl, rfl⟩
  case audit =>
    have howned : ownedKeyIds projectId s₁ = ownedKeyIds projectId s := by rw [ownedKeyIds, ownedKeyIds, hkeys]
    change (s₁.auditEvents.map (setWhere (fun r => r.actorKeyId.any (ownedKeyIds projectId s₁).contains) _)).map
      (setWhere _ _) = _
    rw [hgone.audit, List.map_map, List.map_map, howned]
    congr 1
    funext r
    simp only [Function.comp_apply, setWhere_runId, setWhere_actorKeyId, setWhere_projectId]
    rfl

theorem granted_writes {ρ : Type} (write : ρ → SqliteStore → SqliteStore) (rows : List ρ) :
    granted (writes write (fun _ => none) rows) := by
  induction rows with
  | nil => exact fun _ hw => absurd hw List.not_mem_nil
  | cons row rows ih => exact List.forall_mem_cons.mpr ⟨rfl, ih⟩

theorem granted_runWrites (runIds : List String) : granted (runWrites (fun _ _ => none) runIds) := by
  induction runIds with
  | nil => exact fun _ hw => absurd hw List.not_mem_nil
  | cons runId runIds ih => exact granted_append.mpr ⟨granted_writes _ _, ih⟩

theorem deleteProject_ok (h : Referential s) (hinside : KeysInside projectId s)
    (hproject : hasProject s projectId = true) :
    ∃ s', deleteProject {} projectId s = (.ok (), s') ∧ Deleted projectId s s' := by
  have hgone := runsGone_runWrites (fun _ _ => none) (runIdsOf projectId s) s
  have hruns := passes_runWrites h (fun _ _ => none) (runIdsOf projectId s)
  have hnone : ∀ r ∈ (carriedOut (runWrites (fun _ _ => none) (runIdsOf projectId s)) s).runTables.runs.rows,
      r.projectId ≠ projectId := by
    intro r hr
    rw [hgone.runs] at hr
    obtain ⟨hr, hother⟩ := List.mem_filter.mp hr
    rw [mem_runIdsOf hr] at hother
    simpa using hother
  have hpasses : Passes Referential (runWrites (fun _ _ => none) (runIdsOf projectId s) ++
      projectWrites {} projectId) s := by
    apply (passes_append _ _ s).mpr
    refine ⟨hruns, passes_projectWrites (hruns.holds h) hnone ?_ {}⟩
    intro r hr k hk hcreated hscope
    rw [hgone.runs] at hr
    rw [hgone.besides.2.1] at hk
    exact hinside r (List.mem_filter.mp hr).1 k hk hcreated hscope
  have hgranted : granted (runWrites (fun _ _ => none) (runIdsOf projectId s) ++ projectWrites {} projectId) := by
    refine granted_append.mpr ⟨granted_runWrites _, ?_⟩
    simp [granted, projectWrites]
  refine ⟨_, ?_, deleted_carriedOut {} projectId s⟩
  obtain ⟨project, hfind⟩ := Option.isSome_iff_exists.mp hproject
  have hall := @enforcedAll_passes _ Referential _ refusal _ s hgranted hpasses
  simp only [deleteProject, transaction, query, bind, hfind, statement_none, hall]

theorem runs_deleteRuns (faults : Nat → Nat → Option String) (runIds : List String) :
    Runs (runWrites faults runIds) (deleteRuns faults runIds) := by
  induction runIds generalizing faults with
  | nil => exact runs_pure ()
  | cons runId runIds ih => exact runs_bind (runs_deleteRunRows runId (faults 0)) (fun _ => ih _)

theorem runs_deleteProjectRows (faults : DeleteProjectFaults) (projectId : String) :
    Runs (projectWrites faults projectId) (deleteProjectRows faults projectId) := by
  refine runs_bind (runs_execute _ _ (clearAuditKeys projectId)) (fun _ => ?_)
  refine runs_bind (runs_execute _ _ (clearAuditProject projectId)) (fun _ => ?_)
  refine runs_bind (runs_execute _ _ (deleteApiKeys projectId)) (fun _ => ?_)
  refine runs_bind (runs_execute _ _ (deleteMemberships projectId)) (fun _ => ?_)
  refine runs_bind (runs_execute _ _ (deleteMetricAliases projectId)) (fun _ => ?_)
  exact runs_execute _ _ (deleteProjectRow projectId)

theorem deleteProject_passed {faults : DeleteProjectFaults} {u : Unit} {s' : SqliteStore}
    (h : deleteProject faults projectId s = (.ok u, s')) :
    ∃ project, (faults.begin = none ∧ faults.commit = none) ∧
      query faults.findProject (fun s => s.ui.projects.find (fun r => r.id == projectId)) s =
        (.ok (some project), s) ∧
      query faults.listRuns (runIdsOf projectId) s = (.ok (runIdsOf projectId s), s) ∧
      granted (runWrites faults.run (runIdsOf projectId s) ++ projectWrites faults projectId) ∧
      s' = written (runWrites faults.run (runIdsOf projectId s) ++ projectWrites faults projectId) s := by
  obtain ⟨hbegin, hcommit, hdata⟩ := transaction_eq_ok.mp h
  obtain ⟨found, s₁, hfind, hrest⟩ := bind_eq_ok hdata
  obtain ⟨-, rfl⟩ := query_eq_ok hfind
  cases found with
  | none => cases hrest
  | some project =>
      obtain ⟨runIds, s₂, hlist, hdeletes⟩ := bind_eq_ok hrest
      obtain ⟨rfl, rfl⟩ := query_eq_ok hlist
      exact ⟨project, ⟨hbegin, hcommit⟩, hfind, hlist, enforcedAll_ok hdeletes⟩

theorem deleteProject_refines {faults : DeleteProjectFaults} {u : Unit} {s' : SqliteStore}
    (h : deleteProject faults projectId s = (.ok u, s')) :
    Mutators.deleteProject faults projectId s = (.ok (), s') := by
  obtain ⟨project, ⟨hbegin, hcommit⟩, hfind, hlist, hgranted, rfl⟩ := deleteProject_passed h
  have hruns := runs_bind (runs_deleteRuns faults.run (runIdsOf projectId s))
    (fun _ => runs_deleteProjectRows faults projectId)
  obtain ⟨u, hu⟩ := (hruns.succeeds s).mpr hgranted
  refine transaction_eq_ok.mpr ⟨hbegin, hcommit, ?_⟩
  rw [deleteProjectData, bind_ok hfind]
  exact (bind_ok hlist).trans (Prod.ext hu (hruns.state s))

end MLRunX.ForeignKeys
