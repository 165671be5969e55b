import MLRunX.Mutators

namespace MLRunX.MutatorAtomicity

open Atomicity Commands Memberships Mutators Sqlite Statements Tables
open Ingest (Contents PersistFaults)
open RunTables (MetricRow RunEventInput)

/-- A call of a mutator, with the statements that the database refuses. -/
inductive Mutator
  | setTags (faults : Nat → Option String) (runId : String) (tags : List (String × String))
  | insertMetrics (faults : Nat → Option String) (runId : String) (metrics : List MetricRow)
  | insertParams (faults : Nat → Option String) (runId : String) (params : List (String × String))
  | insertRunEvents (faults : Nat → Option String) (runId : String) (events : List RunEventInput)
  | grantProjectMembership (env : UiTables.Env) (projectId userId : String) (role : Role)
      (grantedByUserId : Option String)
  | deleteRun (faults : Nat → Option String) (runId : String)
  | deleteProject (faults : DeleteProjectFaults) (projectId : String)
  | persistIngestBatchToSqlite (faults : PersistFaults) (runId : String) (contents : Contents)

def Mutator.AllOrNothing (s : SqliteStore) : Mutator → Prop
  | .setTags faults runId tags => Atomicity.AllOrNothing (Mutators.setTags runId faults tags) s
  | .insertMetrics faults runId metrics => Atomicity.AllOrNothing (Mutators.insertMetrics runId faults metrics) s
  | .insertParams faults runId params => Atomicity.AllOrNothing (Mutators.insertParams runId faults params) s
  | .insertRunEvents faults runId events => Atomicity.AllOrNothing (Mutators.insertRunEvents runId faults events) s
  | .grantProjectMembership env projectId userId role grantedByUserId =>
      Atomicity.AllOrNothing (Mutators.grantProjectMembership env projectId userId role grantedByUserId) s
  | .deleteRun faults runId => Atomicity.AllOrNothing (Mutators.deleteRun runId faults) s
  | .deleteProject faults projectId => Atomicity.AllOrNothing (Mutators.deleteProject faults projectId) s
  | .persistIngestBatchToSqlite faults runId contents =>
      Atomicity.AllOrNothing (Mutators.persistIngestBatchToSqlite faults runId contents) s

/-- The statements of an insertion that ends with one for the run. -/
def closed (faults : Nat → Option String) (count : Nat) : List (Option String) :=
  if count = 0 then [] else (List.range (count + 1)).map faults

/-- The statements of the composite in their order, but for those of its warnings. -/
def persistStatements (faults : PersistFaults) (contents : Contents) : List (Option String) :=
  (if contents.metrics = [] then [] else
    (List.range contents.metrics.length).map faults.metrics ++ [faults.metricsCount]) ++
  ((List.range contents.tags.length).map faults.tags ++
    (closed faults.params contents.params.length ++ closed faults.events contents.events.length))

/-- How many rows of a run each statement of its deletion finds. -/
def rowsOfRun (s : SqliteStore) (runId : String) : List Nat :=
  [s.auditEvents.countP (fun r => r.runId == some runId),
    s.shareTokens.countP (fun r => r.runId == runId),
    s.runTables.metrics.countP (fun m => m.1 == runId),
    s.runTables.events.countP (fun e => e.1 == runId),
    s.runTables.tags.rows.countP (fun t => t.runId == runId),
    s.runTables.params.rows.countP (fun p => p.runId == runId),
    s.batches.rows.countP (fun b => b.runId == runId),
    s.runTables.runs.rows.countP (fun r => r.id == runId)]

def isActiveMember (s : SqliteStore) (projectId userId : String) : Bool :=
  s.ui.memberships.rows.any (fun r => r.projectId == projectId && r.userId == userId && r.revokedAt.isNone)

/-- The calls that keep to all or nothing: a loop of insertions fails at its
first statement or not at all, a grant does not fail behind a revocation, and
the deletion of a run succeeds or has found no row yet. -/
def Mutator.Spared (s : SqliteStore) : Mutator → Prop
  | .setTags faults _ tags => FirstOrNone ((List.range tags.length).map faults)
  | .insertMetrics faults _ metrics => FirstOrNone ((List.range metrics.length).map faults)
  | .insertParams faults _ params => FirstOrNone (closed faults params.length)
  | .insertRunEvents faults _ events => FirstOrNone (closed faults events.length)
  | .grantProjectMembership env projectId userId _ _ =>
      env.faults.revokeMembership ≠ none ∨ isActiveMember s projectId userId = false ∨
        (env.faults.insertMembership = none ∧ ∀ r ∈ s.ui.memberships.rows, r.id ≠ env.membershipId)
  | .deleteRun faults runId =>
      ((∃ run ∈ s.runTables.runs.rows, run.id = runId) ∧ ∀ i < 8, faults i = none) ∨
        ∀ j n, (rowsOfRun s runId)[j]? = some n → (∀ i ≤ j, faults i = none) → n = 0
  | .deleteProject _ _ => True
  | .persistIngestBatchToSqlite faults _ contents => FirstOrNone (persistStatements faults contents)

def idsGiven (s : SqliteStore) : Nat := s.sequences.tags + s.sequences.metrics + s.sequences.params + s.sequences.events

section Insertions

variable (runId : String) (faults : Nat → Option String)

theorem idsGiven_setTag (tag : String × String) (s : SqliteStore) :
    idsGiven s < idsGiven (setTag runId tag s) := by
  simp only [idsGiven, setTag]
  omega

theorem idsGiven_addMetric (metric : MetricRow) (s : SqliteStore) :
    idsGiven s < idsGiven (addMetric runId metric s) := by
  simp only [idsGiven, addMetric]
  omega

theorem idsGiven_setParam (param : String × String) (s : SqliteStore) :
    idsGiven s < idsGiven (setParam runId param s) := by
  simp only [idsGiven, setParam]
  omega

theorem idsGiven_addEvent (event : RunEventInput) (s : SqliteStore) :
    idsGiven s < idsGiven (addEvent runId event s) := by
  simp only [idsGiven, addEvent]
  omega

theorem runs_insertMetrics (metrics : List MetricRow) :
    Runs (writes (addMetric runId) faults metrics) (insertMetrics runId faults metrics) :=
  runs_bind_pure _ (runs_executeEach (addMetric runId) faults metrics)

def paramWrites (params : List (String × String)) : List (Write SqliteStore) :=
  writes (setParam runId) faults params ++ [(faults params.length, countParams runId)]

theorem runs_insertParams (params : List (String × String)) :
    Runs (paramWrites runId faults params) (insertParams runId faults params) := by
  refine runs_bind (runs_executeEach (setParam runId) faults params) (fun _ => ?_)
  exact runs_bind_pure _ (runs_execute _ _ (countParams runId))

def eventWrites (events : List RunEventInput) : List (Write SqliteStore) :=
  writes (addEvent runId) faults events ++ if 0 < events.length then [(faults events.length, id)] else []

theorem runs_insertRunEvents (events : List RunEventInput) :
    Runs (eventWrites runId faults events) (insertRunEvents runId faults events) := by
  refine runs_bind (runs_executeEach (addEvent runId) faults events) (fun _ => ?_)
  have hstamp : Runs (if 0 < events.length then [(faults events.length, id)] else [])
      (stampRun (faults events.length) events.length) := by
    rw [stampRun]
    split
    · exact runs_execute _ _ id
    · exact runs_pure ()
  exact runs_bind_pure _ hstamp

theorem inserts_paramWrites {params : List (String × String)} (hne : params ≠ []) :
    Inserts idsGiven (paramWrites runId faults params) := by
  apply inserts_append_mono (inserts_writes (idsGiven_setParam runId) faults params)
  · exact fun h => hne (writes_eq_nil.mp h)
  · intro w hw s
    rw [List.mem_singleton.mp hw]
    exact Nat.le_refl _

theorem inserts_eventWrites (events : List RunEventInput) :
    Inserts idsGiven (eventWrites runId faults events) := by
  rw [eventWrites]
  split
  · rename_i hpos
    apply inserts_append_mono (inserts_writes (idsGiven_addEvent runId) faults events)
    · exact fun h => List.length_pos_iff.mp hpos (writes_eq_nil.mp h)
    · intro w hw s
      rw [List.mem_singleton.mp hw]
      exact Nat.le_refl _
  · rw [List.append_nil]
    exact inserts_writes (idsGiven_addEvent runId) faults events

theorem paramWrites_faults {params : List (String × String)} (hne : params ≠ []) :
    (paramWrites runId faults params).map Prod.fst = closed faults params.length := by
  rw [closed, if_neg (fun h => hne (List.length_eq_zero_iff.mp h)), paramWrites, List.map_append, writes_faults,
    List.range_succ, List.map_append]
  rfl

theorem eventWrites_faults (events : List RunEventInput) :
    (eventWrites runId faults events).map Prod.fst = closed faults events.length := by
  rw [closed, eventWrites, List.map_append, writes_faults]
  by_cases hzero : events.length = 0
  · rw [if_pos hzero, if_neg (by omega), hzero]
    rfl
  · rw [if_neg hzero, if_pos (by omega), List.range_succ, List.map_append]
    rfl

end Insertions

section Persist

variable (faults : PersistFaults) (runId : String) (contents : Contents)

def metricWrites (metrics : List MetricRow) : List (Write SqliteStore) :=
  if metrics = [] then [] else
    writes (addMetric runId) faults.metrics metrics ++
      [(faults.metricsCount, countMetrics runId (Ingest.saturate (2 ^ 63 - 1) metrics.length))]

def persistWrites : List (Write SqliteStore) :=
  metricWrites faults runId contents.metrics ++ (writes (setTag runId) faults.tags contents.tags ++
    ((if contents.params = [] then [] else paramWrites runId faults.params contents.params) ++
      eventWrites runId faults.events contents.events))

def persistRequired : Command SqliteStore Http.HttpError Nat := do
  persistMetrics faults runId contents.metrics
  persistTags faults runId contents.tags
  persistParams faults runId contents.params
  persistEvents faults runId contents.events

theorem persist_eq : persistIngestBatchToSqlite faults runId contents =
    persistRequired faults runId contents >>= fun acceptedEventCount =>
      persistWarnings faults runId contents.warnings >>= fun warningCount =>
        pure ⟨contents.metrics.length, contents.tags.length, acceptedEventCount + warningCount⟩ := by
  simp only [persistIngestBatchToSqlite, persistRequired, bind_assoc]

theorem runs_persistMetrics (metrics : List MetricRow) :
    Runs (metricWrites faults runId metrics) (persistMetrics faults runId metrics) := by
  simp only [metricWrites, persistMetrics]
  split
  · exact runs_pure ()
  · exact runs_bind (runs_mapError (runs_insertMetrics runId faults.metrics metrics))
      (fun _ => runs_mapError (runs_execute _ _ _))

theorem runs_persistTags (tags : List (String × String)) :
    Runs (writes (setTag runId) faults.tags tags) (persistTags faults runId tags) := by
  simp only [persistTags]
  split
  · rename_i hnil
    rw [hnil]
    exact runs_pure ()
  · exact runs_mapError (runs_executeEach (setTag runId) faults.tags tags)

theorem runs_persistParams (params : List (String × String)) :
    Runs (if params = [] then [] else paramWrites runId faults.params params) (persistParams faults runId params) := by
  simp only [persistParams]
  split
  · exact runs_pure ()
  · have h := runs_bind (runs_mapError (f := Ingest.persistFailed "persist params to")
      (runs_insertParams runId faults.params params)) (fun _ => runs_pure ())
    rwa [List.append_nil] at h

theorem runs_persistEvents (events : List RunEventInput) :
    Runs (eventWrites runId faults.events events) (persistEvents faults runId events) := by
  simp only [persistEvents]
  split
  · rename_i hnil
    rw [hnil]
    exact runs_pure 0
  · exact runs_mapError (runs_insertRunEvents runId faults.events events)

theorem runs_persistRequired :
    Runs (persistWrites faults runId contents) (persistRequired faults runId contents) :=
  runs_bind (runs_persistMetrics faults runId contents.metrics) (fun _ =>
    runs_bind (runs_persistTags faults runId contents.tags) (fun _ =>
      runs_bind (runs_persistParams faults runId contents.params) (fun _ =>
        runs_persistEvents faults runId contents.events)))

theorem inserts_persistWrites : Inserts idsGiven (persistWrites faults runId contents) := by
  refine inserts_append ?_ (inserts_append (inserts_writes (idsGiven_setTag runId) _ _) (inserts_append ?_
    (inserts_eventWrites runId _ _)))
  · rw [metricWrites]
    split
    · exact inserts_nil
    · rename_i hne
      apply inserts_append_mono (inserts_writes (idsGiven_addMetric runId) _ _)
      · exact fun h => hne (writes_eq_nil.mp h)
      · intro w hw s
        rw [List.mem_singleton.mp hw]
        exact Nat.le_refl _
  · split
    · exact inserts_nil
    · exact inserts_paramWrites runId _ ‹_›

theorem persistWrites_faults : (persistWrites faults runId contents).map Prod.fst =
    persistStatements faults contents := by
  rw [persistWrites, persistStatements, List.map_append, List.map_append, List.map_append, writes_faults,
    eventWrites_faults]
  congr 1
  · rw [metricWrites]
    split
    · rfl
    · rw [List.map_append, writes_faults]
      rfl
  · congr 2
    split
    · rename_i hnil
      rw [hnil]
      rfl
    · exact paramWrites_faults runId _ ‹_›

theorem completes_persistWarnings (warnings : List String) :
    Completes (persistWarnings faults runId warnings) := by
  rw [persistWarnings]
  split
  · exact completes_pure 0
  · exact completes_bind (completes_attempt _) (fun _ => completes_pure _)

theorem allOrNothing_persist (s : SqliteStore) : AllOrNothing (persistIngestBatchToSqlite faults runId contents) s ↔
    FirstOrNone (persistStatements faults contents) := by
  rw [persist_eq, allOrNothing_bind_completes, ← persistWrites_faults faults runId]
  · exact allOrNothing_iff_firstOrNone (runs_persistRequired faults runId contents)
      (inserts_persistWrites faults runId contents) s
  · intro acceptedEventCount
    exact completes_bind (completes_persistWarnings faults runId contents.warnings) (fun _ => completes_pure _)

end Persist

theorem allOrNothing_insertParams (faults : Nat → Option String) (runId : String) (params : List (String × String))
    (s : SqliteStore) : AllOrNothing (insertParams runId faults params) s ↔
      FirstOrNone (closed faults params.length) := by
  by_cases hnil : params = []
  · have hone : AllOrNothing (insertParams runId faults params) s := by
      rw [allOrNothing_iff_written (runs_insertParams runId faults params), hnil]
      by_cases hgranted : faults 0 = none
      · exact .inl (fun w hw => by rw [List.mem_singleton.mp hw]; exact hgranted)
      · exact .inr (written_cons_some hgranted [] s)
    rw [hnil]
    exact ⟨fun _ => .inr nofun, fun _ => hnil ▸ hone⟩
  · rw [← paramWrites_faults runId faults hnil]
    exact allOrNothing_iff_firstOrNone (runs_insertParams runId faults params)
      (inserts_paramWrites runId faults hnil) s

section Rows

variable {ρ : Type} {p : ρ → Bool}

theorem filter_not_eq_self {l : List ρ} : l.filter (fun r => !p r) = l ↔ l.countP p = 0 := by
  rw [List.filter_eq_self, List.countP_eq_zero]
  simp

theorem countP_filter_not (l : List ρ) : (l.filter (fun r => !p r)).countP p = 0 := by
  rw [List.countP_eq_zero]
  intro r hr
  simpa using (List.mem_filter.mp hr).2

theorem deleteWhere_eq_self {clash : ρ → ρ → Prop} {t : Table ρ clash} :
    t.deleteWhere p = t ↔ t.rows.countP p = 0 := by
  rw [← filter_not_eq_self]
  constructor
  · intro h
    exact congrArg Table.rows h
  · intro h
    cases t
    simp only [Table.deleteWhere, Table.mk.injEq]
    exact h

theorem map_setWhere_eq_self {g : ρ → ρ} (hg : ∀ r, p r = true → g r ≠ r) {l : List ρ} :
    l.map (setWhere p g) = l ↔ l.countP p = 0 := by
  have hmap : l.map (setWhere p g) = l ↔ ∀ r ∈ l, setWhere p g r = id r := by
    rw [← List.map_inj_left, List.map_id]
  rw [hmap, List.countP_eq_zero]
  refine forall₂_congr (fun r _ => ?_)
  rw [setWhere, id_eq]
  by_cases hp : p r = true
  · rw [if_pos hp]
    exact ⟨fun h => absurd h (hg r hp), fun h => absurd hp h⟩
  · rw [if_neg hp]
    exact ⟨fun _ => hp, fun _ => rfl⟩

theorem countP_map_setWhere {g : ρ → ρ} (hg : ∀ r, p (g r) = false) (l : List ρ) :
    (l.map (setWhere p g)).countP p = 0 := by
  rw [List.countP_eq_zero]
  intro r hr
  obtain ⟨r, -, rfl⟩ := List.mem_map.mp hr
  rw [setWhere]
  split
  · rw [hg]
    exact Bool.false_ne_true
  · assumption

end Rows

section DeleteRun

variable (runId : String)

def runDeletes : List (SqliteStore → SqliteStore) := dataDeletes runId ++ [deleteRunRow runId]

def rowCount (s : SqliteStore) : Nat := (rowsOfRun s runId).foldr (· + ·) 0

/-- A statement changes nothing just when it finds no row, and leaves none. -/
def Clears (s : SqliteStore) (write : SqliteStore → SqliteStore) (n : Nat) : Prop :=
  (write s = s ↔ n = 0) ∧ rowCount runId (write s) + n = rowCount runId s

theorem clears_auditRun (s : SqliteStore) :
    Clears runId s (clearAuditRun runId) (s.auditEvents.countP (fun r => r.runId == some runId)) := by
  constructor
  · rw [← map_setWhere_eq_self (g := fun r => { r with runId := none })]
    · exact ⟨congrArg SqliteStore.auditEvents, fun h => by rw [clearAuditRun, h]⟩
    · intro r hr h
      rw [← congrArg AuditEventRow.runId h] at hr
      exact absurd hr nofun
  · have hzero := countP_map_setWhere (p := fun r : AuditEventRow => r.runId == some runId)
      (g := fun r => { r with runId := none }) (fun _ => rfl) s.auditEvents
    simp only [rowCount, rowsOfRun, clearAuditRun, List.foldr, hzero]
    omega

theorem runDeletes_clear (s : SqliteStore) :
    List.Forall₂ (Clears runId s) (runDeletes runId) (rowsOfRun s runId) := by
  refine .cons (clears_auditRun runId s) (.cons ⟨?_, ?_⟩ (.cons ⟨?_, ?_⟩ (.cons ⟨?_, ?_⟩ (.cons ⟨?_, ?_⟩
    (.cons ⟨?_, ?_⟩ (.cons ⟨?_, ?_⟩ (.cons ⟨?_, ?_⟩ .nil)))))))
  · rw [← filter_not_eq_self]
    exact ⟨congrArg SqliteStore.shareTokens, fun h => by rw [deleteShareTokens, h]⟩
  · simp only [rowCount, rowsOfRun, deleteShareTokens, countP_filter_not, List.foldr]
    omega
  · rw [← filter_not_eq_self]
    exact ⟨congrArg (fun s : SqliteStore => s.runTables.metrics), fun h => by rw [deleteMetrics, h]⟩
  · simp only [rowCount, rowsOfRun, deleteMetrics, countP_filter_not, List.foldr]
    omega
  · rw [← filter_not_eq_self]
    exact ⟨congrArg (fun s : SqliteStore => s.runTables.events), fun h => by rw [deleteEvents, h]⟩
  · simp only [rowCount, rowsOfRun, deleteEvents, countP_filter_not, List.foldr]
    omega
  · rw [← deleteWhere_eq_self]
    exact ⟨congrArg (fun s : SqliteStore => s.runTables.tags), fun h => by rw [deleteTags, h]⟩
  · simp only [rowCount, rowsOfRun, deleteTags, rows_deleteWhere, countP_filter_not, List.foldr]
    omega
  · rw [← deleteWhere_eq_self]
    exact ⟨congrArg (fun s : SqliteStore => s.runTables.params), fun h => by rw [deleteParams, h]⟩
  · simp only [rowCount, rowsOfRun, deleteParams, rows_deleteWhere, countP_filter_not, List.foldr]
    omega
  · rw [← deleteWhere_eq_self]
    exact ⟨congrArg SqliteStore.batches, fun h => by rw [deleteBatches, h]⟩
  · simp only [rowCount, rowsOfRun, deleteBatches, rows_deleteWhere, countP_filter_not, List.foldr]
    omega
  · rw [← deleteWhere_eq_self]
    exact ⟨congrArg (fun s : SqliteStore => s.runTables.runs), fun h => by rw [deleteRunRow, h]⟩
  · simp only [rowCount, rowsOfRun, deleteRunRow, rows_deleteWhere, countP_filter_not, List.foldr]
    omega

theorem exists_of_forall₂ {β γ : Type} {R : β → γ → Prop} {l : List β} {l' : List γ}
    (h : List.Forall₂ R l l')
    (j : Nat) : (∃ a b, l[j]? = some a ∧ l'[j]? = some b ∧ R a b) ∨ (l[j]? = none ∧ l'[j]? = none) := by
  induction h generalizing j with
  | nil => exact .inr ⟨rfl, rfl⟩
  | cons hR _ ih =>
      cases j with
      | zero => exact .inl ⟨_, _, rfl, rfl, hR⟩
      | succ j => exact ih j

theorem written_runDeletes (faults : Nat → Option String) (s : SqliteStore) :
    written (writes id faults (runDeletes runId)) s = s ↔
      ∀ j n, (rowsOfRun s runId)[j]? = some n → (∀ i ≤ j, faults i = none) → n = 0 := by
  have hdown : ∀ w ∈ writes id faults (runDeletes runId), ∀ s, w.2 s = s ∨
      rowCount runId (w.2 s) < rowCount runId s := by
    intro w hw s
    obtain ⟨write, hwrite, heq⟩ := mem_writes hw
    obtain ⟨j, hj⟩ := List.mem_iff_getElem?.mp hwrite
    rw [heq, id_eq]
    rcases exists_of_forall₂ (runDeletes_clear runId s) j with ⟨write', n, hj', -, hself, hcount⟩ | ⟨hnone, -⟩
    · obtain rfl := Option.some.inj (hj.symm.trans hj')
      by_cases hn : n = 0
      · exact .inl (hself.mpr hn)
      · right
        omega
    · cases hj.symm.trans hnone
  rw [written_eq_iff_of_delete (rowCount runId) hdown, forall_effective_writes (P := fun write => write s = s)
    (fun _ => Iff.rfl)]
  constructor
  · intro h j n hj hfaults
    rcases exists_of_forall₂ (runDeletes_clear runId s) j with ⟨write, n', hwrite, hj', hself, -⟩ | ⟨-, hnone⟩
    · obtain rfl := Option.some.inj (hj.symm.trans hj')
      exact hself.mp (h j write hwrite hfaults)
    · cases hj.symm.trans hnone
  · intro h j write hj hfaults
    rcases exists_of_forall₂ (runDeletes_clear runId s) j with ⟨write', n, hwrite, hj', hself, -⟩ | ⟨hnone, -⟩
    · obtain rfl := Option.some.inj (hj.symm.trans hwrite)
      exact hself.mpr (h j n hj' hfaults)
    · cases hj.symm.trans hnone

theorem runs_deleteRunRows (faults : Nat → Option String) :
    Runs (writes id faults (runDeletes runId)) (deleteRunRows runId faults) :=
  runs_bind (runs_deleteRunData runId faults) (fun _ => runs_execute _ _ (deleteRunRow runId))

theorem granted_runDeletes (faults : Nat → Option String) :
    granted (writes id faults (runDeletes runId)) ↔ ∀ i < 8, faults i = none := by
  have hlength : (runDeletes runId).length = 8 := rfl
  have hfaults := writes_faults (fun write : SqliteStore → SqliteStore => write) faults (runDeletes runId)
  have hmap : granted (writes id faults (runDeletes runId)) ↔
      ∀ fault ∈ (writes id faults (runDeletes runId)).map Prod.fst, fault = none := by
    rw [granted, List.forall_mem_map]
  rw [hmap]
  change (writes id faults (runDeletes runId)).map Prod.fst = _ at hfaults
  rw [hfaults, hlength, List.forall_mem_map]
  simp only [List.mem_range]

theorem deleteRunRows_ok {faults : Nat → Option String} {s s' : SqliteStore} {changes : Nat}
    (h : deleteRunRows runId faults s = (.ok changes, s')) :
    changes = 0 ↔ ¬ ∃ run ∈ s.runTables.runs.rows, run.id = runId := by
  obtain ⟨_, s₁, hdata, hrow⟩ := bind_eq_ok h
  have hruns : Leaves (fun s : SqliteStore => s.runTables.runs) (deleteRunData runId faults) := by
    apply leaves_deleteRunData
    simp only [dataDeletes, List.forall_mem_cons]
    exact ⟨fun _ => rfl, fun _ => rfl, fun _ => rfl, fun _ => rfl, fun _ => rfl, fun _ => rfl, fun _ => rfl,
      fun _ h => absurd h List.not_mem_nil⟩
  have hsame := hruns.shows s
  rw [hdata] at hsame
  obtain ⟨hchanges, -⟩ := Prod.mk.inj (Except.ok.inj (execute_ok hrow))
  rw [← hchanges, ← hsame, Table.select, List.length_eq_zero_iff, List.filter_eq_nil_iff]
  simp

theorem allOrNothing_deleteRun (faults : Nat → Option String) (s : SqliteStore) :
    AllOrNothing (deleteRun runId faults) s ↔ Mutator.Spared s (.deleteRun faults runId) := by
  have hruns := runs_deleteRunRows runId faults
  have hstate := hruns.state s
  have hsucceeds := hruns.succeeds s
  rw [Mutator.Spared, ← written_runDeletes, ← granted_runDeletes runId]
  cases hrows : deleteRunRows runId faults s with
  | mk result s' =>
      rw [hrows] at hstate hsucceeds
      cases result with
      | error e =>
          have hrefused : ¬ granted (writes id faults (runDeletes runId)) := fun hg => nomatch hsucceeds.mpr hg
          have herror : deleteRun runId faults s = (.error e, s') := by
            simp only [deleteRun, bind, hrows]
          rw [allOrNothing_of_error herror, ← hstate, or_iff_right (fun h => hrefused h.2)]
      | ok changes =>
          have hgranted := hsucceeds.mp ⟨changes, rfl⟩
          have hzero := deleteRunRows_ok runId hrows
          have hcheck : deleteRun runId faults s = _ := bind_ok hrows
          by_cases h0 : changes = 0
          · rw [if_pos h0] at hcheck
            rw [allOrNothing_of_error hcheck, ← hstate, or_iff_right (fun h => hzero.mp h0 h.1)]
          · rw [if_neg h0] at hcheck
            have hexists := not_not.mp (fun h => h0 (hzero.mpr h))
            exact ⟨fun _ => .inl ⟨hexists, hgranted⟩, fun _ => allOrNothing_of_ok hcheck⟩

end DeleteRun

section Grant

variable (env : UiTables.Env) (projectId userId : String)

def isActiveGrant (r : UiTables.MembershipRow) : Bool :=
  r.projectId == projectId && r.userId == userId && r.revokedAt.isNone

/-- The rows that a grant leaves behind its revocation. -/
def revoked (ui : UiTables.UiStore) : UiTables.UiStore :=
  { ui with
    memberships := ui.memberships.update
      (setWhere (isActiveGrant projectId userId) (fun r => { r with revokedAt := some env.now }))
      (UiTables.MembershipRow.clash_setWhere (fun _ => rfl) (fun _ => rfl) (fun _ => rfl) nofun) }

theorem revoked_eq_self (ui : UiTables.UiStore) :
    revoked env projectId userId ui = ui ↔ ui.memberships.rows.any (isActiveGrant projectId userId) = false := by
  have hrows : revoked env projectId userId ui = ui ↔ ui.memberships.rows.map
      (setWhere (isActiveGrant projectId userId) (fun r => { r with revokedAt := some env.now })) =
        ui.memberships.rows := by
    constructor
    · exact congrArg (fun ui : UiTables.UiStore => ui.memberships.rows)
    · intro h
      obtain ⟨users, projects, ⟨rows, apart⟩, sessions, log⟩ := ui
      simp only [revoked, Table.update, UiTables.UiStore.mk.injEq, Table.mk.injEq, true_and, and_true]
      exact h
  rw [hrows, map_setWhere_eq_self, List.countP_eq_zero]
  · simp
  · intro r hr h
    have hnone : r.revokedAt.isNone = true := (Bool.and_eq_true_iff.mp hr).2
    rw [← congrArg UiTables.MembershipRow.revokedAt h] at hnone
    exact Bool.false_ne_true hnone

theorem clash_revoked (ui : UiTables.UiStore) {new : UiTables.MembershipRow} (hproject : new.projectId = projectId)
    (huser : new.userId = userId) :
    (∃ r ∈ (revoked env projectId userId ui).memberships.rows, UiTables.MembershipRow.clash r new) ↔
      ∃ r ∈ ui.memberships.rows, r.id = new.id := by
  have hid : ∀ r, (setWhere (isActiveGrant projectId userId)
      (fun r : UiTables.MembershipRow => { r with revokedAt := some env.now }) r).id = r.id :=
    setWhere_keeps UiTables.MembershipRow.id (fun _ => rfl)
  constructor
  · rintro ⟨_, hrow, hclash⟩
    obtain ⟨r, hr, rfl⟩ := List.mem_map.mp hrow
    rcases hclash with hsame | ⟨hp, hu, hactive, -⟩
    · exact ⟨r, hr, (hid r).symm.trans hsame⟩
    · rw [setWhere] at hp hu hactive
      split at hactive
      · cases hactive
      · rename_i hinactive
        rw [if_neg hinactive] at hp hu
        refine absurd ?_ hinactive
        simp [isActiveGrant, hp, hu, hactive, hproject, huser]
  · rintro ⟨r, hr, hsame⟩
    exact ⟨_, List.mem_map_of_mem hr, .inl ((hid r).trans hsame)⟩

def insertGrant (new : UiTables.MembershipRow) (ui : UiTables.UiStore) :
    Except SqliteError (Unit × UiTables.UiStore) :=
  match ui.memberships.insert new with
  | some memberships => .ok ((), { ui with memberships := memberships })
  | none => .error (uniqueViolation "project_memberships.id")

theorem insertGrant_revoked (ui : UiTables.UiStore) {new : UiTables.MembershipRow}
    (hproject : new.projectId = projectId)
    (huser : new.userId = userId) :
    (∃ r, insertGrant new (revoked env projectId userId ui) = .ok r) ↔
      ∀ r ∈ ui.memberships.rows, r.id ≠ new.id := by
  have hclash := clash_revoked env projectId userId ui hproject huser
  simp only [insertGrant]
  cases hinsert : (revoked env projectId userId ui).memberships.insert new with
  | some memberships =>
      refine ⟨fun _ r hr hid => ?_, fun _ => ⟨_, rfl⟩⟩
      obtain ⟨r, hr, hc⟩ := hclash.mpr ⟨r, hr, hid⟩
      exact (insert_eq_some hinsert).2 r hr hc
  | none =>
      constructor
      · rintro ⟨_, h⟩
        cases h
      · intro hfree
        obtain ⟨r, hr, hid⟩ := hclash.mp ((insert_eq_none_iff _ _).mp hinsert)
        exact absurd hid (hfree r hr)

theorem allOrNothing_grant (role : Role) (grantedByUserId : Option String) (s : SqliteStore) :
    AllOrNothing (grantProjectMembership env projectId userId role grantedByUserId) s ↔
      Mutator.Spared s (.grantProjectMembership env projectId userId role grantedByUserId) := by
  have hactive : isActiveMember s projectId userId = false ↔ revoked env projectId userId s.ui = s.ui :=
    (revoked_eq_self env projectId userId s.ui).symm
  rw [grantProjectMembership, allOrNothing_zoom (fun _ _ => rfl) (fun _ => rfl), Mutator.Spared, hactive]
  cases hrevoke : env.faults.revokeMembership with
  | some text =>
      have herror : UiTables.grantProjectMembership env projectId userId role grantedByUserId s.ui =
          (.error (.database text), s.ui) := by
        simp only [UiTables.grantProjectMembership, bind, execute, hrevoke, statement_some]
      exact ⟨fun _ => .inl (Option.some_ne_none text), fun _ => (allOrNothing_of_error herror).mpr rfl⟩
  | none =>
      have hbind : UiTables.grantProjectMembership env projectId userId role grantedByUserId s.ui =
          execute env.faults.insertMembership
            (insertGrant ⟨env.membershipId, projectId, userId, role, grantedByUserId, none⟩)
            (revoked env projectId userId s.ui) := by
        simp only [UiTables.grantProjectMembership, bind, execute, hrevoke, statement_none]
        rfl
      have hfree := @insertGrant_revoked env projectId userId s.ui
        ⟨env.membershipId, projectId, userId, role, grantedByUserId, none⟩ rfl rfl
      rw [or_iff_right (fun h => h rfl), ← hfree]
      cases hresult : UiTables.grantProjectMembership env projectId userId role grantedByUserId s.ui with
      | mk result ui =>
          rw [hresult] at hbind
          cases result with
          | ok u =>
              exact ⟨fun _ => .inr ⟨execute_granted hbind.symm, _, execute_ok hbind.symm⟩,
                fun _ => allOrNothing_of_ok hresult⟩
          | error e =>
              obtain ⟨rfl, hrefused⟩ := execute_error hbind.symm
              rw [allOrNothing_of_error hresult, or_iff_left]
              rintro ⟨hgranted, r, hinsert⟩
              rw [hrefused hgranted] at hinsert
              cases hinsert

end Grant

/-- Exactly these calls leave the database as it was whenever they fail. -/
theorem allOrNothing_iff_spared (m : Mutator) (s : SqliteStore) : m.AllOrNothing s ↔ m.Spared s := by
  cases m with
  | setTags faults runId tags =>
      rw [Mutator.Spared, ← writes_faults (setTag runId)]
      exact allOrNothing_iff_firstOrNone (runs_executeEach (setTag runId) faults tags)
        (inserts_writes (idsGiven_setTag runId) faults tags) s
  | insertMetrics faults runId metrics =>
      rw [Mutator.Spared, ← writes_faults (addMetric runId)]
      exact allOrNothing_iff_firstOrNone (runs_insertMetrics runId faults metrics)
        (inserts_writes (idsGiven_addMetric runId) faults metrics) s
  | insertParams faults runId params => exact allOrNothing_insertParams faults runId params s
  | insertRunEvents faults runId events =>
      rw [Mutator.Spared, ← eventWrites_faults runId]
      exact allOrNothing_iff_firstOrNone (runs_insertRunEvents runId faults events)
        (inserts_eventWrites runId faults events) s
  | grantProjectMembership env projectId userId role grantedByUserId =>
      exact allOrNothing_grant env projectId userId role grantedByUserId s
  | deleteRun faults runId => exact allOrNothing_deleteRun runId faults s
  | deleteProject faults projectId =>
      exact ⟨fun _ => trivial, fun _ => allOrNothing_transaction _ _ _ s⟩
  | persistIngestBatchToSqlite faults runId contents => exact allOrNothing_persist faults runId contents s

def refuse (k i : Nat) : Option String := if i = k then some "database is locked" else none

def oneRunStore : SqliteStore where
  runTables := ((RunTables.createRun none "r" "p" none none none .empty).2).addMetric "r" ⟨"loss", 0, 0, none⟩
  ui := (UiTables.grantProjectMembership { now := 0 } "p" "u" .viewer none
    ((UiTables.createProject { now := 0, projectId := "p" } "p" none .empty).2)).2
  apiKeys := .empty
  batches := .empty
  auditEvents := []
  shareTokens := []
  metricAliases := []
  sequences := { metrics := 1 }

/-- A second statement that fails leaves what the first has written, in a loop
of insertions, a grant, a deletion or the composite. -/
theorem half_written :
    ¬ (Mutator.setTags (refuse 1) "r" [("a", "1"), ("b", "2")]).AllOrNothing oneRunStore ∧
      ¬ (Mutator.insertMetrics (refuse 1) "r" [⟨"loss", 1, 0, none⟩, ⟨"loss", 2, 0, none⟩]).AllOrNothing
        oneRunStore ∧
      ¬ (Mutator.insertParams (refuse 1) "r" [("lr", "1"), ("seed", "2")]).AllOrNothing oneRunStore ∧
      ¬ (Mutator.insertRunEvents (refuse 1) "r" [⟨"info", "sdk", "started", none, none⟩]).AllOrNothing
        oneRunStore ∧
      ¬ (Mutator.grantProjectMembership { now := 1, faults := { insertMembership := some "database is locked" } }
        "p" "u" .owner none).AllOrNothing oneRunStore ∧
      ¬ (Mutator.deleteRun (refuse 7) "r").AllOrNothing oneRunStore ∧
      ¬ (Mutator.persistIngestBatchToSqlite { metricsCount := some "database is locked" } "r"
        ⟨[⟨"loss", 1, 0, none⟩], [], [], [], []⟩).AllOrNothing oneRunStore := by
  refine ⟨?_, ?_, ?_, ?_, ?_, ?_, ?_⟩
  · exact not_allOrNothing SqliteStore.sequences (by decide +kernel) (by decide +kernel)
  · exact not_allOrNothing SqliteStore.sequences (by decide +kernel) (by decide +kernel)
  · exact not_allOrNothing SqliteStore.sequences (by decide +kernel) (by decide +kernel)
  · exact not_allOrNothing SqliteStore.sequences (by decide +kernel) (by decide +kernel)
  · exact not_allOrNothing (fun s => isActiveMember s "p" "u") (by decide +kernel) (by decide +kernel)
  · exact not_allOrNothing (fun s => s.runTables.metrics) (by decide +kernel) (by decide +kernel)
  · exact not_allOrNothing SqliteStore.sequences (by decide +kernel) (by decide +kernel)

end MLRunX.MutatorAtomicity
