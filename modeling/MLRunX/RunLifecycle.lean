import MLRunX.GrpcIngest
import MLRunX.IngestPipeline
import MLRunX.RunServer

namespace MLRunX.RunLifecycle

open Auth Commands Http Ingest Processor RunInit RunServer RunTables Runs Sqlite Statements Tables
open QueuedIngest (findRun_setRun)

def statusOf (runId : String) (db : Database) : Option String := (db.findRun runId).map RunRow.status

/-- The statuses that a run does not leave. -/
def Terminal (status : String) : Prop :=
  ∃ last ∈ ["finished", "failed", "killed"], Text.eqIgnoreAsciiCase status last

instance (status : String) : Decidable (Terminal status) := by
  unfold Terminal
  infer_instance

theorem not_running {status : String} (h : Terminal status) : ¬ Text.eqIgnoreAsciiCase status "running" := by
  obtain ⟨last, hmem, hlast⟩ := h
  intro hrunning
  have hsame : Text.toAsciiLowercase last = Text.toAsciiLowercase "running" :=
    (beq_iff_eq.mp hlast).symm.trans (beq_iff_eq.mp hrunning)
  have hdiffer : ∀ last ∈ ["finished", "failed", "killed"], Text.toAsciiLowercase last ≠
      Text.toAsciiLowercase "running" := by
    decide
  exact hdiffer last hmem hsame

section Statements

variable {runId : String} {db : Database}

theorem statusOf_setRun (db : Database) (id : String) {g : RunRow → RunRow} (hid : ∀ r, (g r).id = r.id)
    (hstatus : ∀ r, (g r).status = r.status) (runId : String) :
    statusOf runId (db.setRun id g hid) = statusOf runId db := by
  rw [statusOf, findRun_setRun, Option.map_map]
  congr 1
  funext r
  exact setWhere_keeps RunRow.status hstatus r

theorem statusOf_setStatus (db : Database) (id status runId : String) :
    statusOf runId (db.setRun id (fun r => { r with status }) (fun _ => rfl)) =
      if id = runId then (statusOf runId db).map (fun _ => status) else statusOf runId db := by
  rw [statusOf, findRun_setRun, statusOf, Option.map_map]
  cases hrun : db.findRun runId with
  | none => simp
  | some run =>
      have hrunid : run.id = runId := beq_iff_eq.mp (find_some hrun).2
      simp only [Option.map_some, Function.comp, setWhere, hrunid, beq_iff_eq, eq_comm (a := runId)]
      split <;> rfl

theorem keeps_createRun {fault : Option String} {id projectId : String} {name keyId userId : Option String}
    {status : String} : Keeps (fun db => statusOf runId db = some status)
      (createRun fault id projectId name keyId userId) := by
  apply keeps_execute
  intro db _ db' hdb hinsert
  obtain ⟨run, hrun, rfl⟩ := Option.map_eq_some_iff.mp hdb
  split at hinsert
  · rename_i runs hruns
    obtain ⟨-, rfl⟩ := Prod.mk.inj (Except.ok.inj hinsert)
    simp only [statusOf, Database.findRun, Table.find, (insert_eq_some hruns).1]
    rw [List.find?_append, show db.runs.rows.find? (fun r => r.id == runId) = some run from hrun]
    rfl
  · cases hinsert

theorem createRun_fails {run : RunRow} (hrun : db.findRun runId = some run) (fault : Option String)
    (projectId : String) (name keyId userId : Option String) :
    ∃ e, createRun fault runId projectId name keyId userId db = (.error e, db) := by
  obtain ⟨hmem, hid⟩ := find_some hrun
  have hnone : ∀ row : RunRow, row.id = runId → db.runs.insert row = none := by
    intro row hrow
    exact (insert_eq_none_iff _ _).mpr ⟨run, hmem, (beq_iff_eq.mp hid).trans hrow.symm⟩
  cases fault with
  | some text => exact ⟨_, rfl⟩
  | none =>
      refine ⟨uniqueViolation "runs.id", ?_⟩
      rw [createRun, execute, hnone]
      · rfl
      · rfl

theorem leaves_setTags (faults : Nat → Option String) (id : String) (tags : List (String × String)) :
    Leaves (statusOf runId) (setTags faults id tags) := by
  apply leaves_executeEach
  exact fun _ _ => rfl

theorem leaves_insertMetrics (faults : Nat → Option String) (id : String) (metrics : List MetricRow) :
    Leaves (statusOf runId) (insertMetrics faults id metrics) := by
  apply leaves_bind
  · apply leaves_executeEach
    exact fun _ _ => rfl
  · exact fun _ => leaves_pure _

theorem leaves_setRun {fault : Option String} {id : String} {g : Database → RunRow → RunRow}
    (hid : ∀ db r, (g db r).id = r.id) (hstatus : ∀ db r, (g db r).status = r.status) :
    Leaves (statusOf runId) (execute fault (fun db => .ok ((), db.setRun id (g db) (hid db)))) := by
  apply leaves_execute
  intro db _ db' hset
  obtain ⟨-, rfl⟩ := Prod.mk.inj (Except.ok.inj hset)
  exact statusOf_setRun db id (hid db) (hstatus db) runId

theorem leaves_incrementMetricsCount (fault : Option String) (id : String) (count : Int) :
    Leaves (statusOf runId) (incrementMetricsCount fault id count) :=
  leaves_setRun (g := fun _ r => { r with metricsCount := r.metricsCount + count }) (fun _ _ => rfl) (fun _ _ => rfl)

theorem leaves_insertParams (faults : Nat → Option String) (id : String) (params : List (String × String)) :
    Leaves (statusOf runId) (insertParams faults id params) := by
  apply leaves_bind
  · apply leaves_executeEach
    exact fun _ _ => rfl
  · intro _
    apply leaves_bind
    · exact leaves_setRun (g := fun db r => { r with
        paramsCount := (db.params.select (fun p => p.runId == id)).length }) (fun _ _ => rfl) (fun _ _ => rfl)
    · exact fun _ => leaves_pure _

theorem leaves_insertRunEvents (faults : Nat → Option String) (id : String) (events : List RunEventInput) :
    Leaves (statusOf runId) (insertRunEvents faults id events) := by
  apply leaves_bind
  · apply leaves_executeEach
    exact fun _ _ => rfl
  · intro _
    exact leaves_bind ((leaves_stampRun _ _).map (statusOf runId)) (fun _ => leaves_pure _)

theorem leaves_persist (faults : PersistFaults) (id : String) (contents : Contents) :
    Leaves (statusOf runId) (persistIngestBatchToSqlite faults id contents) := by
  refine leaves_bind ?_ (fun _ => leaves_bind ?_ (fun _ => leaves_bind ?_ (fun _ => leaves_bind ?_ (fun _ =>
    leaves_bind ?_ (fun _ => leaves_pure _)))))
  · rw [persistMetrics]
    split
    · exact leaves_pure ()
    · apply leaves_bind (leaves_mapError (leaves_insertMetrics _ _ _))
      exact fun _ => leaves_mapError (leaves_incrementMetricsCount _ _ _)
  · rw [persistTags]
    split
    · exact leaves_pure ()
    · exact leaves_mapError (leaves_setTags _ _ _)
  · rw [persistParams]
    split
    · exact leaves_pure ()
    · exact leaves_bind (leaves_mapError (leaves_insertParams _ _ _)) (fun _ => leaves_pure _)
  · rw [persistEvents]
    split
    · exact leaves_pure _
    · exact leaves_mapError (leaves_insertRunEvents _ _ _)
  · rw [persistWarnings]
    split
    · exact leaves_pure _
    · exact leaves_bind (leaves_attempt (leaves_insertRunEvents _ _ _)) (fun _ => leaves_pure _)

theorem leaves_sqlite {α : Type} {x : Command Database SqliteError α} (h : Leaves (statusOf runId) x) :
    Leaves (fun s => statusOf runId s.db) (sqlite x) :=
  leaves_mapError (leaves_zoom (fun _ _ => rfl) h)

theorem leaves_applyBatch (faults : ProcessFaults) (batch : QueuedIngestBatch) :
    Leaves (fun s => statusOf runId s.db) (applyBatch faults batch) := by
  refine leaves_bind ?_ (fun _ => leaves_bind (leaves_bind ?_ (fun _ => leaves_bind ?_ (fun _ => leaves_bind ?_
    (fun _ => ?_)))) (fun _ => leaves_mapError ?_))
  · rw [storeMetrics]
    split
    · exact leaves_pure ()
    · apply leaves_bind (leaves_sqlite (leaves_insertMetrics _ _ _))
      exact fun _ => leaves_sqlite (leaves_incrementMetricsCount _ _ _)
  · rw [storePoints]
    split
    · exact leaves_pure ()
    · constructor
      intro s
      cases hpoints : faults.points <;> simp only [insertBatch]
  · rw [storeTags]
    split
    · exact leaves_pure ()
    · exact leaves_sqlite (leaves_setTags _ _ _)
  · rw [storeParams]
    split
    · exact leaves_pure ()
    · exact leaves_bind (leaves_sqlite (leaves_insertParams _ _ _)) (fun _ => leaves_pure _)
  · rw [storeEvents]
    split
    · exact leaves_pure ()
    · exact leaves_bind (leaves_sqlite (leaves_insertRunEvents _ _ _)) (fun _ => leaves_pure _)
  · apply leaves_execute
    intro s _ s' hrecord
    split at hrecord
    · obtain ⟨-, rfl⟩ := Prod.mk.inj (Except.ok.inj hrecord)
      rfl
    · cases hrecord

theorem leaves_processBatch (faults : ProcessFaults) (batch : QueuedIngestBatch) :
    Leaves (fun s => statusOf runId s.db) (processBatch faults batch) := by
  apply leaves_bind (leaves_attempt (leaves_query _ _))
  intro found
  split
  · exact leaves_pure ()
  · exact leaves_applyBatch faults batch

end Statements

section Ingest

variable {env : Env} {sent : Sent} {runId status : String}

theorem leaves_httpIngestBatch (fault : Option String) (faults : Faults) :
    Leaves (fun s : ServerState => statusOf runId s.db) (httpIngestBatch env sent fault faults) := by
  have htables : ∀ {ε α : Type} {x : Command ServerState ε α}, Leaves IngestPipeline.tables x →
      Leaves (fun s : ServerState => statusOf runId s.db) x := fun h => h.map (fun t => statusOf runId t.1)
  apply leaves_bind (leaves_mapError (htables (IngestPipeline.leaves_receive env sent fault)))
  intro admitted
  cases admitted with
  | duplicate => exact leaves_pure _
  | process p =>
      apply leaves_bind (leaves_mapError ⟨fun _ => rfl⟩)
      intro validation
      apply leaves_bind (leaves_mapError (htables (IngestPipeline.leaves_readRun _ _)))
      intro run
      apply leaves_bind (leaves_mapError (leaves_ofExcept _))
      intro _
      refine leaves_bind (leaves_mapError ?_) (fun _ => leaves_pure _)
      rw [deliver]
      split
      · exact leaves_bind (leaves_mapError ⟨fun _ => rfl⟩) (fun _ => leaves_pure _)
      · exact leaves_zoom (fun _ _ => rfl) (leaves_persist _ _ _)

/-- What is sent to a run that has ended is taken nowhere. -/
structure Untaken (s s' : ServerState) (answer : Except Failure Ingested) : Prop where
  answer : ∀ i, answer = .ok i → i = duplicateAnswer
  tables : IngestPipeline.tables s' = IngestPipeline.tables s

theorem untaken_error {s s' : ServerState} (e : Failure) (h : IngestPipeline.tables s' = IngestPipeline.tables s) :
    Untaken s s' (.error e) where
  answer i hi := by cases hi
  tables := h

theorem settle_refused {faults : Faults} {p : Pending} {db : Database × List QueuedIngestBatch}
    (h : statusOf p.sent.request.runId db.1 = some status) (hend : Terminal status) :
    Triple (fun s => IngestPipeline.tables s = db) (settle env faults p) (fun _ _ => False)
      (fun s => IngestPipeline.tables s = db) := by
  have hkeep : ∀ {ε α : Type} {x : Command ServerState ε α}, Leaves IngestPipeline.tables x →
      Keeps (fun s => IngestPipeline.tables s = db) x := fun hx => hx.keeps (fun _ _ heq hs => heq.symm.trans hs)
  apply triple_bind (triple_mapError (hkeep ⟨fun _ => rfl⟩))
  intro validation
  have hread : Triple (fun s => IngestPipeline.tables s = db) (readRun faults.getRun p.sent.request.runId)
      (fun run s => IngestPipeline.tables s = db ∧ run.status = status) (fun s => IngestPipeline.tables s = db) := by
    have hleaves := hkeep (IngestPipeline.leaves_readRun faults.getRun p.sent.request.runId)
    constructor
    intro s hs
    have hends := hleaves.ends s hs
    generalize hr : readRun faults.getRun p.sent.request.runId s = r at hends ⊢
    rcases r with ⟨e | run, s'⟩
    · exact hends
    · obtain ⟨db', hget, -⟩ := zoom_eq_ok (mapError_eq_ok hr)
      have hfound := (getRun_ok hget).1
      refine ⟨hends, ?_⟩
      rw [← hs] at h
      exact Option.some.inj ((congrArg (Option.map RunRow.status) hfound).symm.trans h)
  apply triple_bind (triple_mapError hread)
  intro run
  apply triple_assume
  intro hstatus
  refine triple_bind (Q := fun _ _ => False) (triple_mapError (triple_ofExcept ?_ (fun _ hs => hs)))
    (fun _ => ⟨fun _ hs => hs.elim⟩)
  intro _ _ hok
  rw [requireRunning, hstatus, if_neg (not_running hend)] at hok
  cases hok

theorem untaken_of_terminal {s : ServerState} (h : statusOf sent.request.runId s.db = some status)
    (hend : Terminal status) (fault : Option String) (faults : Faults) :
    Untaken s (httpIngestBatch env sent fault faults s).2 (httpIngestBatch env sent fault faults s).1 := by
  have hcases := receive_cases env sent fault s
  have htables := (IngestPipeline.leaves_receive env sent fault).shows s
  simp only [httpIngestBatch, bind, mapError]
  generalize receive env sent fault s = admitted at hcases htables ⊢
  rcases admitted with ⟨e | _ | p, s₁⟩
  · exact untaken_error (.http e) htables
  · exact ⟨fun _ hi => (Except.ok.inj hi).symm, htables⟩
  · have hsent : p.sent = sent := hcases.1
    have hstatus : statusOf p.sent.request.runId (IngestPipeline.tables s).1 = some status := by
      rw [hsent]
      exact h
    have hrefused : Ends (fun _ _ => False) (fun s' => IngestPipeline.tables s' = IngestPipeline.tables s)
        (settle env faults p s₁) := (settle_refused hstatus hend).ends s₁ htables
    change Untaken s (settle env faults p s₁).2 (settle env faults p s₁).1
    generalize settle env faults p s₁ = r at hrefused ⊢
    rcases r with ⟨e | i, s'⟩
    · exact untaken_error e hrefused
    · exact hrefused.elim

end Ingest

/-- The checks that the owner of a run passes. -/
def authorizeRun (flags : EndpointRbacTier → Bool) (auth : AuthContext) (run : RunRow) (action : String) :
    Answer Unit := do
  requireEndpointAccess auth flags .write (some run.projectId)
  requireUiRunOwner auth run
  requireApiKeyRunOwnerForMutation auth run action

theorem checked_authorizeRun {σ α : Type} (flags : EndpointRbacTier → Bool) (auth : AuthContext) (run : RunRow)
    (action : String) (f : Unit → Command σ HttpError α) :
    (Commands.ofExcept (requireEndpointAccess auth flags .write (some run.projectId)) >>= fun _ =>
      Commands.ofExcept (requireUiRunOwner auth run) >>= fun _ =>
        Commands.ofExcept (requireApiKeyRunOwnerForMutation auth run action) >>= f) =
      Commands.ofExcept (authorizeRun flags auth run action) >>= f := by
  rw [authorizeRun]
  cases requireEndpointAccess auth flags .write (some run.projectId) with
  | error e => rfl
  | ok u =>
      cases requireUiRunOwner auth run with
      | error e => rfl
      | ok u => rfl

/-- A request to make a run that is there already is turned away, which it is
for the caller or for a failure of the database. -/
def InitRefused (flags : EndpointRbacTier → Bool) (auth : AuthContext) (env : InitEnv) (run : RunRow) : Prop :=
  env.faults.runExists.isSome ∨
    env.faults.getRun = none ∧ (authorizeRun flags auth run "reinitialize").isOk = false

def FinishRefused (flags : EndpointRbacTier → Bool) (auth : AuthContext) (env : FinishEnv) (runId : String)
    (run : RunRow) : Prop :=
  (validatePathId runId "run_id").isOk = false ∨ env.faults.getRun.isSome ∨
    (authorizeRun flags auth run "finish").isOk = false ∨ env.retryAfter.isSome ∨ env.faults.finishRun.isSome

instance (flags : EndpointRbacTier → Bool) (auth : AuthContext) (env : InitEnv) (run : RunRow) :
    Decidable (InitRefused flags auth env run) := by
  unfold InitRefused
  infer_instance

instance (flags : EndpointRbacTier → Bool) (auth : AuthContext) (env : FinishEnv) (runId : String) (run : RunRow) :
    Decidable (FinishRefused flags auth env runId run) := by
  unfold FinishRefused
  infer_instance

section Init

variable {flags : EndpointRbacTier → Bool} {maxTagValueLen : Nat} {auth : AuthContext} {env : InitEnv}
  {req : InitRunHttpRequest} {runId status : String} {run : RunRow} {s : MetadataStore}

theorem onDb_keeps {ε α : Type} {I : Database → Prop} {x : Command Database ε α} (h : Keeps I x) :
    Keeps (fun s : MetadataStore => I s.db) (RunInit.onDb x) :=
  triple_zoom (fun _ _ => rfl) h

theorem keeps_insertRun (id projectId : String) (name : Option String) (tags params : List (String × String)) :
    Keeps (fun s : MetadataStore => statusOf runId s.db = some status)
      (insertRun auth env id projectId name tags params) := by
  have hleave : ∀ {ε α : Type} {x : Command Database ε α}, Leaves (statusOf runId) x →
      Keeps (fun s : MetadataStore => statusOf runId s.db = some status) (RunInit.onDb x) :=
    fun hx => onDb_keeps (hx.keeps (fun _ _ heq hs => heq.symm.trans hs))
  apply keeps_bind (triple_mapError (onDb_keeps keeps_createRun))
  intro _
  refine keeps_bind ⟨fun _ hs => hs⟩ (fun _ => keeps_bind (triple_mapError (hleave ?_)) (fun _ => keeps_bind
    (triple_mapError (hleave ?_)) (fun _ => ?_)))
  · split
    · exact leaves_pure _
    · exact leaves_setTags _ _ _
  · split
    · exact leaves_pure _
    · exact leaves_insertParams _ _ _
  · exact keeps_bind (keeps_attempt (hleave (leaves_insertRunEvents _ _ _)))
      (fun _ => triple_pure (fun _ hs => hs))

theorem keeps_httpInitRun : Keeps (fun s : MetadataStore => statusOf runId s.db = some status)
    (httpInitRun flags maxTagValueLen auth env req) := by
  have hsame : ∀ {ε α : Type} {x : Command MetadataStore ε α}, Leaves MetadataStore.db x →
      Keeps (fun s : MetadataStore => statusOf runId s.db = some status) x :=
    fun hx => hx.keeps (fun _ _ heq hs => heq ▸ hs)
  apply keeps_bind (keeps_attempt (hsame ⟨fun _ => rfl⟩))
  intro found
  split
  · exact hsame (leaves_existing flags auth env _)
  · apply keeps_bind (hsame (leaves_resolveProject env req))
    intro projectId
    refine keeps_bind (hsame (leaves_ofExcept _)) (fun _ => keeps_bind (hsame (leaves_ofExcept _)) (fun _ => ?_))
    refine keeps_bind (hsame (leaves_ofExcept _)) (fun _ => keeps_bind (hsame (leaves_ofExcept _)) (fun _ => ?_))
    exact keeps_insertRun _ _ _ _ _

theorem startRun_fails (hrun : s.db.findRun runId = some run) :
    ∃ e t, startRun flags maxTagValueLen auth env req runId s = (.error e, t) ∧ t.db = s.db := by
  have hsame : ∀ {ε α : Type} {x : Command MetadataStore ε α}, Leaves MetadataStore.db x →
      Keeps (fun t : MetadataStore => t.db = s.db) x :=
    fun hx => hx.keeps (fun _ _ heq hs => heq.symm.trans hs)
  have hcreate : Triple (fun t : MetadataStore => t.db = s.db)
      (startRun flags maxTagValueLen auth env req runId) (fun _ _ => False) (fun t => t.db = s.db) := by
    apply triple_bind (hsame (leaves_resolveProject env req))
    intro projectId
    refine triple_bind (hsame (leaves_ofExcept _)) (fun _ => triple_bind (hsame (leaves_ofExcept _)) (fun _ => ?_))
    refine triple_bind (hsame (leaves_ofExcept _))
      (fun tags => triple_bind (hsame (leaves_ofExcept _)) (fun params => ?_))
    refine triple_bind (Q := fun _ _ => False) (triple_mapError ?_) (fun _ => ⟨fun _ hs => hs.elim⟩)
    constructor
    intro t ht
    obtain ⟨e, he⟩ := createRun_fails (by rwa [← ht] at hrun : t.db.findRun runId =
      some run) env.faults.createRun projectId req.name
      (runCreator auth env.keyOwner).1 (runCreator auth env.keyOwner).2
    simp only [RunInit.onDb, zoom, he]
    exact ht
  have hends := hcreate.ends s rfl
  generalize startRun flags maxTagValueLen auth env req runId s = r at hends ⊢
  rcases r with ⟨e | a, t⟩
  · exact ⟨e, t, rfl, hends⟩
  · exact hends.elim

theorem httpInitRun_present (hrun : s.db.findRun (req.runId.getD env.generatedId) = some run) :
    (httpInitRun flags maxTagValueLen auth env req s).2.db = s.db := by
  have hfound : ∃ found, (attempt (runExists env.faults.runExists (req.runId.getD env.generatedId)) :
      Handler (Option Bool)) s = (.ok found, s) := by
    cases env.faults.runExists with
    | some text => exact ⟨none, rfl⟩
    | none => exact ⟨_, rfl⟩
  obtain ⟨found, hattempt⟩ := hfound
  rw [httpInitRun, bind_ok hattempt]
  split
  · exact (leaves_existing flags auth env _).shows s
  · obtain ⟨e, t, hstart, ht⟩ := @startRun_fails flags maxTagValueLen auth env req _ run s hrun
    rw [hstart]
    exact ht

theorem reinitialize_error_iff (hrun : s.db.findRun runId = some run) :
    (∃ e, ( reinitialize flags auth env runId s).1 = .error e) ↔
      env.faults.getRun = none ∧ (authorizeRun flags auth run "reinitialize").isOk = false := by
  cases hfault : env.faults.getRun with
  | some text =>
      have hread : (attempt (RunInit.onDb (getRun (some text) runId)) : Handler (Option RunRow)) s =
        (.ok none, s) := rfl
      rw [ reinitialize, hfault, bind_ok hread]
      constructor
      · rintro ⟨e, he⟩
        cases he
      · rintro ⟨h, -⟩
        cases h
  | none =>
      have hread : (attempt (RunInit.onDb (getRun none runId)) : Handler (Option RunRow)) s =
          (.ok (some run), s) := by
        simp only [attempt, RunInit.onDb, zoom, getRun_found hrun]
        rfl
      rw [ reinitialize, hfault, bind_ok hread]
      dsimp only
      rw [checked_authorizeRun]
      cases authorizeRun flags auth run "reinitialize" with
      | error e => exact ⟨fun _ => ⟨rfl, rfl⟩, fun _ => ⟨e, rfl⟩⟩
      | ok u =>
          constructor
          · rintro ⟨e, he⟩
            cases he
          · rintro ⟨-, h⟩
            cases h

theorem httpInitRun_error_iff (hrun : s.db.findRun (req.runId.getD env.generatedId) = some run) :
    (∃ e, (httpInitRun flags maxTagValueLen auth env req s).1 = .error e) ↔ InitRefused flags auth env run := by
  rw [httpInitRun, InitRefused]
  cases hexists : env.faults.runExists with
  | some text =>
      have hread : (attempt (runExists (some text) (req.runId.getD env.generatedId)) : Handler (Option Bool)) s =
        (.ok none, s) := rfl
      rw [bind_ok hread, if_neg (by simp)]
      obtain ⟨e, t, he, -⟩ := @startRun_fails flags maxTagValueLen auth env req _ run s hrun
      exact ⟨fun _ => .inl rfl, fun _ => ⟨e, congrArg Prod.fst he⟩⟩
  | none =>
      have hread : (attempt (runExists none (req.runId.getD env.generatedId)) : Handler (Option Bool)) s =
          (.ok (some true), s) := by
        simp only [attempt, runExists, RunInit.onDb, zoom, query, statement_none, hrun, Option.isSome_some]
        rfl
      rw [bind_ok hread, if_pos (show (some true).getD false = true from rfl), reinitialize_error_iff hrun]
      simp only [Option.isSome_none, Bool.false_eq_true, false_or]

end Init

def serverStatus (runId : String) (s : Server) : Option String := statusOf runId s.db

section Finish

variable {flags : EndpointRbacTier → Bool} {auth : AuthContext} {env : FinishEnv} {runId status : String}
    {run : RunRow}
  {s : Server}

theorem onDb_leaves {ε α γ : Type} {view : Database → γ} {x : Command Database ε α} (h : Leaves view x) :
    Leaves (fun s : Server => view s.db) (RunServer.onDb x) :=
  leaves_zoom (fun _ _ => rfl) h

theorem statusOf_finish (hrun : s.db.findRun runId = some run) :
    statusOf runId (RunServer.onDb (finishRun none runId status) s).2.db = some status := by
  refine (statusOf_setStatus s.db runId status runId).trans ?_
  rw [if_pos rfl, statusOf, hrun]
  rfl

theorem leaves_finishEvent (fault : Nat → Option String) (id status : String) :
    Leaves (serverStatus runId) (attempt (RunServer.onDb (RunTables.insertRunEvents fault id [finishEvent status])) :
      Command Server HttpError (Option Nat)) :=
  leaves_attempt (onDb_leaves (leaves_insertRunEvents _ _ _))

theorem statusOf_httpFinishRun (hrun : s.db.findRun runId = some run) :
    serverStatus runId (httpFinishRun flags auth env runId status s).2 =
      some (if FinishRefused flags auth env runId run then run.status else status) := by
  have hsame : serverStatus runId s = some run.status := by
    rw [serverStatus, statusOf, hrun]
    rfl
  have hrefused : FinishRefused flags auth env runId run →
      serverStatus runId s = some (if FinishRefused flags auth env runId run then run.status else status) := by
    intro h
    rw [if_pos h, hsame]
  cases hpath : validatePathId runId "run_id" with
  | error e =>
      rw [httpFinishRun, bind_ofExcept_error hpath]
      exact hrefused (.inl (by rw [hpath]; rfl))
  | ok u =>
      rw [httpFinishRun, bind_ofExcept_ok hpath]
      cases hget : env.faults.getRun with
      | some text => exact hrefused (.inr (.inl (by rw [hget]; rfl)))
      | none =>
          have hread : mapError runError (RunServer.onDb (getRun none runId)) s = (.ok run, s) := by
            apply mapError_ok
            simp only [RunServer.onDb, zoom, getRun_found hrun]
            rfl
          rw [bind_ok hread, checked_authorizeRun]
          cases hchecks : authorizeRun flags auth run "finish" with
          | error e =>
              rw [bind_ofExcept_error rfl]
              exact hrefused (.inr (.inr (.inl (by rw [hchecks]; rfl))))
          | ok u =>
              rw [bind_ofExcept_ok rfl]
              cases hwait : env.retryAfter with
              | some wait => exact hrefused (.inr (.inr (.inr (.inl (by rw [hwait]; rfl)))))
              | none =>
                  rw [checkRateLimit, bind_ofExcept_ok rfl]
                  cases hfinish : env.faults.finishRun with
                  | some text => exact hrefused (.inr (.inr (.inr (.inr (by rw [hfinish]; rfl)))))
                  | none =>
                      have hgoes : ¬ FinishRefused flags auth env runId run := by
                        simp [FinishRefused, hpath, hget, hchecks, hwait, hfinish, Except.isOk, Except.toBool]
                      rw [if_neg hgoes]
                      refine (bind_leaves (serverStatus runId) (fun _ => ?_) s).trans (statusOf_finish hrun)
                      refine leaves_bind ⟨fun _ => rfl⟩ (fun _ => ?_)
                      exact leaves_bind (leaves_finishEvent _ _ _) (fun _ => leaves_pure _)

theorem leaves_httpFinishRun {id : String} (hne : id ≠ runId) :
    Leaves (serverStatus runId) (httpFinishRun flags auth env id status) := by
  have hget : Leaves (serverStatus runId) (mapError runError (RunServer.onDb (getRun env.faults.getRun id))) :=
    leaves_mapError (onDb_leaves ((leaves_getRun _ _).map (statusOf runId)))
  have hset : Leaves (statusOf runId) (finishRun env.faults.finishRun id status) := by
    apply leaves_execute
    intro db _ db' hdb
    obtain ⟨-, rfl⟩ := Prod.mk.inj (Except.ok.inj hdb)
    rw [statusOf_setStatus, if_neg hne]
  apply leaves_bind (leaves_ofExcept _)
  intro _
  apply leaves_bind hget
  intro run
  refine leaves_bind (leaves_ofExcept _) (fun _ => leaves_bind (leaves_ofExcept _) (fun _ => ?_))
  refine leaves_bind (leaves_ofExcept _) (fun _ => leaves_bind (leaves_ofExcept _) (fun _ => ?_))
  apply leaves_bind (leaves_mapError (onDb_leaves hset))
  intro _
  refine leaves_bind ⟨fun _ => rfl⟩ (fun _ => ?_)
  exact leaves_bind (leaves_finishEvent _ _ _) (fun _ => leaves_pure _)

end Finish

section Server

variable (env : Env) (runId : String)

/-- A run that has ended is not made again and takes nothing that is sent to it. -/
def Refuses (s : Server) (op : Op) : Prop :=
  match op with
  | .init _ initEnv req => req.runId.getD initEnv.generatedId = runId → ∃ e, (step env s op).1 = .init (.error e)
  | .ingest sent _ _ => sent.request.runId = runId →
      (∀ i, (step env s op).1 = .ingest (.ok i) → i = duplicateAnswer) ∧
        (step env s op).2.db = s.db ∧ (step env s op).2.stream = s.stream
  | .process _ _ | .finish _ _ _ _ | .delete _ _ _ => True

/-- A run that has ended is asked for nothing but what it is, or in vain. -/
def Lawful (s : Server) (op : Op) : Prop :=
  ∀ run ∈ s.db.findRun runId, Terminal run.status → match op with
    | .init auth initEnv req =>
        req.runId.getD initEnv.generatedId = runId → InitRefused env.scopeFlags auth initEnv run
    | .finish auth finishEnv id status =>
        id = runId → status = run.status ∨ FinishRefused env.scopeFlags auth finishEnv id run
    | .ingest _ _ _ | .process _ _ | .delete _ _ _ => True

instance (env : Env) (runId : String) (s : Server) (op : Op) : Decidable (Lawful env runId s op) := by
  unfold Lawful
  cases op <;> infer_instance

/-- A request to make a run, to send to it or to finish it, or a step of the processor. -/
def isLifecycle : Op → Bool
  | .delete _ _ _ => false
  | .init _ _ _ | .ingest _ _ _ | .process _ _ | .finish _ _ _ _ => true

variable {env runId}

theorem leaves_processQueued (faults : ProcessFaults) (index : Nat) :
    Leaves (serverStatus runId) (processQueued faults index) := by
  constructor
  intro s
  rw [processQueued]
  split
  · exact (leaves_processBatch _ _).shows ⟨s.db, s.store.batches, s.points⟩
  · rfl

theorem stepAbsorbs_iff {s : Server} {op : Op} (hop : isLifecycle op) :
    StepAbsorbs (step env) (serverStatus runId) Terminal (Refuses env runId) s op ↔ Lawful env runId s op := by
  have hview : ∀ run, s.db.findRun runId = some run → serverStatus runId s = some run.status := by
    intro run hrun
    rw [serverStatus, statusOf, hrun]
    rfl
  have hsplit : StepAbsorbs (step env) (serverStatus runId) Terminal (Refuses env runId) s op ↔
      ∀ run, s.db.findRun runId = some run → Terminal run.status →
        serverStatus runId (step env s op).2 = some run.status ∧ Refuses env runId s op := by
    constructor
    · exact fun h run hrun hend => h _ (hview run hrun) hend
    · rintro h status hstatus hend
      obtain ⟨run, hrun, rfl⟩ := Option.map_eq_some_iff.mp hstatus
      exact h run hrun hend
  rw [hsplit]
  refine forall_congr' (fun run => forall_congr' (fun hrun => forall_congr' (fun hend => ?_)))
  cases op with
  | init auth initEnv req =>
      have hkeep : Keeps (fun s : MetadataStore => statusOf runId s.db = some run.status)
          (httpInitRun env.scopeFlags env.limits.maxTagValueLength auth initEnv req) := keeps_httpInitRun
      have hfirst : serverStatus runId (step env s (.init auth initEnv req)).2 = some run.status :=
        hkeep.after (fun _ _ h => h) (fun _ h => h) (hview run hrun)
      have herror : req.runId.getD initEnv.generatedId = runId →
          ((∃ e, (httpInitRun env.scopeFlags env.limits.maxTagValueLength auth initEnv req
            ⟨s.store.ui, s.store.runTables, s.times⟩).1 = .error e) ↔
              InitRefused env.scopeFlags auth initEnv run) :=
        fun hid => httpInitRun_error_iff (by rw [hid]; exact hrun)
      constructor
      · intro h hid
        obtain ⟨e, he⟩ := h.2 hid
        exact (herror hid).mp ⟨e, Reply.init.inj he⟩
      · refine fun h => ⟨hfirst, fun hid => ?_⟩
        obtain ⟨e, he⟩ := (herror hid).mpr (h hid)
        exact ⟨e, congrArg Reply.init he⟩
  | ingest sent fault faults =>
      refine iff_of_true ⟨?_, fun hid => ?_⟩ trivial
      · exact ((leaves_httpIngestBatch fault faults).shows
          ⟨s.store.runTables, s.idempotency, s.cardinality, s.stream⟩).trans (hview run hrun)
      · have hstatus : statusOf sent.request.runId s.db = some run.status := by
          rw [hid]
          exact hview run hrun
        have huntaken : Untaken ⟨s.store.runTables, s.idempotency, s.cardinality, s.stream⟩ _
            (httpIngestBatch env sent fault faults ⟨s.store.runTables, s.idempotency, s.cardinality, s.stream⟩).1 :=
          untaken_of_terminal hstatus hend fault faults
        exact ⟨fun i hi => huntaken.answer i (Reply.ingest.inj hi), congrArg Prod.fst huntaken.tables,
          congrArg Prod.snd huntaken.tables⟩
  | process faults index =>
      exact iff_of_true ⟨((leaves_processQueued faults index).shows s).trans (hview run hrun), trivial⟩ trivial
  | finish auth finishEnv id status =>
      by_cases hid : id = runId
      · subst hid
        have hstatus : serverStatus id (step env s (.finish auth finishEnv id status)).2 = _ :=
          statusOf_httpFinishRun hrun
        rw [hstatus]
        by_cases hrefused : FinishRefused env.scopeFlags auth finishEnv id run
        · rw [if_pos hrefused]
          exact iff_of_true ⟨rfl, trivial⟩ (fun _ => .inr hrefused)
        · rw [if_neg hrefused, Option.some.injEq]
          exact ⟨fun h _ => .inl h.1, fun h => ⟨(h rfl).resolve_right hrefused, trivial⟩⟩
      · exact iff_of_true ⟨((leaves_httpFinishRun hid).shows s).trans (hview run hrun), trivial⟩
          (fun h => absurd h hid)
  | delete auth faults id => exact absurd hop Bool.false_ne_true

end Server

section Grpc

open GrpcIngest (InMemoryStore RunStatus Timestamp leaves_logMetrics leaves_logParams leaves_logTags
  statusOf_finishRun statusOf_initRun)
open PayloadHash (F64)

def Ended (status : RunStatus) : Prop := status = .finished ∨ status = .failed ∨ status = .killed

instance (status : RunStatus) : Decidable (Ended status) := by
  unfold Ended
  infer_instance

variable (toSeconds : Timestamp → F64) (runId : String)

/-- A run that has ended is not resumed and accepts nothing. -/
def GrpcRefuses (s : InMemoryStore) (op : GrpcIngest.Op) : Prop :=
  match op with
  | .initRun generatedId req =>
      req.runId.getD generatedId = runId → ∃ e, (GrpcIngest.step toSeconds s op).1 = .initRun (.error e)
  | .logMetrics req => req.runId = some runId →
      (∀ a, (GrpcIngest.step toSeconds s op).1 = .logMetrics (.ok a) → a.acceptedCount = 0) ∧
        (GrpcIngest.step toSeconds s op).2.metrics = s.metrics
  | .logParams _ req => req.runId = some runId →
      ∀ a, (GrpcIngest.step toSeconds s op).1 = .logParams (.ok a) → a.acceptedCount = 0
  | .logTags req => req.runId = some runId →
      ∀ a, (GrpcIngest.step toSeconds s op).1 = .logTags (.ok a) → a.updatedCount = 0
  | .finishRun _ => True

def GrpcLawful (s : InMemoryStore) (op : GrpcIngest.Op) : Prop :=
  ∀ status ∈ GrpcIngest.statusOf runId s, Ended status → match op with
    | .initRun generatedId req => req.runId.getD generatedId = runId → req.projectId = none
    | .logMetrics _ => True
    | .logParams _ req => req.runId = some runId → req.params = []
    | .logTags req => req.runId = some runId → req.tags = []
    | .finishRun req => req.runId = some runId → RunStatus.ofWire req.status = status

instance (runId : String) (s : InMemoryStore) (op : GrpcIngest.Op) : Decidable (GrpcLawful runId s op) := by
  unfold GrpcLawful
  cases op <;> infer_instance

variable {toSeconds runId} {s : InMemoryStore}

theorem initRun_error_iff {generatedId : String} {req : GrpcIngest.InitRunRequest} {run : GrpcIngest.RunState}
    (hrun : s.runs (req.runId.getD generatedId) = some run) :
    (∃ e, (GrpcIngest.initRun generatedId req s).1 = .error e) ↔ req.projectId = none := by
  rw [GrpcIngest.initRun]
  cases req.projectId with
  | none => exact ⟨fun _ => rfl, fun _ => ⟨_, rfl⟩⟩
  | some projectId =>
      simp only [hrun]
      simp

/-- The points of a run that does not run are refused, or were seen before. -/
theorem logMetrics_refused {req : GrpcIngest.LogMetricsRequest} {run : GrpcIngest.RunState}
    (hreq : req.runId = some runId)
    (hrun : s.runs runId = some run) (hstatus : run.status ≠ .running) :
    (∀ a, (GrpcIngest.logMetrics toSeconds req s).1 = .ok a → a.acceptedCount = 0) ∧
      (GrpcIngest.logMetrics toSeconds req s).2.metrics = s.metrics := by
  by_cases hseen : GrpcIngest.batchKey runId req.batchId ∈ s.seenBatches
  · rw [GrpcIngest.logMetrics_seen hreq hseen]
    refine ⟨fun a ha => ?_, rfl⟩
    rw [← Except.ok.inj ha]
  · rw [GrpcIngest.logMetrics_stopped hreq hseen hrun hstatus]
    refine ⟨fun a ha => ?_, rfl⟩
    cases ha

theorem logParams_refused_iff {shadow : GrpcIngest.ShadowWrite} {req : GrpcIngest.LogParamsRequest}
    {run : GrpcIngest.RunState} (hreq : req.runId = some runId) (hrun : s.runs runId = some run) :
    (∀ a, (GrpcIngest.logParams shadow req s).1 = .ok a → a.acceptedCount = 0) ↔ req.params = [] := by
  have hwith := GrpcIngest.withRun_some (GrpcIngest.countParams req.params.length) hrun
  rw [GrpcIngest.logParams, hreq, bind_ofExcept_ok GrpcIngest.requireRunId_some, bind_ok hwith]
  constructor
  · intro h
    exact List.length_eq_zero_iff.mp ((Ingest.saturate_eq_zero (by decide)).mp (h _ rfl))
  · intro h a ha
    rw [← Except.ok.inj ha, h]
    rfl

theorem logTags_refused_iff {req : GrpcIngest.LogTagsRequest} {run : GrpcIngest.RunState}
    (hreq : req.runId = some runId)
    (hrun : s.runs runId = some run) :
    (∀ a, (GrpcIngest.logTags req s).1 = .ok a → a.updatedCount = 0) ↔ req.tags = [] := by
  have hwith := GrpcIngest.withRun_some (GrpcIngest.changeTags req.tags req.removeKeys) hrun
  rw [GrpcIngest.logTags, hreq, bind_ofExcept_ok GrpcIngest.requireRunId_some, hwith]
  constructor
  · intro h
    exact List.length_eq_zero_iff.mp (h _ rfl)
  · intro h a ha
    rw [← Except.ok.inj ha, h]
    rfl

theorem grpc_stepAbsorbs_iff {op : GrpcIngest.Op} :
    StepAbsorbs (GrpcIngest.step toSeconds) (GrpcIngest.statusOf runId) Ended (GrpcRefuses toSeconds runId) s op ↔
      GrpcLawful runId s op := by
  refine forall_congr' (fun status => forall_congr' (fun hstatus => forall_congr' (fun hend => ?_)))
  obtain ⟨run, hrun, hrunstatus⟩ := Option.map_eq_some_iff.mp hstatus
  cases op with
  | initRun generatedId req =>
      have herror : req.runId.getD generatedId = runId →
          ((∃ e, (GrpcIngest.initRun generatedId req s).1 = .error e) ↔ req.projectId = none) :=
        fun hid => initRun_error_iff (by rw [hid]; exact hrun)
      constructor
      · intro h hid
        obtain ⟨e, he⟩ := h.2 hid
        exact (herror hid).mp ⟨e, GrpcIngest.Reply.initRun.inj he⟩
      · refine fun h => ⟨statusOf_initRun generatedId req hstatus, fun hid => ?_⟩
        obtain ⟨e, he⟩ := (herror hid).mpr (h hid)
        exact ⟨e, congrArg GrpcIngest.Reply.initRun he⟩
  | logMetrics req =>
      have hstopped : run.status ≠ .running := by
        rw [hrunstatus]
        rintro rfl
        rcases hend with h | h | h <;> cases h
      refine iff_of_true ⟨((leaves_logMetrics req runId).shows s).trans hstatus, fun hreq => ?_⟩ trivial
      obtain ⟨haccepted, hmetrics⟩ := @logMetrics_refused toSeconds _ _ _ _ hreq hrun hstopped
      exact ⟨fun a ha => haccepted a (GrpcIngest.Reply.logMetrics.inj ha), hmetrics⟩
  | logParams shadow req =>
      have hkeep := ((leaves_logParams shadow req runId).shows s).trans hstatus
      constructor
      · intro h hreq
        exact (logParams_refused_iff hreq hrun).mp
          (fun a ha => h.2 hreq a (congrArg GrpcIngest.Reply.logParams ha))
      · refine fun h => ⟨hkeep, fun hreq a ha => ?_⟩
        exact (logParams_refused_iff hreq hrun).mpr (h hreq) a (GrpcIngest.Reply.logParams.inj ha)
  | logTags req =>
      have hkeep := ((leaves_logTags req runId).shows s).trans hstatus
      constructor
      · intro h hreq
        exact (logTags_refused_iff hreq hrun).mp (fun a ha => h.2 hreq a (congrArg GrpcIngest.Reply.logTags ha))
      · refine fun h => ⟨hkeep, fun hreq a ha => ?_⟩
        exact (logTags_refused_iff hreq hrun).mpr (h hreq) a (GrpcIngest.Reply.logTags.inj ha)
  | finishRun req =>
      have hnext : GrpcIngest.statusOf runId (GrpcIngest.step toSeconds s (.finishRun req)).2 = _ :=
        statusOf_finishRun req hstatus
      rw [hnext, Option.some.injEq]
      by_cases hreq : req.runId = some runId
      · rw [if_pos hreq]
        exact ⟨fun h _ => h.1, fun h => ⟨h hreq, trivial⟩⟩
      · rw [if_neg hreq]
        exact iff_of_true ⟨rfl, trivial⟩ (fun h => absurd h hreq)

end Grpc

/-- A run that has ended stays as it ended and takes nothing, over HTTP and over
gRPC, exactly when nobody finishes it with another status, makes it again, or, over
gRPC, sends parameters or tags to it. -/
theorem absorbs_iff_lawful (env : Env) (toSeconds : GrpcIngest.Timestamp → PayloadHash.F64) (runId : String)
    (s : Server) (store : GrpcIngest.InMemoryStore) (ops : List Op) (calls : List GrpcIngest.Op)
    (hops : ∀ op ∈ ops, isLifecycle op) :
    (Absorbs (step env) (serverStatus runId) Terminal (Refuses env runId) s ops ↔
      Guarded (step env) (fun _ => Lawful env runId) [] s ops) ∧
    (Absorbs (GrpcIngest.step toSeconds) (GrpcIngest.statusOf runId) Ended (GrpcRefuses toSeconds runId) store calls ↔
      Guarded (GrpcIngest.step toSeconds) (fun _ => GrpcLawful runId) [] store calls) := by
  constructor
  · rw [absorbs_iff []]
    induction ops generalizing s with
    | nil => exact Iff.rfl
    | cons op ops ih =>
        apply and_congr (stepAbsorbs_iff (hops op List.mem_cons_self))
        rw [guarded_past _ [], guarded_past (G := Lawful env runId) _ []]
        exact ih _ (fun op' hop' => hops op' (List.mem_cons_of_mem _ hop'))
  · rw [absorbs_iff []]
    apply guarded_congr (fun past s op _ => grpc_stepAbsorbs_iff)
    exact guarded_true _ _ _ _

def finishRun (runId status : String) : Op := .finish (.devMode 0) {} runId status

def grpcInit (runId : String) : GrpcIngest.Op := .initRun "g" ⟨some "p", some runId, none, []⟩

def grpcFinish (runId : String) (status : Int) : GrpcIngest.Op := .finishRun ⟨some runId, status⟩

def grpcLoss (runId : String) : GrpcIngest.Op := .logMetrics ⟨some runId, "b", some [⟨"loss", 1, 0, none⟩]⟩

theorem absorbs_finished_twice :
    Absorbs (step RetrySafety.devServer) (serverStatus "r") Terminal (Refuses RetrySafety.devServer "r")
      (.start projectStore)
      [initRun "r", finishRun "r" "finished", finishRun "r" "finished", .ingest RetrySafety.lossBatch none {}] ∧
    Absorbs (GrpcIngest.step (fun _ => 0)) (GrpcIngest.statusOf "r") Ended (GrpcRefuses (fun _ => 0) "r") .empty
      [grpcInit "r", grpcFinish "r" 2, grpcFinish "r" 2, grpcLoss "r"] :=
  have h := absorbs_iff_lawful RetrySafety.devServer (fun _ => 0) "r" (.start projectStore) .empty
    [initRun "r", finishRun "r" "finished", finishRun "r" "finished", .ingest RetrySafety.lossBatch none {}]
    [grpcInit "r", grpcFinish "r" 2, grpcFinish "r" 2, grpcLoss "r"] (by decide)
  ⟨h.1.mpr (by decide +kernel), h.2.mpr (by decide +kernel)⟩

theorem finished_run_goes_on :
    ¬ Absorbs (step RetrySafety.devServer) (serverStatus "r") Terminal (Refuses RetrySafety.devServer "r")
      (.start projectStore) [initRun "r", finishRun "r" "finished", finishRun "r" "running"] ∧
    ¬ Absorbs (GrpcIngest.step (fun _ => 0)) (GrpcIngest.statusOf "r") Ended (GrpcRefuses (fun _ => 0) "r") .empty
      [grpcInit "r", grpcFinish "r" 2, .logParams .off ⟨some "r", [("lr", "1")]⟩] := by
  constructor
  · intro h
    have hstatus : serverStatus "r" (after (step RetrySafety.devServer) (.start projectStore)
        [initRun "r", finishRun "r" "finished"]) = some "finished" := by decide +kernel
    have hends := (h [initRun "r", finishRun "r" "finished"] [finishRun "r" "running"] (List.prefix_refl _) "finished"
      hstatus (by decide)).1
    exact absurd hends (by decide +kernel)
  · intro h
    have hstatus : GrpcIngest.statusOf "r" (after (GrpcIngest.step (fun _ => 0)) .empty
        [grpcInit "r", grpcFinish "r" 2]) = some .finished := by decide +kernel
    have hrefuses := (h [grpcInit "r", grpcFinish "r" 2] [.logParams .off ⟨some "r", [("lr", "1")]⟩]
      (List.prefix_refl _) .finished hstatus (.inl rfl)).2.1 rfl
    exact absurd (hrefuses ⟨1, 0, []⟩ (by rfl)) Nat.one_ne_zero

end MLRunX.RunLifecycle
