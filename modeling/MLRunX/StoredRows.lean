import MLRunX.RunServer

namespace MLRunX.StoredRows

open Cardinality Commands Http Ingest IngestRequest Processor RunInit RunServer RunTables Runs Sqlite Statements Tables

/-- What the rows of each run may hold. -/
structure RowSpec where
  tag : String → String × String → Prop
  param : String → String × String → Prop
  metric : String → MetricRow → Prop

variable (R : RowSpec)

structure AllRows (db : Database) : Prop where
  tags : ∀ t ∈ db.tags.rows, R.tag t.runId (t.key, t.value)
  params : ∀ p ∈ db.params.rows, R.param p.runId (p.name, p.value)
  metrics : ∀ m ∈ db.metrics, R.metric m.1 m.2

/-- Rows that may be written for a run. -/
structure Allows (runId : String) (tags params : List (String × String)) (metrics : List MetricRow) : Prop where
  tags : ∀ t ∈ tags, R.tag runId t
  params : ∀ p ∈ params, R.param runId p
  metrics : ∀ m ∈ metrics, R.metric runId m

def AllQueued (stream : List QueuedIngestBatch) : Prop :=
  ∀ batch ∈ stream, Allows R batch.runId batch.tags batch.params batch.metrics

variable {R} {runId : String} {db : Database}

theorem allRows_empty : AllRows R .empty where
  tags := List.forall_mem_nil _
  params := List.forall_mem_nil _
  metrics := List.forall_mem_nil _

theorem AllRows.setTag (h : AllRows R db) {tag : String × String} (htag : R.tag runId tag) :
    AllRows R (db.setTag runId tag) where
  tags t ht := by
    rcases List.mem_append.mp ht with ht | ht
    · exact h.tags t (List.mem_filter.mp ht).1
    · rw [List.mem_singleton.mp ht]
      exact htag
  params := h.params
  metrics := h.metrics

theorem AllRows.setParam (h : AllRows R db) {param : String × String} (hparam : R.param runId param) :
    AllRows R (db.setParam runId param) where
  tags := h.tags
  params p hp := by
    rcases List.mem_append.mp hp with hp | hp
    · exact h.params p (List.mem_filter.mp hp).1
    · rw [List.mem_singleton.mp hp]
      exact hparam
  metrics := h.metrics

theorem AllRows.addMetric (h : AllRows R db) {metric : MetricRow} (hmetric : R.metric runId metric) :
    AllRows R (db.addMetric runId metric) where
  tags := h.tags
  params := h.params
  metrics m hm := by
    rcases List.mem_append.mp hm with hm | hm
    · exact h.metrics m hm
    · rw [List.mem_singleton.mp hm]
      exact hmetric

theorem AllRows.of_sublists (h : AllRows R db) {db' : Database} (htags : ∀ t ∈ db'.tags.rows, t ∈ db.tags.rows)
    (hparams : ∀ p ∈ db'.params.rows, p ∈ db.params.rows) (hmetrics : ∀ m ∈ db'.metrics, m ∈ db.metrics) :
    AllRows R db' where
  tags t ht := h.tags t (htags t ht)
  params p hp := h.params p (hparams p hp)
  metrics m hm := h.metrics m (hmetrics m hm)

/-! What the statements keep. -/

section Statements

theorem keeps_setTags (faults : Nat → Option String) {tags : List (String × String)}
    (h : ∀ t ∈ tags, R.tag runId t) :
    Keeps (AllRows R) (setTags faults runId tags) :=
  keeps_executeEach faults (fun tag htag _ hdb => hdb.setTag (h tag htag))

theorem keeps_countParams (fault : Option String) :
    Keeps (AllRows R) (execute fault (fun db => .ok ((), db.countParams runId))) := by
  apply keeps_execute
  intro db _ db' h hwrite
  obtain ⟨-, rfl⟩ := Prod.mk.inj (Except.ok.inj hwrite)
  exact ⟨h.tags, h.params, h.metrics⟩

theorem keeps_insertParams (faults : Nat → Option String) {params : List (String × String)}
    (h : ∀ p ∈ params, R.param runId p) : Keeps (AllRows R) (insertParams faults runId params) := by
  refine keeps_bind (keeps_executeEach faults (fun param hparam _ hdb => hdb.setParam (h param hparam)))
    (fun _ => ?_)
  exact keeps_bind (keeps_countParams _) (fun _ => triple_pure (fun _ hdb => hdb))

theorem keeps_insertMetrics (faults : Nat → Option String) {metrics : List MetricRow}
    (h : ∀ m ∈ metrics, R.metric runId m) : Keeps (AllRows R) (insertMetrics faults runId metrics) :=
  keeps_bind (keeps_executeEach faults (fun metric hmetric _ hdb => hdb.addMetric (h metric hmetric)))
    (fun _ => triple_pure (fun _ hdb => hdb))

theorem keeps_incrementMetricsCount (fault : Option String) (count : Int) :
    Keeps (AllRows R) (incrementMetricsCount fault runId count) := by
  apply keeps_execute
  intro db _ db' h hwrite
  obtain ⟨-, rfl⟩ := Prod.mk.inj (Except.ok.inj hwrite)
  exact ⟨h.tags, h.params, h.metrics⟩

theorem keeps_insertRunEvents (faults : Nat → Option String) (events : List RunEventInput) :
    Keeps (AllRows R) (insertRunEvents faults runId events) := by
  refine keeps_bind (keeps_executeEach faults (fun _ _ _ hdb => ⟨hdb.tags, hdb.params, hdb.metrics⟩)) (fun _ => ?_)
  refine keeps_bind ?_ (fun _ => triple_pure (fun _ hdb => hdb))
  exact (leaves_stampRun _ _).keeps (fun db db' (h : db = db') hdb => h ▸ hdb)

theorem keeps_createRun (fault : Option String) (projectId : String) (name keyId userId : Option String) :
    Keeps (AllRows R) (createRun fault runId projectId name keyId userId) := by
  apply keeps_execute
  intro db _ db' h hwrite
  split at hwrite
  · obtain ⟨-, rfl⟩ := Prod.mk.inj (Except.ok.inj hwrite)
    exact ⟨h.tags, h.params, h.metrics⟩
  · cases hwrite

theorem keeps_finishRun (fault : Option String) (status : String) :
    Keeps (AllRows R) (finishRun fault runId status) := by
  apply keeps_execute
  intro db _ db' h hwrite
  obtain ⟨-, rfl⟩ := Prod.mk.inj (Except.ok.inj hwrite)
  exact ⟨h.tags, h.params, h.metrics⟩

theorem keeps_getRun (fault : Option String) : Keeps (AllRows R) (getRun fault runId) :=
  (leaves_getRun fault runId).keeps (fun db db' (h : db = db') hdb => h ▸ hdb)

theorem keeps_deleteRun (faults : Nat → Option String) : Keeps (AllRows R) (RunTables.deleteRun faults runId) := by
  have hsub : ∀ {α : Type} {fault : Option String} {f : Database → Sql (α × Database)},
      (∀ db a db', f db = .ok (a, db') → (∀ t ∈ db'.tags.rows, t ∈ db.tags.rows) ∧
        (∀ p ∈ db'.params.rows, p ∈ db.params.rows) ∧ ∀ m ∈ db'.metrics, m ∈ db.metrics) →
      Keeps (AllRows R) (execute fault f) := by
    intro α fault f hf
    apply keeps_execute
    intro db a db' h hwrite
    obtain ⟨htags, hparams, hmetrics⟩ := hf db a db' hwrite
    exact h.of_sublists htags hparams hmetrics
  have hlast : ∀ n : Nat, Keeps (AllRows R)
      (if n = 0 then fail (.notFound s!"Run not found: {runId}") else pure () : RunTables.Statement Unit) := by
    intro n
    split
    · exact triple_fail (fun _ h => h)
    · exact triple_pure (fun _ h => h)
  refine keeps_bind (hsub ?_) (fun _ => keeps_bind (hsub ?_) (fun _ => keeps_bind (hsub ?_) (fun _ =>
    keeps_bind (hsub ?_) (fun _ => keeps_bind (hsub ?_) (fun _ => keeps_bind (hsub ?_) (fun _ =>
      keeps_bind (hsub ?_) (fun _ => keeps_bind (hsub ?_) hlast)))))))
  all_goals
    rintro db a db' hwrite
    obtain ⟨-, rfl⟩ := Prod.mk.inj (Except.ok.inj hwrite)
    refine ⟨?_, ?_, ?_⟩ <;> intro row hrow <;> first | exact hrow | exact (List.mem_filter.mp hrow).1

end Statements

/-! What the handlers keep. -/

section Handlers

theorem keeps_unless {ε : Type} {I : Database → Prop} {c : Prop} [Decidable c] {x : Command Database ε Unit}
    (h : Keeps I x) : Keeps I (if c then pure () else x) :=
  triple_ite (fun _ => triple_pure (fun _ hdb => hdb)) (fun _ => h)

theorem keeps_persist (faults : PersistFaults) {contents : Contents}
    (h : Allows R runId contents.tags contents.params contents.metrics) :
    Keeps (AllRows R) (persistIngestBatchToSqlite faults runId contents) := by
  have hmetrics : Keeps (AllRows R) (persistMetrics faults runId contents.metrics) :=
    keeps_unless (keeps_bind (triple_mapError (keeps_insertMetrics _ h.metrics))
      (fun _ => triple_mapError (keeps_incrementMetricsCount _ _)))
  have htags : Keeps (AllRows R) (persistTags faults runId contents.tags) :=
    keeps_unless (triple_mapError (keeps_setTags _ h.tags))
  have hparams : Keeps (AllRows R) (persistParams faults runId contents.params) :=
    keeps_unless (keeps_bind (triple_mapError (keeps_insertParams _ h.params)) (fun _ =>
      triple_pure (fun _ hdb => hdb)))
  have hevents : Keeps (AllRows R) (persistEvents faults runId contents.events) := by
    rw [persistEvents]
    exact triple_ite (fun _ => triple_pure (fun _ hdb => hdb))
      (fun _ => triple_mapError (keeps_insertRunEvents _ _))
  have hwarnings : Keeps (AllRows R) (persistWarnings faults runId contents.warnings) := by
    rw [persistWarnings]
    refine triple_ite (fun _ => triple_pure (fun _ hdb => hdb)) (fun _ => ?_)
    exact keeps_bind (keeps_attempt (keeps_insertRunEvents _ _)) (fun _ => triple_pure (fun _ hdb => hdb))
  exact keeps_bind hmetrics (fun _ =>
      keeps_bind htags (fun _ => keeps_bind hparams (fun _ => keeps_bind hevents (fun _ =>
    keeps_bind hwarnings (fun _ => triple_pure (fun _ hdb => hdb))))))

theorem keeps_sqlite {α : Type} {I : Database → Prop} {x : Command Database SqliteError α} (h : Keeps I x) :
    Keeps (fun s : ProcessorStore => I s.db) (sqlite x) :=
  triple_mapError (triple_zoom (fun _ _ => rfl) h)

theorem keeps_program {I : ProcessorStore → Prop} {c : Prop} [Decidable c] {x : Program Unit} (h : Keeps I x) :
    Keeps I (if c then pure () else x) :=
  triple_ite (fun _ => triple_pure (fun _ hs => hs)) (fun _ => h)

theorem keeps_processBatch (faults : ProcessFaults) {batch : QueuedIngestBatch}
    (h : Allows R batch.runId batch.tags batch.params batch.metrics) :
    Keeps (fun s : ProcessorStore => AllRows R s.db) (processBatch faults batch) := by
  have hleave : ∀ {ε α : Type} {x : Command ProcessorStore ε α}, Leaves ProcessorStore.db x →
      Keeps (fun s => AllRows R s.db) x := fun hx => hx.keeps (fun _ _ heq hs => heq ▸ hs)
  have hmetrics : Keeps (fun s : ProcessorStore => AllRows R s.db) (storeMetrics faults batch) :=
    keeps_program (keeps_bind (keeps_sqlite (keeps_insertMetrics _ h.metrics))
      (fun _ => keeps_sqlite (keeps_incrementMetricsCount _ _)))
  have hpoints : Keeps (fun s : ProcessorStore => AllRows R s.db) (storePoints faults batch) := by
    refine keeps_program (hleave ⟨fun s => ?_⟩)
    simp only [insertBatch]
    split <;> rfl
  have htags : Keeps (fun s : ProcessorStore => AllRows R s.db) (storeTags faults batch) :=
    keeps_program (keeps_sqlite (keeps_setTags _ h.tags))
  have hparams : Keeps (fun s : ProcessorStore => AllRows R s.db) (storeParams faults batch) :=
    keeps_program (keeps_bind (keeps_sqlite (keeps_insertParams _ h.params)) (fun _ => triple_pure (fun _ hs => hs)))
  have hevents : Keeps (fun s : ProcessorStore => AllRows R s.db) (storeEvents faults batch) :=
    keeps_program (keeps_bind (keeps_sqlite (keeps_insertRunEvents _ _)) (fun _ => triple_pure (fun _ hs => hs)))
  have hrecord : ∀ row, Leaves ProcessorStore.db (recordBatch faults.recordBatch row) := by
    intro row
    apply leaves_execute
    intro s a s' hwrite
    split at hwrite
    · obtain ⟨-, rfl⟩ := Prod.mk.inj (Except.ok.inj hwrite)
      rfl
    · cases hwrite
  have hrest : Keeps (fun s : ProcessorStore => AllRows R s.db) (storeRest faults batch) :=
    keeps_bind hpoints (fun _ => keeps_bind htags (fun _ => keeps_bind hparams (fun _ => hevents)))
  have happly : Keeps (fun s : ProcessorStore => AllRows R s.db) (applyBatch faults batch) :=
    keeps_bind hmetrics (fun _ => keeps_bind hrest (fun _ => triple_mapError (hleave (hrecord _))))
  refine keeps_bind (keeps_attempt (hleave (leaves_query _ _))) (fun found => ?_)
  exact triple_ite (fun _ => triple_pure (fun _ hs => hs)) (fun _ => happly)

variable {flags : Auth.EndpointRbacTier → Bool} {maxTagValueLen : Nat} {auth : Auth.AuthContext} {initEnv : InitEnv}
  {req : InitRunHttpRequest}

/-- The rows that a request for a run writes at its start. -/
structure InitAllows (R : RowSpec) (maxTagValueLen : Nat) (runId : String) (req : InitRunHttpRequest) : Prop where
  tags : ∀ tags, req.tags.mapM (validateInitTag maxTagValueLen) = .ok tags → ∀ t ∈ tags, R.tag runId t
  params : ∀ params, req.config.mapM validateInitParam = .ok params → ∀ p ∈ params, R.param runId p

theorem keeps_onDb {ε α : Type} {I : Database → Prop} {x : Command Database ε α} (h : Keeps I x) :
    Keeps (fun s : MetadataStore => I s.db) (RunInit.onDb x) :=
  triple_zoom (fun _ _ => rfl) h

theorem keeps_insertRun {projectId : String} {name : Option String} {tags params : List (String × String)}
    (htags : ∀ t ∈ tags, R.tag runId t) (hparams : ∀ p ∈ params, R.param runId p) :
    Keeps (fun s : MetadataStore => AllRows R s.db) (insertRun auth initEnv runId projectId name tags params) := by
  refine keeps_bind (triple_mapError (keeps_onDb (keeps_createRun _ _ _ _ _))) (fun _ => ?_)
  refine keeps_bind ⟨fun _ hs => hs⟩ (fun _ => keeps_bind (triple_mapError (keeps_onDb ?_)) (fun _ => ?_))
  · exact triple_ite (fun _ => triple_pure (fun _ hs => hs)) (fun _ => keeps_setTags _ htags)
  refine keeps_bind (triple_mapError (keeps_onDb ?_)) (fun _ => ?_)
  · exact triple_ite (fun _ => triple_pure (fun _ hs => hs)) (fun _ => keeps_insertParams _ hparams)
  exact keeps_bind (keeps_attempt (keeps_onDb (keeps_insertRunEvents _ _))) (fun _ => triple_pure (fun _ hs => hs))

theorem keeps_httpInitRun (h : InitAllows R maxTagValueLen (req.runId.getD initEnv.generatedId) req) :
    Keeps (fun s : MetadataStore => AllRows R s.db) (httpInitRun flags maxTagValueLen auth initEnv req) := by
  have hleave : ∀ {ε α : Type} {x : Command MetadataStore ε α}, Leaves MetadataStore.db x →
      Keeps (fun s => AllRows R s.db) x := fun hx => hx.keeps (fun _ _ heq hs => heq ▸ hs)
  refine keeps_bind (hleave (leaves_attempt ⟨fun _ => rfl⟩)) (fun found => ?_)
  refine triple_ite (fun _ => hleave (leaves_existing _ _ _ _)) (fun _ => ?_)
  refine keeps_bind (hleave (leaves_resolveProject _ _)) (fun projectId => ?_)
  refine keeps_bind (hleave (leaves_ofExcept _)) (fun _ => keeps_bind (hleave (leaves_ofExcept _)) (fun _ => ?_))
  refine triple_bind (triple_ofExcept (Q := fun tags s => AllRows R s.db ∧ ∀ t ∈ tags, R.tag _ t)
    (fun tags s htags hs => ⟨hs, h.tags tags htags⟩) (fun _ hs => hs)) (fun tags => triple_assume (fun htags => ?_))
  refine triple_bind (triple_ofExcept (Q := fun params s => AllRows R s.db ∧ ∀ p ∈ params, R.param _ p)
    (fun params s hparams hs => ⟨hs, h.params params hparams⟩) (fun _ hs => hs)) (fun params =>
      triple_assume (fun hparams => ?_))
  exact keeps_insertRun htags hparams

section Ingest

variable {env : Env} {sent : Sent}

/-- What the tables and the stream hold. -/
structure Holds (R : RowSpec) (db : Database) (stream : List QueuedIngestBatch) : Prop where
  db : AllRows R db
  stream : AllQueued R stream

/-- The rows that a request is let write or queue, by what the tracker knows. -/
def IngestAllows (R : RowSpec) (env : Env) (sent : Sent) (tracker : CardinalityTracker) : Prop :=
  ∀ p validation tracker', p.sent = sent →
    validateRequest env.limits.maxTagValueLength sent.request.toPayload = .ok p.batch →
    validateBatch env.limits p.projectId sent.request.runId p.batch.tags (p.batch.metrics.map MetricRow.name) tracker =
      (.ok validation, tracker') →
    Allows R sent.request.runId (prepareContents env p validation).tags (prepareContents env p validation).params
      (prepareContents env p validation).metrics

def besidesBatches (s : ServerState) : Database × List QueuedIngestBatch × CardinalityTracker :=
  (s.db, s.stream, s.cardinality)

theorem leaves_readRun (fault : Option String) (runId : String) : Leaves besidesBatches (readRun fault runId) := by
  apply leaves_mapError
  constructor
  intro s
  exact congrArg (fun db => (db, s.stream, s.cardinality)) ((leaves_getRun fault runId).shows s.db)

theorem leaves_receive (env : Env) (sent : Sent) (fault : Option String) :
    Leaves besidesBatches (receive env sent fault) := by
  refine leaves_bind (leaves_readRun fault _) (fun run => ?_)
  refine leaves_bind (leaves_ofExcept _) (fun _ => leaves_bind (leaves_ofExcept _) (fun batch => ?_))
  exact leaves_bind ⟨fun _ => rfl⟩ (fun result => leaves_ofExcept _)

theorem receive_process {fault : Option String} {s s' : ServerState} {p : Pending}
    (h : receive env sent fault s = (.ok (.process p), s')) :
    p.sent = sent ∧ validateRequest env.limits.maxTagValueLength sent.request.toPayload = .ok p.batch := by
  have hcases := receive_cases env sent fault s
  rw [h] at hcases
  exact ⟨hcases.1, hcases.2.1⟩

theorem keeps_deliver (faults : Faults) {p : Pending} {contents : Contents}
    (h : Allows R p.sent.request.runId contents.tags contents.params contents.metrics) :
    Keeps (fun s : ServerState => Holds R s.db s.stream) (deliver env faults p contents) := by
  rw [deliver]
  refine triple_ite (fun _ => keeps_bind (triple_mapError ?_) (fun _ => triple_pure (fun _ hs => hs)))
    (fun _ => ?_)
  · apply triple_of_after
    intro s hs
    have hqueued : AllQueued R (s.stream ++ [buildQueuedIngestBatch p contents faults.queuedAt]) := by
      intro batch hbatch
      rcases List.mem_append.mp hbatch with hbatch | hbatch
      · exact hs.stream batch hbatch
      · rw [List.mem_singleton.mp hbatch]
        exact h
    refine ⟨hs.db, ?_⟩
    change AllQueued R (enqueue faults.enqueue (buildQueuedIngestBatch p contents faults.queuedAt) s.stream).2
    rw [enqueue.eq_def]
    split
    · exact hqueued
    · dsimp only
      split
      · exact hqueued
      · exact hs.stream
  · apply triple_of_after
    intro s hs
    exact ⟨(keeps_persist faults.persist h).after (fun _ _ hdb => hdb) (fun _ hdb => hdb) hs.db, hs.stream⟩

theorem holds_settle {faults : Faults} {p : Pending} {s : ServerState} (hsent : p.sent = sent)
    (hbatch : validateRequest env.limits.maxTagValueLength sent.request.toPayload = .ok p.batch)
    (hallows : IngestAllows R env sent s.cardinality) (h : Holds R s.db s.stream) :
    Holds R (settle env faults p s).2.db (settle env faults p s).2.stream := by
  subst hsent
  let I : ServerState → Prop := fun s => Holds R s.db s.stream
  have hvalidate : Triple (fun s' => s' = s) (mapError (fun _ => Failure.panic) (onTracker (validateBatch env.limits
      p.projectId p.sent.request.runId p.batch.tags (p.batch.metrics.map MetricRow.name))))
      (fun validation s' => I s' ∧ Allows R p.sent.request.runId (prepareContents env p validation).tags
        (prepareContents env p validation).params (prepareContents env p validation).metrics) I := by
    apply triple_mapError
    constructor
    intro s' hs'
    rw [hs']
    have hvalid := hallows p
    rw [onTracker, zoom]
    generalize validateBatch env.limits p.projectId p.sent.request.runId p.batch.tags
      (p.batch.metrics.map MetricRow.name) s.cardinality = r at hvalid ⊢
    rcases r with ⟨e | validation, tracker⟩
    · exact h
    · exact ⟨h, hvalid validation tracker rfl hbatch rfl⟩
  have hread : ∀ fault, Keeps I (mapError Failure.http (readRun fault p.sent.request.runId)) := by
    intro fault
    apply (leaves_mapError (leaves_readRun fault _)).keeps
    intro s₁ s₂ heq hs
    obtain ⟨hdb, hrest⟩ := Prod.mk.inj heq
    change Holds R s₂.db s₂.stream
    rw [← hdb, ← (Prod.mk.inj hrest).1]
    exact hs
  have hsettle : Triple (fun s' => s' = s) (settle env faults p) (fun _ => I) I := by
    refine triple_bind hvalidate (fun validation => triple_assume (fun hallow => ?_))
    refine keeps_bind (hread _) (fun run =>
      keeps_bind (triple_mapError (triple_ofExcept (fun _ _ _ hs => hs) (fun _ hs => hs)))
      (fun _ => ?_))
    exact keeps_bind (triple_mapError (keeps_deliver faults hallow)) (fun _ => triple_pure (fun _ hs => hs))
  exact hsettle.after (fun _ _ hs => hs) (fun _ hs => hs) rfl

theorem holds_httpIngestBatch {fault : Option String} {faults : Faults} {s : ServerState}
    (hallows : IngestAllows R env sent s.cardinality) (h : Holds R s.db s.stream) :
    Holds R (httpIngestBatch env sent fault faults s).2.db (httpIngestBatch env sent fault faults s).2.stream := by
  generalize hr : receive env sent fault s = r
  have hleft := (leaves_receive env sent fault).shows s
  rw [hr] at hleft
  obtain ⟨hdb, hrest⟩ := Prod.mk.inj hleft
  obtain ⟨hstream, htracker⟩ := Prod.mk.inj hrest
  rw [← hdb, ← hstream] at h
  rw [← htracker] at hallows
  rcases r with ⟨e | admitted, s'⟩
  · have hend : httpIngestBatch env sent fault faults s = (.error (.http e), s') := by
      apply bind_error
      simp only [mapError, hr]
      rfl
    rw [hend]
    exact h
  · cases admitted with
    | duplicate =>
        have hend : httpIngestBatch env sent fault faults s = (.ok duplicateAnswer, s') := bind_ok (mapError_ok hr)
        rw [hend]
        exact h
    | process p =>
        have hend : httpIngestBatch env sent fault faults s = settle env faults p s' := bind_ok (mapError_ok hr)
        rw [hend]
        obtain ⟨hsent, hbatch⟩ := receive_process hr
        exact holds_settle hsent hbatch hallows h

end Ingest

section Server

/-- The rows that a step of the server is let write. -/
def StepAllows (R : RowSpec) (env : Env) (s : Server) : Op → Prop
  | .init _ initEnv req => InitAllows R env.limits.maxTagValueLength (req.runId.getD initEnv.generatedId) req
  | .ingest sent _ _ => IngestAllows R env sent s.cardinality
  | _ => True

theorem keeps_serverDb {ε α : Type} {x : Command Database ε α} (h : Keeps (AllRows R) x) :
    Keeps (fun s : Server => AllRows R s.db) (RunServer.onDb x) :=
  triple_zoom (fun _ _ => rfl) h

theorem keeps_httpFinishRun {env : FinishEnv} {status : String} :
    Keeps (fun s : Server => AllRows R s.db) (httpFinishRun flags auth env runId status) := by
  have hcheck : ∀ {ε α : Type} (r : Except ε α), Keeps (fun s : Server => AllRows R s.db) (ofExcept r) :=
    fun r => triple_ofExcept (fun _ _ _ hs => hs) (fun _ hs => hs)
  refine keeps_bind (hcheck _) (fun _ => keeps_bind (triple_mapError (keeps_serverDb (keeps_getRun _))) (fun run => ?_))
  refine keeps_bind (hcheck _) (fun _ => keeps_bind (hcheck _) (fun _ => keeps_bind (hcheck _) (fun _ => ?_)))
  refine keeps_bind (hcheck _) (fun _ =>
    keeps_bind (triple_mapError (keeps_serverDb (keeps_finishRun _ _))) (fun _ => ?_))
  refine keeps_bind ⟨fun _ hs => hs⟩ (fun _ => keeps_bind ?_ (fun _ => triple_pure (fun _ hs => hs)))
  exact keeps_attempt (keeps_serverDb (keeps_insertRunEvents _ _))

theorem keeps_storeDelete (faults : Nat → Option String) :
    Keeps (fun s : Server => AllRows R s.db) (RunServer.onStore (Mutators.deleteRun runId faults)) := by
  apply triple_of_after
  intro s hs
  have hsame : (Mutators.deleteRun runId faults s.store).2.runTables = (RunTables.deleteRun faults runId s.db).2 :=
    (congrArg Prod.snd ((Mutators.deleteRun_refines runId faults).same s.store)).symm
  change AllRows R (Mutators.deleteRun runId faults s.store).2.runTables
  rw [hsame]
  exact (keeps_deleteRun faults).after (fun _ _ hdb => hdb) (fun _ hdb => hdb) hs

theorem keeps_httpDeleteRun {faults : DeleteFaults} :
    Keeps (fun s : Server => AllRows R s.db) (httpDeleteRun flags auth faults runId) := by
  have hcheck : ∀ {ε α : Type} (r : Except ε α), Keeps (fun s : Server => AllRows R s.db) (ofExcept r) :=
    fun r => triple_ofExcept (fun _ _ _ hs => hs) (fun _ hs => hs)
  refine keeps_bind (hcheck _) (fun _ => keeps_bind (triple_mapError (keeps_serverDb (keeps_getRun _))) (fun run => ?_))
  refine keeps_bind (hcheck _) (fun _ => keeps_bind (hcheck _) (fun _ => keeps_bind (hcheck _) (fun _ => ?_)))
  exact triple_mapError (keeps_storeDelete _)

theorem allRows_processQueued {s : Server} (faults : ProcessFaults) {index : Nat} (h : AllRows R s.db)
    (hbatch : ∀ batch, s.stream[index]? = some batch → Allows R batch.runId batch.tags batch.params batch.metrics) :
    AllRows R (processQueued faults index s).2.db := by
  rw [processQueued]
  split
  · rename_i batch hget
    have hkeep := keeps_processBatch (ownedFaults s.db batch faults) (hbatch batch hget)
    exact hkeep.after (fun _ _ hs => hs) (fun _ hs => hs) h
  · exact h

/-- A step writes what its request is let write, besides what is queued. -/
theorem holds_step {env : Env} {s : Server} {op : Op} (h : Holds R s.db s.stream) (hop : StepAllows R env s op) :
    Holds R (step env s op).2.db (step env s op).2.stream := by
  cases op with
  | init auth initEnv req =>
      exact ⟨(keeps_httpInitRun hop).after (fun _ _ hs => hs) (fun _ hs => hs) h.db, h.stream⟩
  | ingest sent fault faults => exact holds_httpIngestBatch hop h
  | process faults index =>
      have hstream : (processQueued faults index s).2.stream = s.stream :=
        processQueued_view Server.stream (fun _ _ _ => rfl) _ _ _
      refine ⟨allRows_processQueued faults h.db (fun batch hget => h.stream batch (List.mem_of_getElem? hget)), ?_⟩
      exact hstream.symm ▸ h.stream
  | finish auth finishEnv runId status =>
      have hstream : (step env s (.finish auth finishEnv runId status)).2.stream = s.stream :=
        (leaves_httpFinishRun Server.stream (fun _ _ _ => rfl) _ _ _).shows s
      exact ⟨keeps_httpFinishRun.after (fun _ _ hs => hs) (fun _ hs => hs) h.db, hstream.symm ▸ h.stream⟩
  | delete auth faults runId =>
      have hstream : (step env s (.delete auth faults runId)).2.stream = s.stream :=
        (leaves_httpDeleteRun Server.stream (fun _ _ _ => rfl) _ _).shows s
      exact ⟨keeps_httpDeleteRun.after (fun _ _ hs => hs) (fun _ hs => hs) h.db, hstream.symm ▸ h.stream⟩

theorem holds_start (store : Mutators.SqliteStore) : Holds R (Server.start store).db (Server.start store).stream :=
  ⟨allRows_empty, List.forall_mem_nil _⟩

end Server

end Handlers

end MLRunX.StoredRows
