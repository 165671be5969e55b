import MLRunX.ProcessorLoop
import MLRunX.RetrySafety

namespace MLRunX.IngestPaths

open Commands Ingest IngestRequest Processor ProcessorLoop QueuedIngest RunTables Sqlite Statements

/-- All floating point numbers in it are finite. -/
structure Finite (contents : Contents) : Prop where
  metrics : ∀ m ∈ contents.metrics, isFiniteMetric m = true
  events : ∀ e ∈ contents.events, e.timestamp.all PayloadHash.F64.isFinite = true

def allEvents (contents : Contents) : List RunEventInput := contents.events ++ contents.warnings.map warningEvent

/-- The tables with a batch and its warnings in them. -/
def ingestAll (runId : String) (contents : Contents) (db : Database) : Database :=
  (Database.ingestParams runId contents.params
    ((Database.ingestMetrics runId contents.metrics db).setTags runId contents.tags)).addEvents runId
      (allEvents contents)

theorem addEvents_append (runId : String) (events events' : List RunEventInput) (db : Database) :
    db.addEvents runId (events ++ events') = (db.addEvents runId events).addEvents runId events' := by
  simp [Database.addEvents]

section Direct

variable (runId : String) (contents : Contents) (db : Database)

theorem persistEvents_default (events : List RunEventInput) :
    persistEvents {} runId events db = (.ok events.length, db.addEvents runId events) := by
  rw [persistEvents]
  split
  · rename_i hnil
    simp [hnil, Database.addEvents, pure]
  · obtain ⟨n, db', hok⟩ := (completes_insertRunEvents runId (fun _ _ => rfl)).exists_ok db
    obtain ⟨rfl, rfl⟩ := insertRunEvents_ok hok
    exact mapError_ok hok

theorem persistWarnings_default (warnings : List String) :
    persistWarnings {} runId warnings db = (.ok warnings.length, db.addEvents runId (warnings.map warningEvent)) := by
  rw [persistWarnings]
  split
  · rename_i hnil
    simp [hnil, Database.addEvents, pure]
  · obtain ⟨n, db', hok⟩ := (completes_insertRunEvents runId (fun _ _ => rfl)).exists_ok db
    obtain ⟨rfl, rfl⟩ := insertRunEvents_ok hok
    have hattempt : (attempt (insertRunEvents (fun _ => none) runId (warnings.map warningEvent)) :
        Command Database Http.HttpError (Option Nat)) db =
          (.ok (some (warnings.map warningEvent).length), db.addEvents runId (warnings.map warningEvent)) := by
      rw [attempt, hok]
      rfl
    rw [bind_ok hattempt, List.length_map]
    rfl

theorem persist_default : persistIngestBatchToSqlite {} runId contents db =
    (.ok ⟨contents.metrics.length, contents.tags.length, contents.events.length + contents.warnings.length⟩,
      ingestAll runId contents db) := by
  have hnone : ({} : PersistFaults).Absent := ⟨rfl, rfl, rfl, rfl, rfl⟩
  obtain ⟨persisted, db', hok⟩ := (completes_persist hnone runId contents).exists_ok db
  rw [hok]
  obtain ⟨_, db₁, hmetrics, h⟩ := bind_eq_ok hok
  obtain ⟨_, db₂, htags, h⟩ := bind_eq_ok h
  obtain ⟨_, db₃, hparams, h⟩ := bind_eq_ok h
  rw [bind_ok (persistEvents_default runId db₃ contents.events),
    bind_ok (persistWarnings_default runId _ contents.warnings)] at h
  obtain ⟨hpersisted, rfl⟩ := Prod.mk.inj h
  obtain rfl := Except.ok.inj hpersisted
  rw [ingestAll, allEvents, addEvents_append, ← persistMetrics_ok hmetrics, ← persistTags_ok htags,
    ← persistParams_ok hparams]

end Direct

section Queued

variable {faults : ProcessFaults} {batch : QueuedIngestBatch} {s s' : ProcessorStore} {u : Unit}

theorem sqlite_ok {α : Type} {x : Command Database SqliteError α} {a : α} (h : sqlite x s = (.ok a, s')) :
    x s.db = (.ok a, s'.db) := by
  obtain ⟨db, hdb, rfl⟩ := zoom_eq_ok (mapError_eq_ok h)
  exact hdb

theorem storeMetrics_db (h : storeMetrics faults batch s = (.ok u, s')) :
    s'.db = Database.ingestMetrics batch.runId batch.metrics s.db := by
  rw [storeMetrics] at h
  rw [Database.ingestMetrics]
  split at h
  · rw [if_pos ‹_›, (pure_eq_ok h).2]
  · obtain ⟨n, s₁, hrows, hcount⟩ := bind_eq_ok h
    rw [if_neg ‹_›, incrementMetricsCount_ok (sqlite_ok hcount), (insertMetrics_ok (sqlite_ok hrows)).2]

theorem storePoints_db (h : storePoints faults batch s = (.ok u, s')) : s'.db = s.db := by
  rw [storePoints] at h
  split at h
  · rw [(pure_eq_ok h).2]
  · simp only [insertBatch] at h
    split at h
    · cases h
    · obtain ⟨-, rfl⟩ := Prod.mk.inj h
      rfl

theorem storeTags_db (h : storeTags faults batch s = (.ok u, s')) :
    s'.db = s.db.setTags batch.runId batch.tags := by
  rw [storeTags] at h
  split at h
  · rename_i hnil
    rw [hnil, (pure_eq_ok h).2]
    rfl
  · exact setTags_ok (sqlite_ok h)

theorem storeParams_db (h : storeParams faults batch s = (.ok u, s')) :
    s'.db = Database.ingestParams batch.runId batch.params s.db := by
  rw [storeParams] at h
  rw [Database.ingestParams]
  split at h
  · rw [if_pos ‹_›, (pure_eq_ok h).2]
  · obtain ⟨n, s₁, hrows, hlast⟩ := bind_eq_ok h
    rw [if_neg ‹_›, (pure_eq_ok hlast).2, (insertParams_ok (sqlite_ok hrows)).2]

theorem storeEvents_db (h : storeEvents faults batch s = (.ok u, s')) :
    s'.db = s.db.addEvents batch.runId (batchEvents batch) := by
  rw [storeEvents] at h
  split at h
  · rename_i hnil
    rw [hnil, (pure_eq_ok h).2]
    simp [Database.addEvents]
  · obtain ⟨n, s₁, hrows, hlast⟩ := bind_eq_ok h
    rw [(pure_eq_ok hlast).2, (insertRunEvents_ok (sqlite_ok hrows)).2]

def batchContents (batch : QueuedIngestBatch) : Contents :=
  ⟨batch.metrics, batch.params, batch.tags, batch.events, batch.warnings⟩

theorem applyBatch_db (h : applyBatch faults batch s = (.ok u, s')) :
    s'.db = ingestAll batch.runId (batchContents batch) s.db := by
  obtain ⟨_, s₁, hmetrics, h⟩ := bind_eq_ok h
  obtain ⟨_, s₂, hrest, hrecord⟩ := bind_eq_ok h
  obtain ⟨_, t₁, hpoints, hrest⟩ := bind_eq_ok hrest
  obtain ⟨_, t₂, htags, hrest⟩ := bind_eq_ok hrest
  obtain ⟨_, t₃, hparams, hevents⟩ := bind_eq_ok hrest
  have hinsert := execute_ok (mapError_eq_ok hrecord)
  have hsame : s'.db = s₂.db := by
    split at hinsert
    · obtain ⟨-, rfl⟩ := Prod.mk.inj (Except.ok.inj hinsert)
      rfl
    · cases hinsert
  rw [hsame, storeEvents_db hevents, storeParams_db hparams, storeTags_db htags, storePoints_db hpoints,
    storeMetrics_db hmetrics]
  rfl

end Queued

section Answers

variable {σ ε ε' α β : Type}

theorem answer_bind {x : Command σ ε α} {f g : α → Command σ ε β}
    (h : ∀ a s, (f a s).1 = (g a s).1) (s : σ) :
    ((x >>= f) s).1 = ((x >>= g) s).1 := by
  cases hx : x s with
  | mk r s' =>
      cases r with
      | ok a => rw [bind_ok hx, bind_ok hx, h]
      | error e => simp only [bind, hx]

theorem zoom_ok {τ : Type} {get : σ → τ} {set : τ → σ → σ} {x : Command τ ε α} {s : σ} {t : τ} {a : α}
    (h : x (get s) = (.ok a, t)) : zoom get set x s = (.ok a, set t s) := by
  rw [zoom, h]

theorem answer_pure (x : Command σ ε α) (f : α → β) (s : σ) :
    ((x >>= fun a => pure (f a)) s).1 = (x s).1.map f := by
  cases hx : x s with
  | mk r s' =>
      cases r with
      | ok a => rw [bind_ok hx]; rfl
      | error e => simp only [bind, hx]; rfl

end Answers

section Agreement

theorem deliver_answer (env : Env) (queued : Bool) (queuedAt : Int) (p : Pending) (contents : Contents)
    (s : ServerState) : (deliver { env with queued } { queuedAt } p contents s).1 =
      .ok ⟨contents.metrics.length, contents.tags.length, contents.events.length + contents.warnings.length⟩ := by
  cases queued with
  | true => rfl
  | false => exact congrArg Prod.fst (persist_default p.sent.request.runId contents s.db)

/-- A request is answered the same whether its batch is queued or not. -/
theorem answer_eq (env : Env) (sent : Sent) (queuedAt : Int) (s : ServerState) :
    (httpIngestBatch { env with queued := false } sent none { queuedAt } s).1 =
      (httpIngestBatch { env with queued := true } sent none { queuedAt } s).1 := by
  refine answer_bind (fun admitted s₁ => ?_) s
  cases admitted with
  | duplicate => rfl
  | process p =>
      refine answer_bind (fun validation s₂ =>
        answer_bind (fun run s₃ => answer_bind (fun _ s₄ => ?_) s₃) s₂) s₁
      have hanswer := fun queued => deliver_answer env queued queuedAt p (prepareContents env p validation) s₄
      refine (answer_pure _ _ s₄).trans (Eq.trans ?_ (answer_pure _ _ s₄).symm)
      exact congrArg (fun r => (Except.mapError Failure.http r).map _) ((hanswer false).trans (hanswer true).symm)

/-- The JSON text of a batch in the stream. -/
structure Codec where
  encode : QueuedIngestBatch → String
  decode : String → Option QueuedIngestBatch

/-- A batch leaves the same tables and the same answer on the direct and on the queued path. -/
theorem direct_agrees_queued {codec : Codec} {p : Pending} {contents : Contents} {queuedAt : Int} {sys : System}
    (hcodec : Finite contents → codec.decode (codec.encode (buildQueuedIngestBatch p contents queuedAt)) =
      some (buildQueuedIngestBatch p contents queuedAt))
    (hfinite : Finite contents) (hfresh : ∀ row ∈ sys.store.batches.rows, row.id ≠ p.sent.batchId)
      (redisId : Nat) :
    (∃ batch persisted sys', codec.decode (codec.encode (buildQueuedIngestBatch p contents queuedAt)) = some batch ∧
        persistIngestBatchToSqlite {} p.sent.request.runId contents sys.store.db = (.ok persisted, sys'.store.db) ∧
        ProcessorLoop.processEntry {} ⟨redisId, batch⟩ sys = (.ok (), sys')) ∧
      ∀ (env : Env) (sent : Sent) (s : ServerState),
        (httpIngestBatch { env with queued := false } sent none { queuedAt } s).1 =
          (httpIngestBatch { env with queued := true } sent none { queuedAt } s).1 := by
  refine ⟨?_, fun env sent s => answer_eq env sent queuedAt s⟩
  have hnew : ¬ Known sys.store (buildQueuedIngestBatch p contents queuedAt) := by
    rintro ⟨row, hrow, hid⟩
    exact hfresh row hrow hid
  obtain ⟨store, hstore⟩ := applyBatch_granted (granted_default (buildQueuedIngestBatch p contents queuedAt)) hnew
  refine ⟨_, ⟨contents.metrics.length, contents.tags.length, contents.events.length + contents.warnings.length⟩,
    { sys with store := store, stream := sys.stream.ack redisId }, hcodec hfinite, ?_, ?_⟩
  · rw [persist_default]
    exact congrArg (Prod.mk _) (applyBatch_db hstore).symm
  · have hprocess := (processBatch_new (fun h => hnew h.2)).trans hstore
    rw [ProcessorLoop.processEntry, Processor.processEntry, bind_ok (zoom_ok hprocess)]
    rfl

def lossJson : String :=
  "\x7b\"project_id\":\"p\",\"run_id\":\"r\",\"batch_id\":\"b\",\"payload_hash\":\"h\",\"seq\":0,\"queued_at_unix_ms\":7," ++
    "\"metrics\":[\x7b\"name\":\"loss\",\"value\":0.0,\"step\":1,\"timestamp\":null\x7d],\"params\":[],\"tags\":[]," ++
    "\"events\":[],\"warnings\":[\"w\"]\x7d"

def lossPending : Pending := ⟨RetrySafety.lossBatch, "p", "h", ⟨[], [], [⟨"loss", 1, 0, none⟩]⟩, []⟩

def lossContents : Contents := ⟨[⟨"loss", 1, 0, none⟩], [], [], [], ["w"]⟩

def lossQueued : QueuedIngestBatch := buildQueuedIngestBatch lossPending lossContents 7

def lossCodec : Codec where
  encode _ := lossJson
  decode text := if text = lossJson then some lossQueued else none

theorem loss_agrees : ∃ batch persisted sys', lossCodec.decode (lossCodec.encode lossQueued) = some batch ∧
    persistIngestBatchToSqlite {} "r" lossContents RetrySafety.oneRun = (.ok persisted, sys'.store.db) ∧
    ProcessorLoop.processEntry {} ⟨1, batch⟩ (.start ⟨RetrySafety.oneRun, .empty, []⟩) = (.ok (), sys') :=
  (@direct_agrees_queued lossCodec lossPending lossContents 7 (.start ⟨RetrySafety.oneRun, .empty, []⟩)
    (fun _ => by simp [lossCodec, lossQueued]) ⟨by decide, by decide⟩ (fun _ h => absurd h List.not_mem_nil) 1).1

end Agreement

end MLRunX.IngestPaths
