import MLRunX.Mutators
import MLRunX.RunLifecycle

namespace MLRunX.RunDeletion

open Cardinality Commands Http Idempotency Ingest RunInit RunLifecycle RunServer RunTables Runs Sqlite Statements Tables

/-- What a process remembers of the runs, which no request but one to send changes. -/
def memory (s : Server) : IdempotencyStore × CardinalityTracker := (s.idempotency, s.cardinality)

/-- The process as it is without what it remembers of a run. -/
def forgetRun (runId : String) (s : Server) : Server :=
  { s with idempotency := s.idempotency.clearRun runId, cardinality := s.cardinality.clearRun runId }

/-- Whoever is remembered in another way is remembered with a batch. -/
structure Recorded (m : IdempotencyStore × CardinalityTracker) : Prop where
  sequences : ∀ runId, m.1.sequences runId ≠ none → ∃ batchId, m.1.batches (runId, batchId) ≠ none
  runs : ∀ runId, m.2.runs runId ≠ none → ∃ batchId, m.1.batches (runId, batchId) ≠ none

def ingestMemory (s : ServerState) : IdempotencyStore × CardinalityTracker := (s.idempotency, s.cardinality)

variable {env : Env}

theorem recorded_empty : Recorded (.empty, .empty) where
  sequences _ h := absurd rfl h
  runs _ h := absurd rfl h

theorem sequences_orderSequence {call : Call} {store : IdempotencyStore} {runId : String}
    (h : runId ≠ call.runId) :
    (orderSequence call store).2.sequences runId = store.sequences runId := by
  simp only [orderSequence]
  split
  · rfl
  split
  · exact Function.update_of_ne h _ _
  · rfl

theorem Recorded.checkAndRecord {store : IdempotencyStore} {tracker : CardinalityTracker}
    (h : Recorded (store, tracker))
    (call : Call) : Recorded ((Idempotency.checkAndRecord call store).2, tracker) := by
  cases hb : store.batches call.key with
  | some existing =>
      rw [checkAndRecord_recorded hb]
      exact h
  | none =>
      have hbatches := (checkAndRecord_unrecorded hb).2
      have hgrows : ∀ key, store.batches key ≠ none →
          (Idempotency.checkAndRecord call store).2.batches key ≠ none := by
        intro key hkey
        have hne : key ≠ call.key := fun heq => hkey (heq ▸ hb)
        rwa [hbatches, Function.update_of_ne hne]
      have hsequences : (Idempotency.checkAndRecord call store).2.sequences =
          (orderSequence call store).2.sequences := by
        have hl : lookup call store = none := by rw [lookup, hb, Option.map_none]
        rw [Idempotency.checkAndRecord, hl]
        rfl
      constructor
      · intro runId hrun
        by_cases hid : runId = call.runId
        · refine ⟨call.batchId, ?_⟩
          change (Idempotency.checkAndRecord call store).2.batches (runId, call.batchId) ≠ none
          rw [hbatches, hid]
          exact (Function.update_self call.key _ _).trans_ne (Option.some_ne_none _)
        · change (Idempotency.checkAndRecord call store).2.sequences runId ≠ none at hrun
          rw [hsequences, sequences_orderSequence hid] at hrun
          obtain ⟨batchId, hbatch⟩ := h.sequences runId hrun
          exact ⟨batchId, hgrows _ hbatch⟩
      · intro runId hrun
        obtain ⟨batchId, hbatch⟩ := h.runs runId hrun
        exact ⟨batchId, hgrows _ hbatch⟩

theorem keeps_recorded_receive (sent : Sent) (fault : Option String) :
    Keeps (fun s => Recorded (ingestMemory s)) (receive env sent fault) := by
  have hleave : ∀ {ε α : Type} {x : Command ServerState ε α}, Leaves ingestMemory x →
      Keeps (fun s => Recorded (ingestMemory s)) x := fun hx => hx.keeps (fun _ _ heq hs => heq ▸ hs)
  apply keeps_bind (hleave (leaves_mapError ⟨fun _ => rfl⟩))
  intro run
  refine keeps_bind (hleave (leaves_ofExcept _)) (fun _ => keeps_bind (hleave (leaves_ofExcept _)) (fun batch => ?_))
  refine keeps_bind ?_ (fun _ => hleave (leaves_ofExcept _))
  constructor
  intro s hs
  exact hs.checkAndRecord _

theorem Recorded.validateBatch {store : IdempotencyStore} {tracker : CardinalityTracker}
    (h : Recorded (store, tracker))
    {runId batchId : String} (hbatch : store.batches (runId, batchId) ≠ none) (config : LimitsConfig)
    (projectId : String)
    (tags : List (String × String)) (names : List String) :
    Recorded (store, (Cardinality.validateBatch config projectId runId tags names tracker).2) where
  sequences := h.sequences
  runs id hrun := by
    by_cases hid : id = runId
    · exact ⟨batchId, hid ▸ hbatch⟩
    · have hsame : (Cardinality.validateBatch config projectId runId tags names tracker).2.runs id =
          tracker.runs id :=
        Function.update_of_ne hid _ _
      exact h.runs id (hsame ▸ hrun)

theorem recorded_settle {faults : Faults} {p : Pending} {s : ServerState} (h : Recorded (ingestMemory s))
    (hbatch : s.idempotency.batches p.sent.key ≠ none) : Recorded (ingestMemory (settle env faults p s).2) := by
  have hrest : ∀ validation, Leaves ingestMemory (do
      let run ← mapError Failure.http (readRun faults.getRun p.sent.request.runId)
      mapError Failure.http (ofExcept (requireRunning run p.sent.request.runId))
      let persisted ← mapError Failure.http (deliver env faults p (prepareContents env p validation))
      pure (ingested (prepareContents env p validation) persisted)) := by
    intro validation
    refine leaves_bind (leaves_mapError (leaves_mapError ⟨fun _ => rfl⟩)) (fun run => ?_)
    refine leaves_bind (leaves_mapError (leaves_ofExcept _)) (fun _ => ?_)
    refine leaves_bind (leaves_mapError ?_) (fun _ => leaves_pure _)
    rw [deliver]
    split
    · exact leaves_bind (leaves_mapError ⟨fun _ => rfl⟩) (fun _ => leaves_pure _)
    · exact ⟨fun _ => rfl⟩
  have hfirst := bind_leaves ingestMemory hrest s (x := mapError (fun _ => Failure.panic) (onTracker
    (Cardinality.validateBatch env.limits p.projectId p.sent.request.runId p.batch.tags
      (p.batch.metrics.map MetricRow.name))))
  have hsettle : ingestMemory (settle env faults p s).2 = _ := hfirst
  rw [hsettle]
  exact h.validateBatch hbatch _ _ _ _

theorem recorded_httpIngestBatch {sent : Sent} {fault : Option String} {faults : Faults} {s : ServerState}
    (h : Recorded (ingestMemory s)) : Recorded (ingestMemory (httpIngestBatch env sent fault faults s).2) := by
  have hcases := receive_cases env sent fault s
  have hends := (@keeps_recorded_receive env sent fault).ends s h
  simp only [httpIngestBatch, bind, mapError]
  generalize receive env sent fault s = admitted at hcases hends ⊢
  rcases admitted with ⟨e | _ | p, s₁⟩
  · exact hends
  · exact hends
  · obtain ⟨hsent, -, -, -, hbatches⟩ := hcases
    apply recorded_settle hends
    rw [hbatches, hsent, Function.update_self]
    exact Option.some_ne_none _

theorem recorded_step {s : Server} {op : Op} (h : Recorded (memory s)) :
    Recorded (memory (step env s op).2) := by
  cases op with
  | init auth initEnv req => exact h
  | ingest sent fault faults =>
      exact recorded_httpIngestBatch (s := ⟨s.store.runTables, s.idempotency, s.cardinality, s.stream⟩) h
  | process faults index =>
      have hsame : memory (step env s (.process faults index)).2 = memory s :=
        processQueued_view memory (fun _ _ _ => rfl) faults index s
      rw [hsame]
      exact h
  | finish auth finishEnv runId status =>
      have hsame : memory (step env s (.finish auth finishEnv runId status)).2 = memory s :=
        (leaves_httpFinishRun memory (fun _ _ _ => rfl) _ _ _).shows s
      rw [hsame]
      exact h
  | delete auth faults runId =>
      have hsame : memory (step env s (.delete auth faults runId)).2 = memory s :=
        (leaves_httpDeleteRun memory (fun _ _ _ => rfl) _ _).shows s
      rw [hsame]
      exact h

theorem recorded_after (store : Mutators.SqliteStore) (ops : List Op) :
    Recorded (memory (after (step env) (.start store) ops)) :=
  invariant_history (G := fun _ _ _ => True) (fun _ s => Recorded (memory s)) (fun _ _ _ h _ =>
    recorded_step h) [] _ ops
    recorded_empty (guarded_true _ _ _ _)

def batchesOf (runId : String) (s : Server) : String → Option BatchRecord :=
  fun batchId => s.idempotency.batches (runId, batchId)

theorem getRun_absent {fault : Option String} {runId : String} {db : Database} (h : db.findRun runId = none) :
    ∃ e, getRun fault runId db = (.error e, db) := by
  cases fault with
  | some text => exact ⟨_, rfl⟩
  | none =>
      have hread : query none (fun db => Database.findRun db runId) db = (.ok none, db) := query_ok h
      exact ⟨.notFound s!"Run not found: {runId}", bind_ok hread⟩

theorem httpIngestBatch_absent {sent : Sent} {fault : Option String} {faults : Faults} {s : ServerState}
    (h : s.db.findRun sent.request.runId = none) : (httpIngestBatch env sent fault faults s).2 = s := by
  have hgone : ∃ e, getRun fault sent.request.runId s.db = (.error e, s.db) := getRun_absent h
  obtain ⟨e, he⟩ := hgone
  have hread : readRun fault sent.request.runId s = (.error (runError e), s) := by
    simp only [readRun, Ingest.onDb, mapError, zoom, he]
    rfl
  have hreceive : receive env sent fault s = (.error (runError e), s) := bind_error hread
  simp only [httpIngestBatch, bind, mapError, hreceive]
  rfl

theorem batches_ingest_other {sent : Sent} {fault : Option String} {faults : Faults} {s : ServerState}
    {runId : String}
    (h : sent.request.runId ≠ runId) (batchId : String) :
    (httpIngestBatch env sent fault faults s).2.idempotency.batches (runId, batchId) =
      s.idempotency.batches (runId, batchId) := by
  have hcases := receive_cases env sent fault s
  simp only [httpIngestBatch, bind, mapError]
  generalize receive env sent fault s = admitted at hcases ⊢
  rcases admitted with ⟨e | _ | p, s₁⟩
  · exact congrFun hcases _
  · exact congrFun hcases.1 _
  · obtain ⟨-, -, -, -, hbatches⟩ := hcases
    have hleaves := (settle_leaves env faults p).shows s₁
    change (settle env faults p s₁).2.idempotency.batches _ = _
    rw [hleaves, hbatches, Function.update_of_ne]
    intro hkey
    exact h (Prod.mk.inj hkey).1.symm

theorem batchesOf_step {s : Server} {runId : String} (habsent : serverStatus runId s = none) (op : Op) :
    batchesOf runId (step env s op).2 = batchesOf runId s := by
  have hmemory : ∀ {s' : Server}, memory s' = memory s → batchesOf runId s' = batchesOf runId s := by
    intro s' h
    exact congrArg (fun (m : IdempotencyStore × CardinalityTracker) batchId => m.1.batches (runId, batchId)) h
  cases op with
  | init auth initEnv req => rfl
  | ingest sent fault faults =>
      funext batchId
      by_cases hid : sent.request.runId = runId
      · have hnone : s.db.findRun sent.request.runId = none := by
          rw [hid]
          exact Option.map_eq_none_iff.mp habsent
        have hsame : (httpIngestBatch env sent fault faults
            ⟨s.store.runTables, s.idempotency, s.cardinality, s.stream⟩).2 = _ := httpIngestBatch_absent hnone
        exact congrArg (fun t : ServerState => t.idempotency.batches (runId, batchId)) hsame
      · exact batches_ingest_other hid batchId
  | process faults index => exact hmemory (processQueued_view memory (fun _ _ _ => rfl) faults index s)
  | finish auth finishEnv id status => exact hmemory ((leaves_httpFinishRun memory (fun _ _ _ => rfl) _ _ _).shows s)
  | delete auth faults id => exact hmemory ((leaves_httpDeleteRun memory (fun _ _ _ => rfl) _ _).shows s)

theorem triple_deleteRun (faults : Nat → Option String) (runId : String) :
    Triple (fun _ => True) (RunTables.deleteRun faults runId) (fun _ db => statusOf runId db = none)
      (fun _ => True) := by
  have hany : ∀ {α : Type} (x : RunTables.Statement α),
      Triple (fun _ => True) x (fun _ _ => True) (fun _ => True) := by
    intro α x
    constructor
    intro db _
    generalize x db = r
    rcases r with ⟨e | a, db'⟩ <;> trivial
  refine triple_bind (hany _) (fun _ => triple_bind (hany _) (fun _ => triple_bind (hany _) (fun _ => ?_)))
  refine triple_bind (hany _) (fun _ => triple_bind (hany _) (fun _ => triple_bind (hany _) (fun _ => ?_)))
  refine triple_bind (hany _) (fun _ => ?_)
  have hgone : Triple (fun _ : Database => True) (execute (faults 7) (fun db =>
      .ok ((db.runs.select (fun r => r.id == runId)).length,
        { db with runs := db.runs.deleteWhere (fun r => r.id == runId) })))
      (fun _ db => statusOf runId db = none) (fun _ => True) := by
    apply triple_execute
    · intro db _ db' _ hset
      obtain ⟨-, rfl⟩ := Prod.mk.inj (Except.ok.inj hset)
      apply Option.map_eq_none_iff.mpr
      rw [Database.findRun, find_none_iff]
      intro r hr
      simpa using (List.mem_filter.mp hr).2
    · exact fun _ _ => trivial
  refine triple_bind hgone (fun changes => ?_)
  split
  · exact triple_fail (fun _ _ => trivial)
  · exact triple_pure (fun _ hs => hs)

theorem absent_of_deleted {s : Server} {auth : Auth.AuthContext} {faults : DeleteFaults} {runId : String}
    (h : (step env s (.delete auth faults runId)).1 = .delete (.ok ())) :
    serverStatus runId (step env s (.delete auth faults runId)).2 = none := by
  have hok : (httpDeleteRun env.scopeFlags auth faults runId s).1 = .ok () := Reply.delete.inj h
  obtain ⟨_, s₁, -, h₁⟩ := bind_eq_ok (Prod.ext hok rfl)
  obtain ⟨_, s₂, -, h₂⟩ := bind_eq_ok h₁
  obtain ⟨_, s₃, -, h₃⟩ := bind_eq_ok h₂
  obtain ⟨_, s₄, -, h₄⟩ := bind_eq_ok h₃
  obtain ⟨_, s₅, -, hdelete⟩ := bind_eq_ok h₄
  obtain ⟨store, hstore, hs⟩ := zoom_eq_ok (mapError_eq_ok hdelete)
  have hrefines := (Mutators.deleteRun_refines runId faults.deleteRun).same s₅.store
  rw [hstore] at hrefines
  have hnone := (triple_deleteRun faults.deleteRun runId).of_ok trivial hrefines
  exact (congrArg (fun s : Server => statusOf runId s.db) hs).trans hnone

section Init

variable {flags : Auth.EndpointRbacTier → Bool} {maxTagValueLen : Nat} {auth : Auth.AuthContext} {initEnv : InitEnv}
  {req : InitRunHttpRequest}

theorem triple_createRun (fault : Option String) (runId projectId : String) (name keyId userId : Option String) :
    Triple (fun db => statusOf runId db = none) (createRun fault runId projectId name keyId userId)
      (fun _ db => statusOf runId db = some "running") (fun _ => True) := by
  apply triple_execute
  · intro db _ db' habsent hinsert
    split at hinsert
    · rename_i runs hruns
      obtain ⟨-, rfl⟩ := Prod.mk.inj (Except.ok.inj hinsert)
      have hnone : db.runs.rows.find? (fun r => r.id == runId) = none := Option.map_eq_none_iff.mp habsent
      simp only [statusOf, Database.findRun, Table.find, (insert_eq_some hruns).1]
      rw [List.find?_append, hnone, List.find?_singleton, beq_self_eq_true]
      rfl
    · cases hinsert
  · exact fun _ _ => trivial

theorem running_of_init {s : MetadataStore} {response : InitRunHttpResponse}
    (habsent : statusOf (req.runId.getD initEnv.generatedId) s.db = none)
    (h : (httpInitRun flags maxTagValueLen auth initEnv req s).1 = .ok response) :
    statusOf (req.runId.getD initEnv.generatedId) (httpInitRun flags maxTagValueLen auth initEnv req s).2.db =
      some "running" := by
  have hleave : ∀ {ε α : Type} {v : Option String} {x : Command MetadataStore ε α},
      Leaves (fun s : MetadataStore => statusOf (req.runId.getD initEnv.generatedId) s.db) x →
        Triple (fun s : MetadataStore => statusOf (req.runId.getD initEnv.generatedId) s.db = v) x
          (fun _ s => statusOf (req.runId.getD initEnv.generatedId) s.db = v) (fun _ => True) :=
    fun hx => (hx.keeps (fun _ _ heq hs => heq.symm.trans hs)).fails (fun _ _ => trivial)
  have hdb : ∀ {ε α : Type} {v : Option String} {x : Command MetadataStore ε α}, Leaves MetadataStore.db x →
      Triple (fun s : MetadataStore => statusOf (req.runId.getD initEnv.generatedId) s.db = v) x
        (fun _ s => statusOf (req.runId.getD initEnv.generatedId) s.db = v) (fun _ => True) :=
    fun hx => hleave (hx.map (statusOf (req.runId.getD initEnv.generatedId)))
  have hinsert : ∀ projectId tags params, Triple
      (fun s : MetadataStore => statusOf (req.runId.getD initEnv.generatedId) s.db = none)
      (insertRun auth initEnv (req.runId.getD initEnv.generatedId) projectId req.name tags params)
      (fun _ s => statusOf (req.runId.getD initEnv.generatedId) s.db = some "running") (fun _ => True) := by
    intro projectId tags params
    apply triple_bind (triple_mapError (triple_zoom (fun _ _ => rfl) (triple_createRun _ _ _ _ _ _)))
    intro _
    refine triple_bind (hdb ⟨fun _ => rfl⟩) (fun _ => triple_bind (triple_mapError (hleave ?_)) (fun _ =>
      triple_bind (triple_mapError (hleave ?_)) (fun _ => triple_bind ?_ (fun _ => triple_pure (fun _ hs => hs)))))
    · apply leaves_zoom (fun _ _ => rfl)
      split
      · exact leaves_pure _
      · exact leaves_setTags _ _ _
    · apply leaves_zoom (fun _ _ => rfl)
      split
      · exact leaves_pure _
      · exact leaves_insertParams _ _ _
    · exact hleave (leaves_attempt (leaves_zoom (fun _ _ => rfl) (leaves_insertRunEvents _ _ _)))
  have hstart : Triple (fun s : MetadataStore => statusOf (req.runId.getD initEnv.generatedId) s.db = none)
      (startRun flags maxTagValueLen auth initEnv req (req.runId.getD initEnv.generatedId))
      (fun _ s => statusOf (req.runId.getD initEnv.generatedId) s.db = some "running") (fun _ => True) := by
    apply triple_bind (hdb (leaves_resolveProject initEnv req))
    intro projectId
    refine triple_bind (hdb (leaves_ofExcept _)) (fun _ => triple_bind (hdb (leaves_ofExcept _)) (fun _ => ?_))
    refine triple_bind (hdb (leaves_ofExcept _)) (fun tags => triple_bind (hdb (leaves_ofExcept _)) (fun params => ?_))
    exact hinsert _ _ _
  have hrun := httpInitRun_absent flags maxTagValueLen auth initEnv req (Option.map_eq_none_iff.mp habsent)
  rw [hrun] at h ⊢
  exact hstart.of_ok habsent (Prod.ext h rfl)

end Init

def emptyBatch (runId batchId : String) : Sent :=
  ⟨.devMode 0, { runId, batchId := some batchId, seq := none }, "u", none, 0⟩

section Probe

variable {runId batchId : String} {s : ServerState} {run : RunRow}

theorem duplicate_of_recorded {sent : Sent} (h : s.idempotency.batches sent.key ≠ none)
    (fault : Option String) (faults : Faults)
    {i : Ingested} (hok : (httpIngestBatch env sent fault faults s).1 = .ok i) : i.response.duplicate = true := by
  have hcases := receive_cases env sent fault s
  simp only [httpIngestBatch, bind, mapError] at hok
  generalize receive env sent fault s = admitted at hcases hok
  rcases admitted with ⟨e | _ | p, s₁⟩
  · cases hok
  · rw [← Except.ok.inj hok]
    rfl
  · exact absurd hcases.2.2.2.1 h

theorem receive_emptyBatch (hrun : s.db.findRun runId = some run)
    (hnone : s.idempotency.batches (runId, batchId) = none) :
    ∃ p s₁, receive env (emptyBatch runId batchId) none s = (.ok (.process p), s₁) ∧
      p.sent = emptyBatch runId batchId ∧
      p.batch = ⟨[], [], []⟩ ∧ s₁.db = s.db := by
  have hread : readRun none (emptyBatch runId batchId).request.runId s = (.ok run, s) := by
    simp only [readRun, Ingest.onDb, mapError, zoom, emptyBatch, getRun_found hrun]
    rfl
  have hauthorize : authorizeIngest env (emptyBatch runId batchId) run = .ok () := rfl
  have hvalidate : IngestRequest.validateRequest env.limits.maxTagValueLength
      (emptyBatch runId batchId).request.toPayload = .ok ⟨[], [], []⟩ := rfl
  have hlookup : lookup (prepare env (emptyBatch runId batchId) run ⟨[], [], []⟩).record s.idempotency = none := by
    rw [lookup]
    exact Option.map_eq_none_iff.mpr hnone
  have hcheck : checkBatch (prepare env (emptyBatch runId batchId) run ⟨[], [], []⟩) s = (.ok .new, { s with
      idempotency := (checkAndRecord
        (prepare env (emptyBatch runId batchId) run ⟨[], [], []⟩).record s.idempotency).2 }) := by
    have hnew : (checkAndRecord (prepare env (emptyBatch runId batchId) run ⟨[], [], []⟩).record
        s.idempotency).1 = .new := by
      rw [checkAndRecord, hlookup]
      have hfirst : ¬ (0 < (prepare env (emptyBatch runId batchId) run ⟨[], [], []⟩).record.seq) := Int.lt_irrefl 0
      simp only [orderSequence, hfirst, false_and, if_false]
      split <;> rfl
    rw [checkBatch, hnew]
  refine ⟨prepare env (emptyBatch runId batchId) run ⟨[], [], []⟩, { s with
    idempotency := (checkAndRecord
      (prepare env (emptyBatch runId batchId) run ⟨[], [], []⟩).record s.idempotency).2 },
    ?_, rfl, rfl, rfl⟩
  rw [receive, bind_ok hread, bind_ofExcept_ok hauthorize, bind_ofExcept_ok hvalidate, bind_ok hcheck]
  rfl

theorem fresh_of_unrecorded (hrun : s.db.findRun runId = some run) (hstatus : run.status = "running")
    (hnone : s.idempotency.batches (runId, batchId) = none) :
    ∃ i, (httpIngestBatch env (emptyBatch runId batchId) none {} s).1 = .ok i ∧ i.response.duplicate = false := by
  obtain ⟨p, s₁, hreceive, hsent, hbatch, hdb⟩ := @receive_emptyBatch env _ _ _ _ hrun hnone
  have hsettles : Settles env {} p s₁ := by
    refine ⟨⟨run, ?_, ?_⟩, rfl, fun _ => rfl, fun _ => ⟨rfl, rfl, rfl, rfl, rfl⟩, ?_⟩
    · rw [hdb, hsent]
      exact hrun
    · rw [hstatus]
      decide
    · rw [hbatch]
      exact fun _ h => absurd h List.not_mem_nil
  obtain ⟨i, s₂, hsettle⟩ := settle_completes (by rw [hsent, hbatch]; rfl) hsettles
  obtain ⟨-, -, -, hduplicate, -⟩ := settle_ok hsettle
  refine ⟨i, ?_, hduplicate⟩
  rw [httpIngestBatch, bind_ok (mapError_ok hreceive)]
  exact congrArg Prod.fst hsettle

end Probe

abbrev Attempt := Sent × Option String × Faults

def answers (env : Env) (s : Server) (attempts : List Attempt) : List Reply :=
  (history (step env) s (attempts.map (fun a => .ingest a.1 a.2.1 a.2.2))).map Prod.snd

/-- A run is answered for like one whose id the process has never seen. -/
def LikeNew (env : Env) (runId : String) (s : Server) : Prop :=
  ∀ attempts : List Attempt, (∀ a ∈ attempts, a.1.request.runId = runId) →
    answers env s attempts = answers env (forgetRun runId s) attempts

theorem forget_eq {s : Server} {runId : String} (h : Recorded (memory s))
    (hnone : ∀ batchId, batchesOf runId s batchId = none) :
    forgetRun runId s = s := by
  have hsequences : s.idempotency.sequences runId = none := by
    by_contra hsome
    obtain ⟨batchId, hbatch⟩ := h.sequences runId hsome
    exact hbatch (hnone batchId)
  have hruns : s.cardinality.runs runId = none := by
    by_contra hsome
    obtain ⟨batchId, hbatch⟩ := h.runs runId hsome
    exact hbatch (hnone batchId)
  have hbatches : (fun key : String × String => if key.1 = runId then none else s.idempotency.batches key) =
      s.idempotency.batches := by
    funext key
    split
    · rename_i hkey
      rw [← hkey] at hnone
      exact (hnone key.2).symm
    · rfl
  simp only [forgetRun, IdempotencyStore.clearRun, CardinalityTracker.clearRun, hbatches]
  rw [← hsequences, Function.update_eq_self, ← hruns, Function.update_eq_self]

theorem likeNew_iff_unrecorded {s : Server} {runId : String} (h : Recorded (memory s))
    (hstatus : serverStatus runId s = some "running") :
    LikeNew env runId s ↔ ∀ batchId, batchesOf runId s batchId = none := by
  constructor
  · intro hlike batchId
    by_contra hsome
    obtain ⟨run, hrun, hrunning⟩ := Option.map_eq_some_iff.mp hstatus
    have hanswers := hlike [(emptyBatch runId batchId, none, {})] (fun a ha => by rw [List.mem_singleton.mp ha]; rfl)
    have hanswer := Reply.ingest.inj (List.cons.inj hanswers).1
    have hnew : ∃ i, (httpIngestBatch env (emptyBatch runId batchId) none {}
        ⟨s.store.runTables, s.idempotency.clearRun runId, s.cardinality.clearRun runId, s.stream⟩).1 = .ok i ∧
          i.response.duplicate = false := fresh_of_unrecorded hrun hrunning (if_pos rfl)
    obtain ⟨i, hi, hfresh⟩ := hnew
    have hkey : s.idempotency.batches (emptyBatch runId batchId).key ≠ none := hsome
    have hdup : i.response.duplicate = true :=
      duplicate_of_recorded (s := ⟨s.store.runTables, s.idempotency, s.cardinality, s.stream⟩) hkey none {}
        (hanswer.trans hi)
    rw [hfresh] at hdup
    cases hdup
  · intro hnone attempts _
    rw [forget_eq h hnone]

theorem batchesOf_after {s : Server} {runId : String} {ops : List Op}
    (habsent : ∀ before, before <+: ops → serverStatus runId (after (step env) s before) = none) :
    batchesOf runId (after (step env) s ops) = batchesOf runId s := by
  induction ops generalizing s with
  | nil => rfl
  | cons op ops ih =>
      have hfirst : batchesOf runId (step env s op).2 = batchesOf runId s :=
        batchesOf_step (habsent [] List.nil_prefix) op
      rw [← hfirst]
      exact ih (fun before h => habsent (op :: before) (List.cons_prefix_cons.mpr ⟨rfl, h⟩))

/-- A run that is made again after its deletion is answered for like a new one exactly
when none of its batches were recorded before. -/
theorem likeNew_iff (env : Env) (store : Mutators.SqliteStore) (ops between : List Op) {auth auth' : Auth.AuthContext}
    {faults : DeleteFaults} {runId : String} {initEnv : InitEnv} {req : InitRunHttpRequest}
    {response : InitRunHttpResponse} (hid : req.runId.getD initEnv.generatedId = runId)
    (hdelete : (step env (after (step env) (.start store) ops) (.delete auth faults runId)).1 = .delete (.ok ()))
    (habsent : ∀ before op, before ++ [op] <+: between →
      serverStatus runId (after (step env) (.start store) (ops ++ .delete auth faults runId :: (before ++ [op]))) =
        none)
    (hinit : (step env (after (step env) (.start store) (ops ++ .delete auth faults runId :: between))
      (.init auth' initEnv req)).1 = .init (.ok response)) :
    LikeNew env runId (after (step env) (.start store)
      (ops ++ .delete auth faults runId :: (between ++ [.init auth' initEnv req]))) ↔
      ∀ batchId, (after (step env) (.start store) ops).idempotency.batches (runId, batchId) = none := by
  subst hid
  have hsplit : ∀ more, after (step env) (.start store)
      (ops ++ .delete auth faults (req.runId.getD initEnv.generatedId) :: more) =
      after (step env) (step env (after (step env) (.start store) ops)
        (.delete auth faults (req.runId.getD initEnv.generatedId))).2 more := by
    intro more
    rw [after_append, after_cons]
  have hgone : ∀ before, before <+: between → serverStatus (req.runId.getD initEnv.generatedId)
      (after (step env) (step env (after (step env) (.start store) ops)
        (.delete auth faults (req.runId.getD initEnv.generatedId))).2 before) = none := by
    intro before hprefix
    rcases List.eq_nil_or_concat before with rfl | ⟨before, op, rfl⟩
    · exact absent_of_deleted hdelete
    · rw [List.concat_eq_append] at hprefix ⊢
      rw [← hsplit]
      exact habsent before op hprefix
  have hbetween := batchesOf_after hgone
  have hdeleted : batchesOf (req.runId.getD initEnv.generatedId) (step env (after (step env) (.start store) ops)
      (.delete auth faults (req.runId.getD initEnv.generatedId))).2 =
      batchesOf (req.runId.getD initEnv.generatedId) (after (step env) (.start store) ops) :=
    congrArg (fun (m : IdempotencyStore × CardinalityTracker) batchId =>
      m.1.batches (req.runId.getD initEnv.generatedId, batchId))
        ((leaves_httpDeleteRun memory (fun _ _ _ => rfl) _ _).shows _)
  have hlast := hgone between (List.prefix_refl _)
  rw [hsplit] at hinit
  have hrecorded : Recorded (memory (after (step env) (.start store)
      (ops ++ .delete auth faults (req.runId.getD initEnv.generatedId) :: (between ++ [.init auth' initEnv req])))) :=
    recorded_after store _
  rw [hsplit, after_concat] at hrecorded ⊢
  rw [hdeleted] at hbetween
  generalize after (step env) (step env (after (step env) (.start store) ops)
    (.delete auth faults (req.runId.getD initEnv.generatedId))).2 between = t at hinit hlast hrecorded hbetween ⊢
  have hrunning : serverStatus (req.runId.getD initEnv.generatedId) (step env t (.init auth' initEnv req)).2 =
      some "running" :=
    running_of_init (s := ⟨t.store.ui, t.store.runTables, t.times⟩) hlast (Reply.init.inj hinit)
  have hinitBatches : batchesOf (req.runId.getD initEnv.generatedId) (step env t (.init auth' initEnv req)).2 =
      batchesOf (req.runId.getD initEnv.generatedId) t := rfl
  rw [likeNew_iff_unrecorded hrecorded hrunning, hinitBatches, hbetween]
  exact Iff.rfl

def deleteRun (runId : String) : Op := .delete (.devMode 0) {} runId

theorem likeNew_untouched : LikeNew RetrySafety.devServer "r"
    (after (step RetrySafety.devServer) (.start projectStore) [initRun "r", deleteRun "r", initRun "r"]) :=
  @likeNew_iff RetrySafety.devServer projectStore [initRun "r"] [] (.devMode 0) (.devMode 0) {} "r"
    { generatedId := "g", now := "t" } ⟨some "r", some "p", none, none, [], []⟩ ⟨"r", false⟩ rfl
    (congrArg Reply.delete (by decide +kernel)) (fun _ _ h => by simp at h) (congrArg Reply.init (by decide +kernel))
    |>.mpr (fun _ => rfl)

/-- Whether a request to send was answered as a duplicate. -/
def isDuplicate : Reply → Option Bool
  | .ingest (.ok i) => some i.response.duplicate
  | _ => none

theorem remembered_after_deletion : ¬ LikeNew RetrySafety.devServer "r"
    (after (step RetrySafety.devServer) (.start projectStore)
      [initRun "r", .ingest RetrySafety.lossBatch none {}, deleteRun "r", initRun "r"]) := by
  intro h
  have hanswers := h [(RetrySafety.lossBatch, none, {})] (fun a ha => by rw [List.mem_singleton.mp ha]; rfl)
  exact absurd (congrArg (List.map isDuplicate) hanswers) (by decide +kernel)

end MLRunX.RunDeletion
