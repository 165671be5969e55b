import MLRunX.IngestPaths
import MLRunX.RunLifecycle

namespace MLRunX.FinishRaces

open Commands Http Ingest Processor RunTables Runs Sqlite Statements Tables
open IngestPaths (batchContents)
open RunLifecycle (Terminal statusOf)

/-- A statement that writes a part of a batch. -/
inductive Write
  | metric (row : MetricRow)
  | metricsCount (count : Nat)
  | tag (pair : String × String)
  | param (pair : String × String)
  | paramsCount
  | event (row : RunEventInput)
  deriving DecidableEq, Repr

def Write.apply (runId : String) : Write → Database → Database
  | .metric row, db => db.addMetric runId row
  | .metricsCount count, db => db.countMetrics runId count
  | .tag pair, db => db.setTag runId pair
  | .param pair, db => db.setParam runId pair
  | .paramsCount, db => db.countParams runId
  | .event row, db => db.addEvent runId row

def applyAll (runId : String) (writes : List Write) (db : Database) : Database :=
  writes.foldl (fun db w => w.apply runId db) db

def metricWrites (metrics : List MetricRow) : List Write :=
  if metrics = [] then [] else metrics.map .metric ++ [.metricsCount (saturate (2 ^ 63 - 1) metrics.length)]

def paramWrites (params : List (String × String)) : List Write :=
  if params = [] then [] else params.map .param ++ [.paramsCount]

def eventWrites (events : List RunEventInput) : List Write := events.map .event

/-- The statements for a batch, which are the same in the server and in the processor. -/
def contentsWrites (contents : Contents) : List Write :=
  metricWrites contents.metrics ++ (contents.tags.map .tag ++ (paramWrites contents.params ++
    (eventWrites contents.events ++ eventWrites (contents.warnings.map warningEvent))))

inductive Phase
  | checking
  | writing (rest : List Write)
  | enqueuing
  | done

/-- A request between two of its accesses to the stores. -/
structure Handler where
  pending : Pending
  contents : Contents
  phase : Phase

def Handler.runId (h : Handler) : String := h.pending.sent.request.runId

def Handler.batchId (h : Handler) : String := h.pending.sent.batchId

/-- An entry of the stream that the processor goes through, until it gives up. -/
structure Job where
  batch : QueuedIngestBatch
  rest : Option (List Write)

structure System where
  server : ServerState
  batches : Table BatchRow BatchRow.clash
  handlers : List Handler
  jobs : List Job

inductive Input
  | request (sent : Sent) (fault : Option String)
  | check (handler : Nat) (fault : Option String)
  | write (handler : Nat) (fault : Option String)
  | enqueue (handler : Nat) (fault : Option EnqueueFault) (queuedAt : Int)
  | take (entry : Nat) (fault : Option String)
  | process (job : Nat) (fault : Option String)
  | finish (runId status : String) (fault : Option String)

/-- What can be seen of a step: that a batch passed its check, or what was written of one. -/
inductive Output
  | silent
  | admitted (runId batchId : String) (contents : Contents)
  | wrote (runId batchId : String) (contents : Contents) (write : Write)
  deriving DecidableEq, Repr

variable (env : Env)

def accept (sent : Sent) (fault : Option String) : Command ServerState Failure (Option Handler) := do
  let admitted ← mapError Failure.http (receive env sent fault)
  match admitted with
  | .duplicate => pure none
  | .process p => do
      let validation ← mapError (fun _ => Failure.panic) (onTracker (Cardinality.validateBatch env.limits p.projectId
        p.sent.request.runId p.batch.tags (p.batch.metrics.map MetricRow.name)))
      pure (some ⟨p, prepareContents env p validation, .checking⟩)

def checkStatus (fault : Option String) (runId : String) : Command ServerState HttpError Unit := do
  let run ← readRun fault runId
  ofExcept (requireRunning run runId)

def System.setPhase (s : System) (i : Nat) (h : Handler) (phase : Phase) : System :=
  { s with handlers := s.handlers.set i { h with phase } }

def System.setRest (s : System) (i : Nat) (job : Job) (rest : Option (List Write)) : System :=
  { s with jobs := s.jobs.set i { job with rest } }

def System.apply (s : System) (runId : String) (w : Write) : System :=
  { s with server := { s.server with db := w.apply runId s.server.db } }

def stepCheck (s : System) (i : Nat) (fault : Option String) (h : Handler) : Output × System :=
  match (checkStatus fault h.runId s.server).1 with
  | .ok _ => (.admitted h.runId h.batchId h.contents,
      s.setPhase i h (if env.queued then .enqueuing else .writing (contentsWrites h.contents)))
  | .error _ => (.silent, s.setPhase i h .done)

def stepWrite (s : System) (i : Nat) (h : Handler) (w : Write) (rest : List Write) : Option String → Output × System
  | none => (.wrote h.runId h.batchId h.contents w, (s.apply h.runId w).setPhase i h (.writing rest))
  | some _ => (.silent, s.setPhase i h .done)

def stepEnqueue (s : System) (i : Nat) (fault : Option EnqueueFault) (queuedAt : Int) (h : Handler) :
    Output × System :=
  let stream := (enqueue fault (buildQueuedIngestBatch h.pending h.contents queuedAt) s.server.stream).2
  (.silent, { s with server := { s.server with stream } }.setPhase i h .done)

def stepTake (s : System) (batch : QueuedIngestBatch) (fault : Option String) : System :=
  if fault = none ∧ s.batches.rows.any (fun row => row.id == batch.batchId) then s
  else { s with jobs := s.jobs ++ [⟨batch, some (contentsWrites (batchContents batch))⟩] }

def stepRecord (s : System) (batch : QueuedIngestBatch) : Option String → System
  | none => { s with
      batches := (s.batches.insert ⟨batch.batchId, batch.runId, batch.seq, batch.payloadHash⟩).getD s.batches }
  | some _ => s

def stepProcess (s : System) (i : Nat) (job : Job) (fault : Option String) : List Write → Output × System
  | [] => (.silent, (stepRecord s job.batch fault).setRest i job none)
  | w :: rest => match fault with
      | none => (.wrote job.batch.runId job.batch.batchId (batchContents job.batch) w,
          (s.apply job.batch.runId w).setRest i job (some rest))
      | some _ => (.silent, s.setRest i job none)

/-- One access to a store, of a request, of the processor or of a request to
finish a run. -/
def step : Machine System Input Output
  | s, .request sent fault =>
      let r := accept env sent fault s.server
      (.silent, { s with server := r.2, handlers := s.handlers ++ (r.1.toOption.join).toList })
  | s, .check i fault => match s.handlers[i]? with
      | some ⟨p, contents, .checking⟩ => stepCheck env s i fault ⟨p, contents, .checking⟩
      | _ => (.silent, s)
  | s, .write i fault => match s.handlers[i]? with
      | some ⟨p, contents, .writing (w :: rest)⟩ =>
          stepWrite s i ⟨p, contents, .writing (w :: rest)⟩ w rest fault
      | _ => (.silent, s)
  | s, .enqueue i fault queuedAt => match s.handlers[i]? with
      | some ⟨p, contents, .enqueuing⟩ => stepEnqueue s i fault queuedAt ⟨p, contents, .enqueuing⟩
      | _ => (.silent, s)
  | s, .take i fault => match s.server.stream[i]? with
      | some batch => (.silent, stepTake s batch fault)
      | none => (.silent, s)
  | s, .process i fault => match s.jobs[i]? with
      | some ⟨batch, some rest⟩ => stepProcess s i ⟨batch, some rest⟩ fault rest
      | _ => (.silent, s)
  | s, .finish runId status fault =>
      (.silent, { s with server := (onDb (finishRun fault runId status) s.server).2 })

def System.start (db : Database) (idempotency : Idempotency.IdempotencyStore)
    (cardinality : Cardinality.CardinalityTracker) (batches : Table BatchRow BatchRow.clash) : System :=
  ⟨⟨db, idempotency, cardinality, []⟩, batches, [], []⟩

section Programs

variable {runId : String}

theorem performs_insertMetrics (faults : Nat → Option String) (metrics : List MetricRow) :
    Performs id (Write.apply runId) (metrics.map .metric) (insertMetrics faults runId metrics) := by
  have hrows : Performs id (Write.apply runId) (metrics.map .metric)
      (executeEach (Database.addMetric runId) faults metrics) := by
    apply performs_executeEach
    exact fun _ _ => rfl
  have h := hrows.bind (fun _ => performs_of_leaves (leaves_pure metrics.length))
  rwa [List.append_nil] at h

theorem performs_incrementMetricsCount (fault : Option String) (count : Nat) :
    Performs id (Write.apply runId) [.metricsCount count] (incrementMetricsCount fault runId count) := by
  apply performs_execute
  intro db _ db' hset
  exact (congrArg Prod.snd (Except.ok.inj hset)).symm

theorem performs_setTags (faults : Nat → Option String) (tags : List (String × String)) :
    Performs id (Write.apply runId) (tags.map .tag) (setTags faults runId tags) := by
  apply performs_executeEach
  exact fun _ _ => rfl

theorem performs_insertParams (faults : Nat → Option String) (params : List (String × String)) :
    Performs id (Write.apply runId) (params.map .param ++ [.paramsCount]) (insertParams faults runId params) := by
  have hcount : Performs id (Write.apply runId) [.paramsCount]
      (execute (faults params.length) (fun db => .ok ((), db.countParams runId))) := by
    apply performs_execute
    intro db _ db' hset
    exact (congrArg Prod.snd (Except.ok.inj hset)).symm
  have hlast := hcount.bind (fun _ => performs_of_leaves (leaves_pure params.length))
  exact (performs_executeEach (w := Write.param) (fun _ _ => rfl) faults params).bind (fun _ => hlast)

theorem performs_insertRunEvents (faults : Nat → Option String) (events : List RunEventInput) :
    Performs id (Write.apply runId) (eventWrites events) (insertRunEvents faults runId events) := by
  have hlast : Performs id (Write.apply runId) [] (stampRun (faults events.length) events.length >>= fun _ =>
      (pure events.length : RunTables.Statement Nat)) :=
    performs_of_leaves (leaves_bind (leaves_stampRun _ _) (fun _ => leaves_pure _))
  have hrows : Performs id (Write.apply runId) (events.map .event)
      (executeEach (Database.addEvent runId) faults events) := by
    apply performs_executeEach
    exact fun _ _ => rfl
  have h := hrows.bind (fun _ => hlast)
  rwa [List.append_nil] at h

theorem performs_persistMetrics (faults : PersistFaults) (metrics : List MetricRow) :
    Performs id (Write.apply runId) (metricWrites metrics) (persistMetrics faults runId metrics) := by
  rw [persistMetrics, metricWrites]
  split
  · exact performs_of_leaves (leaves_pure ())
  · exact (performs_insertMetrics _ _).mapError.bind (fun _ => (performs_incrementMetricsCount _ _).mapError)

theorem performs_persistTags (faults : PersistFaults) (tags : List (String × String)) :
    Performs id (Write.apply runId) (tags.map .tag) (persistTags faults runId tags) := by
  rw [persistTags]
  split
  · rename_i h
    rw [h]
    exact performs_of_leaves (leaves_pure ())
  · exact (performs_setTags _ _).mapError

theorem performs_persistParams (faults : PersistFaults) (params : List (String × String)) :
    Performs id (Write.apply runId) (paramWrites params) (persistParams faults runId params) := by
  rw [persistParams, paramWrites]
  split
  · exact performs_of_leaves (leaves_pure ())
  · rw [← List.append_nil (params.map Write.param ++ [Write.paramsCount])]
    exact (performs_insertParams _ _).mapError.bind (fun _ => performs_of_leaves (leaves_pure ()))

theorem performs_persistEvents (faults : PersistFaults) (events : List RunEventInput) :
    Performs id (Write.apply runId) (eventWrites events) (persistEvents faults runId events) := by
  rw [persistEvents]
  split
  · rename_i h
    rw [h]
    exact performs_of_leaves (leaves_pure 0)
  · exact (performs_insertRunEvents _ _).mapError

theorem persist_partly (faults : PersistFaults) (contents : Contents) (db : Database) :
    ∃ n, (persistIngestBatchToSqlite faults runId contents db).2 =
      applyAll runId ((contentsWrites contents).take n) db := by
  have hwarnings : ∀ db, ∃ n, (persistWarnings faults runId contents.warnings db).2 =
      ((eventWrites (contents.warnings.map warningEvent)).take n).foldl (fun db w => w.apply runId db) db := by
    intro db
    rw [persistWarnings]
    split
    · exact ⟨0, rfl⟩
    · have hevents : Performs id (Write.apply runId) _ (insertRunEvents faults.warnings runId _) :=
        performs_insertRunEvents faults.warnings (contents.warnings.map warningEvent)
      obtain ⟨n, hn⟩ := hevents.partly db
      exact ⟨n, hn⟩
  have hlast : ∀ (count : Nat) db, ∃ n, ((persistWarnings faults runId contents.warnings >>= fun warningCount =>
      (pure ⟨contents.metrics.length, contents.tags.length, count + warningCount⟩ :
        Command Database HttpError PersistedIngestBatch)) db).2 =
      ((eventWrites (contents.warnings.map warningEvent)).take n).foldl (fun db w => w.apply runId db) db := by
    intro count db
    obtain ⟨n, hn⟩ := hwarnings db
    exact ⟨n, (bind_leaves id (fun _ => leaves_pure _) db).trans hn⟩
  exact (performs_persistMetrics faults contents.metrics).bind_partly (fun _ =>
    (performs_persistTags faults contents.tags).bind_partly (fun _ =>
      (performs_persistParams faults contents.params).bind_partly (fun _ =>
        (performs_persistEvents faults contents.events).bind_partly hlast))) db

theorem performs_sqlite {α : Type} {ws : List Write} {x : Command Database SqliteError α}
    (h : Performs id (Write.apply runId) ws x) : Performs ProcessorStore.db (Write.apply runId) ws (sqlite x) :=
  (h.zoom (fun _ _ => rfl)).mapError

theorem performs_storeMetrics (faults : ProcessFaults) (batch : QueuedIngestBatch) :
    Performs ProcessorStore.db (Write.apply batch.runId) (metricWrites batch.metrics) (storeMetrics faults batch) := by
  rw [storeMetrics, metricWrites]
  split
  · exact performs_of_leaves (leaves_pure ())
  · exact (performs_sqlite (performs_insertMetrics _ _)).bind (fun _ =>
      performs_sqlite (performs_incrementMetricsCount _ _))

theorem performs_storePoints (faults : ProcessFaults) (batch : QueuedIngestBatch) :
    Performs ProcessorStore.db (Write.apply batch.runId) [] (storePoints faults batch) := by
  apply performs_of_leaves
  rw [storePoints]
  split
  · exact leaves_pure ()
  · constructor
    intro s
    cases hpoints : faults.points <;> simp only [insertBatch]

theorem performs_storeTags (faults : ProcessFaults) (batch : QueuedIngestBatch) :
    Performs ProcessorStore.db (Write.apply batch.runId) (batch.tags.map .tag) (storeTags faults batch) := by
  rw [storeTags]
  split
  · rename_i h
    rw [h]
    exact performs_of_leaves (leaves_pure ())
  · exact performs_sqlite (performs_setTags _ _)

theorem performs_storeParams (faults : ProcessFaults) (batch : QueuedIngestBatch) :
    Performs ProcessorStore.db (Write.apply batch.runId) (paramWrites batch.params) (storeParams faults batch) := by
  rw [storeParams, paramWrites]
  split
  · exact performs_of_leaves (leaves_pure ())
  · rw [← List.append_nil (batch.params.map Write.param ++ [Write.paramsCount])]
    exact (performs_sqlite (performs_insertParams _ _)).bind (fun _ => performs_of_leaves (leaves_pure ()))

theorem performs_storeEvents (faults : ProcessFaults) (batch : QueuedIngestBatch) :
    Performs ProcessorStore.db (Write.apply batch.runId)
      (eventWrites batch.events ++ eventWrites (batch.warnings.map warningEvent)) (storeEvents faults batch) := by
  have hevents : eventWrites batch.events ++ eventWrites (batch.warnings.map warningEvent) =
      eventWrites (batchEvents batch) := (List.map_append ..).symm
  rw [hevents, storeEvents]
  split
  · rename_i h
    rw [h]
    exact performs_of_leaves (leaves_pure ())
  · rw [← List.append_nil (eventWrites (batchEvents batch))]
    exact (performs_sqlite (performs_insertRunEvents _ _)).bind (fun _ => performs_of_leaves (leaves_pure ()))

theorem applyBatch_partly (faults : ProcessFaults) (batch : QueuedIngestBatch) (s : ProcessorStore) :
    ∃ n, (applyBatch faults batch s).2.db =
      applyAll batch.runId ((contentsWrites (batchContents batch)).take n) s.db := by
  have hrecord : Leaves ProcessorStore.db
      (recordBatch faults.recordBatch ⟨batch.batchId, batch.runId, batch.seq, batch.payloadHash⟩) := by
    apply leaves_execute
    intro s _ s' hrecord
    split at hrecord
    · obtain ⟨-, rfl⟩ := Prod.mk.inj (Except.ok.inj hrecord)
      rfl
    · cases hrecord
  have hrest : Performs ProcessorStore.db (Write.apply batch.runId) _ (storeRest faults batch) :=
    (performs_storePoints faults batch).bind (fun _ => (performs_storeTags faults batch).bind (fun _ =>
      (performs_storeParams faults batch).bind (fun _ => performs_storeEvents faults batch)))
  have hall : Performs ProcessorStore.db (Write.apply batch.runId) _ (applyBatch faults batch) :=
    (performs_storeMetrics faults batch).bind (fun _ => hrest.bind (fun _ =>
      performs_of_leaves (leaves_mapError hrecord)))
  obtain ⟨n, hn⟩ := hall.partly s
  rw [List.nil_append, List.append_nil] at hn
  exact ⟨n, hn⟩

end Programs

theorem httpIngestBatch_eq (env : Env) (sent : Sent) (fault : Option String) (faults : Faults) :
    httpIngestBatch env sent fault faults = (accept env sent fault >>= fun accepted => match accepted with
      | none => pure duplicateAnswer
      | some h => do
          mapError Failure.http (checkStatus faults.getRun h.runId)
          let persisted ← mapError Failure.http (deliver env faults h.pending h.contents)
          pure (ingested h.contents persisted)) := by
  rw [httpIngestBatch, accept, bind_assoc]
  congr 1
  funext admitted
  cases admitted with
  | duplicate => rfl
  | process p =>
      change settle env faults p = _
      rw [bind_assoc]
      unfold settle
      congr 1
      funext validation
      change _ = (mapError Failure.http (checkStatus faults.getRun p.sent.request.runId) >>= fun _ =>
        mapError Failure.http (deliver env faults p (prepareContents env p validation)) >>= fun persisted =>
          pure (ingested (prepareContents env p validation) persisted))
      rw [checkStatus, mapError_bind, bind_assoc]

/-- A batch of a run passed the check of its status. -/
def Admitted (past : List (Input × Output)) (runId batchId : String) (contents : Contents) : Prop :=
  ∃ e ∈ past, e.2 = .admitted runId batchId contents

/-- Whatever is on its way to the tables passed the check. -/
structure Checked (past : List (Input × Output)) (s : System) : Prop where
  handlers : ∀ h ∈ s.handlers, (∃ rest, h.phase = .writing rest) ∨ h.phase = .enqueuing →
    Admitted past h.runId h.batchId h.contents
  stream : ∀ batch ∈ s.server.stream, Admitted past batch.runId batch.batchId (batchContents batch)
  jobs : ∀ job ∈ s.jobs, Admitted past job.batch.runId job.batch.batchId (batchContents job.batch)

variable {env : Env} {past : List (Input × Output)} {s : System}

theorem Admitted.more {runId batchId : String} {contents : Contents} (h : Admitted past runId batchId contents)
    (e : Input × Output) : Admitted (past ++ [e]) runId batchId contents := by
  obtain ⟨e', he', hout⟩ := h
  exact ⟨e', List.mem_append_left _ he', hout⟩

theorem Checked.more (h : Checked past s) (e : Input × Output) : Checked (past ++ [e]) s where
  handlers handler hmem hphase := (h.handlers handler hmem hphase).more e
  stream batch hmem := (h.stream batch hmem).more e
  jobs job hmem := (h.jobs job hmem).more e

theorem Checked.setPhase (h : Checked past s) {i : Nat} {handler : Handler} {phase : Phase}
    (hadmitted : (∃ rest, phase = .writing rest) ∨ phase = .enqueuing →
      Admitted past handler.runId handler.batchId handler.contents) :
    Checked past (s.setPhase i handler phase) where
  handlers other hmem hphase := by
    rcases List.mem_or_eq_of_mem_set hmem with hmem | rfl
    · exact h.handlers other hmem hphase
    · exact hadmitted hphase
  stream := h.stream
  jobs := h.jobs

theorem Checked.setRest (h : Checked past s) {i : Nat} {job : Job} (hjob : job ∈ s.jobs)
    (rest : Option (List Write)) :
    Checked past (s.setRest i job rest) where
  handlers := h.handlers
  stream := h.stream
  jobs other hmem := by
    rcases List.mem_or_eq_of_mem_set hmem with hmem | rfl
    · exact h.jobs other hmem
    · exact h.jobs job hjob

theorem Checked.apply (h : Checked past s) (runId : String) (w : Write) : Checked past (s.apply runId w) :=
  ⟨h.handlers, h.stream, h.jobs⟩

theorem leaves_accept (sent : Sent) (fault : Option String) :
    Leaves IngestPipeline.tables (accept env sent fault) := by
  apply leaves_bind (leaves_mapError (IngestPipeline.leaves_receive env sent fault))
  intro admitted
  cases admitted with
  | duplicate => exact leaves_pure none
  | process p => exact leaves_bind (leaves_mapError ⟨fun _ => rfl⟩) (fun _ => leaves_pure _)

theorem phase_accept {sent : Sent} {fault : Option String} {server server' : ServerState} {h : Handler}
    (haccept : accept env sent fault server = (.ok (some h), server')) : h.phase = .checking := by
  obtain ⟨admitted, server₁, -, hrest⟩ := bind_eq_ok haccept
  cases admitted with
  | duplicate =>
      obtain ⟨hnone, -⟩ := pure_eq_ok hrest
      cases hnone
  | process p =>
      obtain ⟨validation, server₂, -, hlast⟩ := bind_eq_ok hrest
      obtain ⟨hsome, -⟩ := pure_eq_ok hlast
      rw [Option.some.inj hsome]

theorem checked_request (h : Checked past s) (sent : Sent) (fault : Option String) :
    Checked past (step env s (.request sent fault)).2 where
  handlers handler hmem hphase := by
    rcases List.mem_append.mp hmem with hmem | hmem
    · exact h.handlers handler hmem hphase
    · have hsome : (accept env sent fault s.server).1 = .ok (some handler) := by
        generalize (accept env sent fault s.server).1 = r at hmem
        rcases r with e | _ | handler'
        · exact absurd hmem List.not_mem_nil
        · exact absurd hmem List.not_mem_nil
        · rw [List.mem_singleton.mp hmem]
      have hchecking := phase_accept (Prod.ext hsome rfl)
      rcases hphase with ⟨rest, hphase⟩ | hphase <;> rw [hphase] at hchecking <;> cases hchecking
  stream batch hmem := by
    have hstream : (step env s (.request sent fault)).2.server.stream = s.server.stream :=
      congrArg Prod.snd ((leaves_accept sent fault).shows s.server)
    exact h.stream batch (hstream ▸ hmem)
  jobs := h.jobs

theorem checked_check (h : Checked past s) (i : Nat) (fault : Option String) (handler : Handler) (input : Input) :
    Checked (past ++ [(input, (stepCheck env s i fault handler).1)]) (stepCheck env s i fault handler).2 := by
  rw [stepCheck]
  split
  · apply (h.more _).setPhase
    intro _
    exact ⟨_, List.mem_append_right _ List.mem_cons_self, rfl⟩
  · apply (h.more _).setPhase
    rintro (⟨rest, hphase⟩ | hphase) <;> cases hphase

theorem checked_write (h : Checked past s) (i : Nat) {handler : Handler}
    (hadmitted : Admitted past handler.runId handler.batchId handler.contents)
    (w : Write) (rest : List Write) (fault : Option String) :
    Checked past (stepWrite s i handler w rest fault).2 := by
  cases fault with
  | none => exact (h.apply _ _).setPhase (fun _ => hadmitted)
  | some text => exact h.setPhase (fun _ => hadmitted)

theorem checked_enqueue (h : Checked past s) (i : Nat) {handler : Handler}
    (hadmitted : Admitted past handler.runId handler.batchId handler.contents)
    (fault : Option EnqueueFault) (queuedAt : Int) : Checked past (stepEnqueue s i fault queuedAt handler).2 := by
  have hstream : ∀ batch ∈ (enqueue fault
    (buildQueuedIngestBatch handler.pending handler.contents queuedAt) s.server.stream).2,
      Admitted past batch.runId batch.batchId (batchContents batch) := by
    intro batch hmem
    have hcases : batch ∈ s.server.stream ∨
        batch = buildQueuedIngestBatch handler.pending handler.contents queuedAt := by
      cases fault with
      | none => exact (List.mem_append.mp hmem).imp_right List.mem_singleton.mp
      | some fault =>
          simp only [enqueue] at hmem
          split at hmem
          · exact (List.mem_append.mp hmem).imp_right List.mem_singleton.mp
          · exact .inl hmem
    rcases hcases with hmem | rfl
    · exact h.stream batch hmem
    · exact hadmitted
  have hnext : Checked past { s with server := { s.server with
      stream := (enqueue fault (buildQueuedIngestBatch handler.pending handler.contents queuedAt)
        s.server.stream).2 } } :=
    ⟨h.handlers, hstream, h.jobs⟩
  exact hnext.setPhase (fun _ => hadmitted)

theorem checked_take (h : Checked past s) {batch : QueuedIngestBatch} (hmem : batch ∈ s.server.stream)
    (fault : Option String) :
    Checked past (stepTake s batch fault) := by
  rw [stepTake]
  split
  · exact h
  · refine ⟨h.handlers, h.stream, ?_⟩
    intro job hjob
    rcases List.mem_append.mp hjob with hjob | hjob
    · exact h.jobs job hjob
    · rw [List.mem_singleton.mp hjob]
      exact h.stream batch hmem

theorem checked_process (h : Checked past s) (i : Nat) {job : Job} (hjob : job ∈ s.jobs) (fault : Option String)
    (writes : List Write) : Checked past (stepProcess s i job fault writes).2 := by
  cases writes with
  | nil =>
      have hrecord : Checked past (stepRecord s job.batch fault) := by
        cases fault <;> exact ⟨h.handlers, h.stream, h.jobs⟩
      exact hrecord.setRest (by cases fault <;> exact hjob) none
  | cons w rest =>
      cases fault with
      | none => exact (h.apply _ _).setRest hjob _
      | some text => exact h.setRest hjob _

theorem checked_step (h : Checked past s) (i : Input) :
    Checked (past ++ [(i, (step env s i).1)]) (step env s i).2 := by
  cases i with
  | request sent fault => exact (checked_request h sent fault).more _
  | check i fault =>
      simp only [step]
      split
      · exact checked_check h i fault _ _
      · exact h.more _
  | write i fault =>
      simp only [step]
      split
      · rename_i p contents w rest hget
        exact (checked_write h i (h.handlers _ (List.mem_of_getElem? hget) (.inl ⟨_, rfl⟩)) w rest fault).more _
      · exact h.more _
  | enqueue i fault queuedAt =>
      simp only [step]
      split
      · rename_i p contents hget
        exact (checked_enqueue h i (h.handlers _ (List.mem_of_getElem? hget) (.inr rfl)) fault queuedAt).more _
      · exact h.more _
  | take i fault =>
      simp only [step]
      split
      · rename_i batch hget
        exact (checked_take h (List.mem_of_getElem? hget) fault).more _
      · exact h.more _
  | process i fault =>
      simp only [step]
      split
      · rename_i batch rest hget
        exact (checked_process h i (List.mem_of_getElem? hget) fault rest).more _
      · exact h.more _
  | finish runId status fault =>
      have hnext : Checked past (step env s (.finish runId status fault)).2 := ⟨h.handlers, h.stream, h.jobs⟩
      exact hnext.more _

theorem admitted_of_wrote (h : Checked past s) {i : Input} {runId batchId : String} {contents : Contents} {w : Write}
    (hout : (step env s i).1 = .wrote runId batchId contents w) : Admitted past runId batchId contents := by
  cases i with
  | request sent fault | finish runId status fault => cases hout
  | check i fault =>
      simp only [step] at hout
      split at hout
      · rw [stepCheck] at hout
        split at hout <;> cases hout
      · cases hout
  | write i fault =>
      simp only [step] at hout
      split at hout
      · rename_i p contents w rest hget
        have hadmitted := h.handlers _ (List.mem_of_getElem? hget) (.inl ⟨_, rfl⟩)
        cases fault with
        | none =>
            cases hout
            exact hadmitted
        | some text => cases hout
      · cases hout
  | enqueue i fault queuedAt | take i fault =>
      simp only [step] at hout
      split at hout <;> cases hout
  | process i fault =>
      simp only [step] at hout
      split at hout
      · rename_i batch rest hget
        have hadmitted := h.jobs _ (List.mem_of_getElem? hget)
        cases rest with
        | nil => cases hout
        | cons w rest =>
            cases fault with
            | none =>
                cases hout
                exact hadmitted
            | some text => cases hout
      · cases hout

theorem running_of_admitted {i : Input} {runId batchId : String} {contents : Contents}
    (hout : (step env s i).1 = .admitted runId batchId contents) :
    ∃ status, statusOf runId s.server.db = some status ∧ Text.eqIgnoreAsciiCase status "running" := by
  have hcheck : ∃ (j : Nat) (fault : Option String) (h : Handler), (stepCheck env s j fault h).1 =
      .admitted runId batchId contents := by
    cases i with
    | request sent fault | finish runId status fault => cases hout
    | check j fault =>
        simp only [step] at hout
        split at hout
        · exact ⟨_, _, _, hout⟩
        · cases hout
    | write j fault =>
        simp only [step] at hout
        split at hout
        · cases fault <;> cases hout
        · cases hout
    | enqueue j fault queuedAt | take j fault =>
        simp only [step] at hout
        split at hout <;> cases hout
    | process j fault =>
        simp only [step] at hout
        split at hout
        · rename_i batch rest hget
          cases rest with
          | nil => cases hout
          | cons w rest => cases fault <;> cases hout
        · cases hout
  obtain ⟨j, fault, h, hcheck⟩ := hcheck
  rw [stepCheck] at hcheck
  split at hcheck
  · rename_i u hok
    cases hcheck
    obtain ⟨run, server', hread, hrunning⟩ := bind_eq_ok (Prod.ext hok rfl)
    obtain ⟨db', hget, -⟩ := zoom_eq_ok (mapError_eq_ok hread)
    have hfound := (getRun_ok hget).1
    refine ⟨run.status, congrArg (Option.map RunRow.status) hfound, ?_⟩
    by_contra hnot
    rw [requireRunning, if_neg hnot] at hrunning
    cases hrunning
  · cases hcheck

/-- Every part of a batch that is written, by the server or by the processor, belongs
to a batch whose run was running when it passed the check before. -/
def WritesAdmitted (env : Env) (s : System) (inputs : List Input) : Prop :=
  ∀ before input later, inputs = before ++ input :: later → ∀ runId batchId contents w,
    (step env (after (step env) s before) input).1 = .wrote runId batchId contents w →
      ∃ early check rest, before = early ++ check :: rest ∧
        (step env (after (step env) s early) check).1 = .admitted runId batchId contents ∧
        ∃ status, statusOf runId (after (step env) s early).server.db = some status ∧
          Text.eqIgnoreAsciiCase status "running"

/-- Nothing is written for a run that has ended. -/
def WritesEnded (env : Env) (s : System) (inputs : List Input) : Prop :=
  ∀ before input later, inputs = before ++ input :: later → ∀ runId batchId contents w,
    (step env (after (step env) s before) input).1 = .wrote runId batchId contents w →
      ∀ status, statusOf runId (after (step env) s before).server.db = some status → ¬ Terminal status

/-- However requests, the processor and the ends of runs interleave, a batch that is
checked after its run has ended is not written. -/
theorem writes_admitted (env : Env) (db : Database) (idempotency : Idempotency.IdempotencyStore)
    (cardinality : Cardinality.CardinalityTracker) (batches : Table BatchRow BatchRow.clash) (inputs : List Input) :
    WritesAdmitted env (.start db idempotency cardinality batches) inputs := by
  rintro before input later - runId batchId contents w hout
  have hstart : Checked [] (.start db idempotency cardinality batches) :=
    ⟨fun _ h => absurd h List.not_mem_nil, fun _ h => absurd h List.not_mem_nil, fun _ h =>
      absurd h List.not_mem_nil⟩
  have hchecked := invariant_history Checked (fun past s i hs _ => checked_step hs i) [] _ before hstart
    (guarded_true (step env) _ _ _)
  obtain ⟨e, he, hadmitted⟩ := admitted_of_wrote hchecked hout
  obtain ⟨early, rest, hsplit, hcheck⟩ := mem_history he
  rw [hadmitted] at hcheck
  exact ⟨early, e.1, rest, hsplit, hcheck, running_of_admitted hcheck⟩

def lossContents : Contents := ⟨[⟨"loss", 1, 0, none⟩], [], [], [], []⟩

def queuedServer : Env := { RetrySafety.devServer with queued := true }

def running : System := .start RetrySafety.oneRun .empty .empty .empty

theorem written_after_end :
    ¬ WritesEnded RetrySafety.devServer running
      [.request RetrySafety.lossBatch none, .check 0 none, .finish "r" "finished" none, .write 0 none] ∧
    ¬ WritesEnded queuedServer running [.request RetrySafety.lossBatch none, .check 0 none, .enqueue 0 none 0,
      .finish "r" "finished" none, .take 0 none, .process 0 none] := by
  constructor
  · intro h
    exact h [.request RetrySafety.lossBatch none, .check 0 none, .finish "r" "finished" none]
      (.write 0 none) [] rfl "r" "b"
      lossContents (.metric ⟨"loss", 1, 0, none⟩) (by decide +kernel) "finished" (by decide +kernel) (by decide)
  · intro h
    exact h [.request RetrySafety.lossBatch none, .check 0 none, .enqueue 0 none 0, .finish "r" "finished" none,
      .take 0 none] (.process 0 none) [] rfl "r" "b" lossContents (.metric ⟨"loss", 1, 0, none⟩) (by decide +kernel)
      "finished" (by decide +kernel) (by decide)

end MLRunX.FinishRaces
