import MLRunX.QueuedIngest
import MLRunX.RetrySafety

namespace MLRunX.IngestPipeline

open Auth Cardinality Commands Http Idempotency Ingest IngestRequest Processor QueuedIngest RetrySafety RunTables
  Runs Statements Tables

structure Pipeline where
  store : ProcessorStore
  idempotency : IdempotencyStore
  cardinality : CardinalityTracker
  stream : List QueuedIngestBatch
  acked : List Nat

def Pipeline.start (db : Database) : Pipeline := ⟨⟨db, .empty, []⟩, .empty, .empty, [], []⟩

def Pipeline.server (s : Pipeline) : ServerState := ⟨s.store.db, s.idempotency, s.cardinality, s.stream⟩

def onServer {ε α : Type} (x : Command ServerState ε α) : Command Pipeline ε α :=
  zoom Pipeline.server (fun server s => { s with
    store := { s.store with db := server.db }
    idempotency := server.idempotency
    cardinality := server.cardinality
    stream := server.stream }) x

def ack (fault : Option String) (id : Nat) : Command Pipeline String Unit := fun s =>
  match fault with
  | some text => (.error text, s)
  | none => (.ok (), { s with acked := if id ∈ s.acked then s.acked else s.acked ++ [id] })

def processEntry (faults : ProcessFaults) (id : Nat) (batch : QueuedIngestBatch) : Command Pipeline String Unit :=
  Processor.processEntry faults batch (zoom Pipeline.store (fun store s => { s with store }))
    (fun fault => ack fault id)

/-- The queue path of the server takes a request, or an entry of the stream is
delivered, for the first time or again. -/
inductive Input
  | ingest (sent : Sent) (fault : Option String) (faults : Faults)
  | deliver (id : Nat) (faults : ProcessFaults)

def step (env : Env) : Machine Pipeline Input Unit
  | s, .ingest sent fault faults =>
      ((), (onServer (httpIngestBatch { env with queued := true } sent fault faults) s).2)
  | s, .deliver id faults => match s.stream[id]? with
      | some batch => ((), (processEntry faults id batch s).2)
      | none => ((), s)

def Pipeline.entries (s : Pipeline) (ids : List Nat) : List QueuedIngestBatch := ids.filterMap (s.stream[·]?)

def Pipeline.unacked (s : Pipeline) : List QueuedIngestBatch :=
  s.entries ((List.range s.stream.length).filter (· ∉ s.acked))

structure Delivery where
  batch : QueuedIngestBatch
  writes : Writes
  recorded : Bool

def recordedOf (deliveries : List Delivery) : List QueuedIngestBatch :=
  (deliveries.filter Delivery.recorded).map Delivery.batch

/-- The deliveries of a run in their order. Each writes a part of its entry, and all of it
if the entry is recorded, and the tables hold what was written last. -/
structure Log (start : Database) (s : Pipeline) (deliveries : List Delivery) : Prop where
  entries : ∀ d ∈ deliveries, d.batch ∈ s.stream
  part : ∀ d ∈ deliveries, d.writes.Part (writesOf d.batch)
  whole : ∀ d ∈ deliveries, d.recorded = true → d.writes = writesOf d.batch
  batches : s.store.batches.rows = (recordedOf deliveries).map batchRow
  written : Written (allWrites (deliveries.map Delivery.writes)) start s.store.db

/-- What acknowledged entries have in the tables: their metrics, once, beside what entries
that wait for their acknowledgement have added, and all that they write. -/
structure AppliedOnce (start : Database) (s : Pipeline) : Prop where
  metrics : ∃ rest, (∀ row ∈ rest, ∃ batch ∈ s.unacked, row ∈ metricRows batch) ∧
    s.store.db.metrics.Perm (start.metrics ++ (s.entries s.acked).flatMap metricRows ++ rest)
  counts : ∃ tried ⊆ s.unacked, ∀ runId, metricsCountOf s.store.db runId =
    (metricsCountOf start runId).map (countBatches (s.entries s.acked ++ tried) runId)
  applied : ∃ deliveries, Log start s deliveries ∧ (s.entries s.acked).Subperm (recordedOf deliveries)

/-- A delivered entry shares its batch id with no batch of another run that has
been recorded. Where it has metrics, it fails at the first of them or not at
all, and when it has been recorded this is found out. -/
def Careful (_ : List (Input × Unit)) (s : Pipeline) : Input → Prop
  | .ingest _ _ _ => True
  | .deliver id faults => ∀ batch, s.stream[id]? = some batch →
      (∀ row ∈ s.store.batches.rows, row.id = batch.batchId → row.runId = batch.runId) ∧
        ((Known s.store batch → faults.batchExists = none ∨ batch.metrics = [] ∨
          (faults.metrics 0).isSome = true) ∧
          (¬ Known s.store batch → Harmless faults batch))

def tables (s : ServerState) : Database × List QueuedIngestBatch := (s.db, s.stream)

theorem leaves_readRun (fault : Option String) (runId : String) : Leaves tables (readRun fault runId) := by
  apply leaves_mapError
  constructor
  intro s
  have h := (leaves_getRun fault runId).shows s.db
  simp only [tables, onDb, zoom]
  exact congrArg (fun db => (db, s.stream)) h

theorem leaves_receive (env : Env) (sent : Sent) (fault : Option String) :
    Leaves tables (receive env sent fault) := by
  refine leaves_bind (leaves_readRun fault _) (fun run => ?_)
  refine leaves_bind (leaves_ofExcept _) (fun _ => leaves_bind (leaves_ofExcept _) (fun batch => ?_))
  exact leaves_bind ⟨fun _ => rfl⟩ (fun result => leaves_ofExcept _)

def Appends (key : String × String) (s s' : Database × List QueuedIngestBatch) : Prop :=
  s'.1 = s.1 ∧ (s'.2 = s.2 ∨ ∃ batch : QueuedIngestBatch, s'.2 = s.2 ++ [batch] ∧
    (batch.runId, batch.batchId) = key)

theorem appends_enqueue (fault : Option EnqueueFault) (batch : QueuedIngestBatch) (s : ServerState) :
    Appends (batch.runId, batch.batchId) (tables s) (tables (onStream (enqueue fault batch) s).2) := by
  refine ⟨rfl, ?_⟩
  simp only [onStream, zoom, enqueue, tables]
  cases fault with
  | none => exact .inr ⟨batch, rfl, rfl⟩
  | some fault =>
      obtain ⟨text, delivered⟩ := fault
      cases delivered with
      | false => exact .inl rfl
      | true => exact .inr ⟨batch, rfl, rfl⟩

theorem appends_settle {env : Env} (hqueued : env.queued = true) (faults : Faults) (p : Pending)
    (s : ServerState) :
    Appends p.sent.key (tables s) (tables (settle env faults p s).2) := by
  have hstart : tables s = tables s := rfl
  have hleave : ∀ {α : Type} {x : Command ServerState Failure α}, Leaves tables x →
      Triple (fun s' => tables s' = tables s) x (fun _ s' => tables s' = tables s)
        (fun s' => Appends p.sent.key (tables s) (tables s')) := by
    intro α x hx
    refine triple_weaken (hx.keeps (fun _ _ h hs => h.symm.trans hs)) (fun _ h => h) (fun _ _ h => h) ?_
    intro s' hs'
    rw [hs']
    exact ⟨rfl, .inl rfl⟩
  have hsettle : Triple (fun s' => tables s' = tables s) (settle env faults p)
      (fun _ s' => Appends p.sent.key (tables s) (tables s'))
      (fun s' => Appends p.sent.key (tables s) (tables s')) := by
    refine triple_bind (hleave (leaves_mapError ⟨fun _ => rfl⟩)) (fun validation => ?_)
    refine triple_bind (hleave (leaves_mapError (leaves_readRun _ _))) (fun run => ?_)
    refine triple_bind (hleave (leaves_mapError (leaves_ofExcept _))) (fun _ => ?_)
    refine triple_bind (triple_mapError ?_) (fun persisted => triple_pure (fun _ h => h))
    rw [deliver, if_pos hqueued]
    refine triple_bind (triple_mapError ⟨fun s' hs' => ?_⟩) (fun _ => triple_pure (fun _ h => h))
    have happends := appends_enqueue faults.enqueue (buildQueuedIngestBatch p (prepareContents env p validation)
      faults.queuedAt) s'
    rw [hs'] at happends
    generalize onStream _ s' = r at happends ⊢
    rcases r with ⟨e | u, s''⟩ <;> exact happends
  exact hsettle.after (fun _ _ h => h) (fun _ h => h) hstart

/-- What a request to the queue path does: it may append an entry that was not
recorded and is recorded now. -/
structure Enqueues (s s' : ServerState) : Prop where
  db : s'.db = s.db
  recorded : ∀ key, s.idempotency.batches key ≠ none → s'.idempotency.batches key ≠ none
  stream : s'.stream = s.stream ∨ ∃ batch : QueuedIngestBatch, s'.stream = s.stream ++ [batch] ∧
    s.idempotency.batches (batch.runId, batch.batchId) = none ∧
    s'.idempotency.batches (batch.runId, batch.batchId) ≠ none

theorem Enqueues.of_batches {s s' : ServerState} (htables : tables s' = tables s)
    (hbatches : s'.idempotency.batches = s.idempotency.batches) : Enqueues s s' where
  db := congrArg Prod.fst htables
  recorded key h := by rwa [hbatches]
  stream := .inl (congrArg Prod.snd htables)

theorem enqueues_ingest {env : Env} (hqueued : env.queued = true) (sent : Sent) (fault : Option String)
    (faults : Faults)
    (s : ServerState) : Enqueues s (httpIngestBatch env sent fault faults s).2 := by
  have hcases := receive_cases env sent fault s
  have htables := (leaves_receive env sent fault).shows s
  simp only [httpIngestBatch, bind, mapError]
  generalize receive env sent fault s = admitted at hcases htables ⊢
  rcases admitted with ⟨e | _ | p, s₁⟩
  · exact .of_batches htables hcases
  · exact .of_batches htables hcases.1
  · obtain ⟨hsent, -, -, hnone, hbatches⟩ := hcases
    have happends := appends_settle hqueued faults p s₁
    have hleaves := (settle_leaves env faults p).shows s₁
    rw [htables, hsent] at happends
    have hrecorded : ∀ key, s.idempotency.batches key ≠ none →
        (settle env faults p s₁).2.idempotency.batches key ≠ none := by
      intro key hkey
      rw [hleaves, hbatches]
      have hne : key ≠ sent.key := fun h => hkey (h ▸ hnone)
      rwa [Function.update_of_ne hne]
    refine ⟨happends.1, hrecorded, happends.2.imp_right ?_⟩
    rintro ⟨batch, hstream, hkey⟩
    refine ⟨batch, hstream, ?_, ?_⟩
    · rw [hkey, hnone]
    · show (settle env faults p s₁).2.idempotency.batches (batch.runId, batch.batchId) ≠ none
      rw [hkey, hleaves, hbatches, Function.update_self]
      exact Option.some_ne_none _

def key (batch : QueuedIngestBatch) : String × String := (batch.runId, batch.batchId)

/-- The entries that are done are in the tables and on record, and whatever is
acknowledged is done. -/
structure Sound (start : Database) (s : Pipeline) (done : List Nat) : Prop where
  nodup : done.Nodup
  exist : ∀ id ∈ done, id < s.stream.length
  acked : s.acked ⊆ done
  ackedNodup : s.acked.Nodup
  keys : (s.stream.map key).Nodup
  recorded : ∀ batch ∈ s.stream, s.idempotency.batches (key batch) ≠ none
  log : ∃ deliveries, Log start s deliveries ∧ recordedOf deliveries = s.entries done
  metrics : s.store.db.metrics = start.metrics ++ (s.entries done).flatMap metricRows
  counts : ∀ runId, metricsCountOf s.store.db runId =
    (metricsCountOf start runId).map (countBatches (s.entries done) runId)

variable {start : Database} {s : Pipeline} {done : List Nat} {batch : QueuedIngestBatch} {id : Nat}

theorem Sound.batches (h : Sound start s done) : s.store.batches.rows = (s.entries done).map batchRow := by
  obtain ⟨deliveries, hlog, hdone⟩ := h.log
  rw [hlog.batches, hdone]

theorem Log.deliver {deliveries : List Delivery} (h : Log start s deliveries) (hbatch : batch ∈ s.stream)
    {store : ProcessorStore} {w : Writes} (recorded : Bool) (hpart : w.Part (writesOf batch))
    (hwhole : recorded = true → w = writesOf batch) (hwritten : Written w s.store.db store.db)
    (hbatches : store.batches.rows =
      s.store.batches.rows ++ (recordedOf [⟨batch, w, recorded⟩]).map batchRow) :
    Log start { s with store } (deliveries ++ [⟨batch, w, recorded⟩]) where
  entries d hd := by
    rcases List.mem_append.mp hd with hold | hlast
    · exact h.entries d hold
    · rw [List.mem_singleton.mp hlast]
      exact hbatch
  part d hd := by
    rcases List.mem_append.mp hd with hold | hlast
    · exact h.part d hold
    · rw [List.mem_singleton.mp hlast]
      exact hpart
  whole d hd := by
    rcases List.mem_append.mp hd with hold | hlast
    · exact h.whole d hold
    · rw [List.mem_singleton.mp hlast]
      exact hwhole
  batches := by
    rw [hbatches, h.batches, recordedOf, recordedOf, recordedOf, List.filter_append, List.map_append, List.map_append]
  written := by
    rw [List.map_append, List.map_singleton, allWrites_concat]
    exact h.written.trans hwritten

theorem mem_entries {ids : List Nat} : batch ∈ s.entries ids ↔ ∃ id ∈ ids, s.stream[id]? = some batch :=
  List.mem_filterMap

theorem entries_append_stream (s : Pipeline) {ids : List Nat} (h : ∀ id ∈ ids, id < s.stream.length)
    (more : List QueuedIngestBatch) :
    ids.filterMap ((s.stream ++ more)[·]?) = s.entries ids := by
  apply List.filterMap_congr
  intro id hid
  exact List.getElem?_append_left (h id hid)

theorem entries_concat (s : Pipeline) (ids : List Nat) (hid : s.stream[id]? = some batch) :
    s.entries (ids ++ [id]) = s.entries ids ++ [batch] := by
  simp [Pipeline.entries, hid]

theorem Sound.place (h : Sound start s done) {id id' : Nat} {batch batch' : QueuedIngestBatch}
    (hid : s.stream[id]? = some batch) (hid' : s.stream[id']? = some batch') (hkey : key batch = key batch') :
    id = id' := by
  have hlt : id < (s.stream.map key).length := by
    rw [List.length_map]
    exact (List.getElem?_eq_some_iff.mp hid).1
  apply (List.getElem?_inj hlt h.keys).mp
  rw [List.getElem?_map, List.getElem?_map, hid, hid', Option.map_some, Option.map_some, hkey]

theorem sound_start (db : Database) : Sound db (.start db) [] where
  nodup := .nil
  exist := nofun
  acked := List.Subset.refl _
  ackedNodup := .nil
  keys := .nil
  recorded := nofun
  log := ⟨[], ⟨nofun, nofun, nofun, rfl, written_nil rfl rfl rfl⟩, rfl⟩
  metrics := (List.append_nil _).symm
  counts _ := Option.map_id'.symm

theorem Sound.enqueue (h : Sound start s done) {server : ServerState} (hserver : Enqueues s.server server) :
    Sound start { s with
      store := { s.store with db := server.db }
      idempotency := server.idempotency
      cardinality := server.cardinality
      stream := server.stream } done := by
  obtain ⟨hdb, hrecorded, hstream⟩ := hserver
  obtain ⟨more, hmore, hnew⟩ : ∃ more, server.stream = s.stream ++ more ∧ ((s.stream ++ more).map key).Nodup ∧
      ∀ batch ∈ more, server.idempotency.batches (key batch) ≠ none := by
    rcases hstream with hsame | ⟨batch, happend, hnone, hsome⟩
    · exact ⟨[], by rw [hsame, List.append_nil]; rfl, by rw [List.append_nil]; exact h.keys, nofun⟩
    · refine ⟨[batch], happend, ?_, fun b hb => List.mem_singleton.mp hb ▸ hsome⟩
      rw [List.map_append, List.map_singleton]
      refine List.nodup_append.mpr ⟨h.keys, List.nodup_singleton _, ?_⟩
      rintro k hk k' hk' rfl
      obtain ⟨old, hold, hkey⟩ := List.mem_map.mp hk
      rw [List.mem_singleton.mp hk'] at hkey
      exact h.recorded old hold (by rw [hkey]; exact hnone)
  have hentries := entries_append_stream s h.exist more
  rw [hmore, hdb]
  obtain ⟨deliveries, hlog, hdone⟩ := h.log
  refine ⟨h.nodup, ?_, h.acked, h.ackedNodup, hnew.1, ?_, ?_, ?_, ?_⟩
  · intro id hid
    exact Nat.lt_of_lt_of_le (h.exist id hid) (by simp)
  · intro batch hbatch
    rcases List.mem_append.mp hbatch with hold | hadded
    · exact hrecorded _ (h.recorded batch hold)
    · exact hnew.2 batch hadded
  · refine ⟨deliveries, { hlog with entries := fun d hd => ?_ }, hdone.trans hentries.symm⟩
    exact List.mem_append_left more (hlog.entries d hd)
  · exact h.metrics.trans (congrArg (fun batches => start.metrics ++ batches.flatMap metricRows) hentries.symm)
  · intro runId
    exact (h.counts runId).trans (congrArg (fun batches =>
      (metricsCountOf start runId).map (countBatches batches runId))
      hentries.symm)

theorem Sound.ack (h : Sound start s done) (hid : id ∈ done) (fault : Option String) :
    Sound start (ack fault id s).2 done := by
  cases fault with
  | some text => exact h
  | none =>
      obtain ⟨deliveries, hlog, hdone⟩ := h.log
      refine { h with acked := ?_, ackedNodup := ?_, log := ⟨deliveries, { hlog with }, hdone⟩ }
      · show (if id ∈ s.acked then s.acked else s.acked ++ [id]) ⊆ done
        split
        · exact h.acked
        · exact List.append_subset.mpr ⟨h.acked, List.cons_subset.mpr ⟨hid, List.nil_subset _⟩⟩
      · show (if id ∈ s.acked then s.acked else s.acked ++ [id]).Nodup
        split
        · exact h.ackedNodup
        · rename_i hnew
          exact List.nodup_append.mpr ⟨h.ackedNodup, List.nodup_singleton id,
            fun a ha b hb hab => hnew (List.mem_singleton.mp hb ▸ hab ▸ ha)⟩

theorem Sound.keep (h : Sound start s done) (hbatch : batch ∈ s.stream) {store : ProcessorStore}
    (hstore : StoreGrows [] s.store store) {w : Writes} (hpart : w.Part (writesOf batch))
    (hwritten : Written w s.store.db store.db) : Sound start { s with store } done where
  nodup := h.nodup
  exist := h.exist
  acked := h.acked
  ackedNodup := h.ackedNodup
  keys := h.keys
  recorded := h.recorded
  log := by
    obtain ⟨deliveries, hlog, hdone⟩ := h.log
    refine ⟨_, hlog.deliver hbatch false hpart nofun hwritten ?_, ?_⟩
    · rw [hstore.2]
      exact (List.append_nil _).symm
    · refine Eq.trans ?_ hdone
      rw [recordedOf, List.filter_append, List.map_append]
      exact List.append_nil _
  metrics := by
    have hmetrics := hstore.1.metrics
    rw [List.flatMap_nil, List.append_nil] at hmetrics
    exact hmetrics.trans h.metrics
  counts runId := by
    have hcounts := hstore.1.counts runId
    rw [show countBatches [] runId = id from rfl, Option.map_id, id_eq] at hcounts
    exact hcounts.trans (h.counts runId)

theorem Sound.apply (h : Sound start s done) (hid : s.stream[id]? = some batch) {store : ProcessorStore}
    (hstore : Recorded batch s.store store) : Sound start { s with store } (done ++ [id]) := by
  have hnew : id ∉ done := by
    intro hdone
    have hrow : batchRow batch ∈ s.store.batches.rows := by
      rw [h.batches]
      exact List.mem_map_of_mem (mem_entries.mpr ⟨id, hdone, hid⟩)
    exact hstore.fresh _ hrow rfl
  have hentries := entries_concat s done hid
  refine ⟨?_, ?_, ?_, h.ackedNodup, h.keys, h.recorded, ?_, ?_, ?_⟩
  · exact List.nodup_append.mpr ⟨h.nodup, List.nodup_singleton id,
      fun a ha b hb hab => hnew (List.mem_singleton.mp hb ▸ hab ▸ ha)⟩
  · intro i hi
    rcases List.mem_append.mp hi with hi | hi
    · exact h.exist i hi
    · rw [List.mem_singleton.mp hi]
      exact (List.getElem?_eq_some_iff.mp hid).1
  · exact fun i hi => List.mem_append_left _ (h.acked hi)
  · obtain ⟨deliveries, hlog, hdone⟩ := h.log
    refine ⟨_, hlog.deliver (List.mem_of_getElem? hid) true (Writes.part_self _) (fun _ => rfl)
      hstore.written hstore.batches, ?_⟩
    show _ = s.entries (done ++ [id])
    rw [hentries, ← hdone, recordedOf, List.filter_append, List.map_append]
    rfl
  · show store.db.metrics = start.metrics ++ (s.entries (done ++ [id])).flatMap metricRows
    rw [hstore.grows.metrics, h.metrics, hentries, List.flatMap_append, List.append_assoc]
  · intro runId
    show metricsCountOf store.db runId =
      (metricsCountOf start runId).map (countBatches (s.entries (done ++ [id])) runId)
    rw [hstore.grows.counts, h.counts, hentries, Option.map_map]
    congr 1
    funext count
    exact (List.foldl_append ..).symm

theorem Sound.deliver (h : Sound start s done) (hid : s.stream[id]? = some batch) (faults : ProcessFaults)
    (hrun : ∀ row ∈ s.store.batches.rows, row.id = batch.batchId → row.runId = batch.runId)
    (hknown : Known s.store batch → faults.batchExists = none ∨ batch.metrics = [] ∨
      (faults.metrics 0).isSome = true)
    (hnew : ¬ Known s.store batch → Harmless faults batch) :
    ∃ done, Sound start (processEntry faults id batch s).2 done := by
  have hbatch : batch ∈ s.stream := List.mem_of_getElem? hid
  simp only [processEntry, Processor.processEntry, bind, zoom]
  by_cases hfound : faults.batchExists = none ∧ Known s.store batch
  · have hprocess := processBatch_known hfound.1 hfound.2
    obtain ⟨-, row, hrow, hrowid⟩ := hfound
    have hrowrun := hrun row hrow hrowid
    rw [h.batches] at hrow
    obtain ⟨old, hold, rfl⟩ := List.mem_map.mp hrow
    obtain ⟨place, hplace, hstream⟩ := mem_entries.mp hold
    have hsame : place = id := h.place hstream hid (Prod.ext hrowrun hrowid)
    refine ⟨done, ?_⟩
    generalize processBatch faults batch s.store = result at hprocess ⊢
    rw [hprocess]
    exact h.ack (hsame ▸ hplace) faults.ack
  · have hprocess := processBatch_new hfound
    generalize processBatch faults batch s.store = result at hprocess ⊢
    obtain ⟨w, hpart, hwritten, -⟩ := (wrote_applyBatch faults batch).after s.store
    rw [← hprocess] at hwritten
    rcases result with ⟨e | u, store⟩
    · refine ⟨done, h.keep hbatch (applyBatch_error ?_ hprocess.symm) hpart hwritten⟩
      by_cases hk : Known s.store batch
      · rcases hknown hk with hread | hrest
        · exact absurd ⟨hread, hk⟩ hfound
        · exact hrest.imp_right .inl
      · refine (hnew hk).imp_right (Or.imp_right (fun hnone => ⟨hnone, fun row hrow hrowid => ?_⟩))
        exact hk ⟨row, hrow, hrowid⟩
    · have hdone := h.apply hid (applyBatch_ok hprocess.symm)
      exact ⟨_, hdone.ack (List.mem_append_right _ (List.mem_singleton.mpr rfl)) faults.ack⟩

theorem sound_step (env : Env) (start : Database) (past : List (Input × Unit)) (s : Pipeline) (i : Input)
    (h : ∃ done, Sound start s done) (hg : Careful past s i) : ∃ done, Sound start (step env s i).2 done := by
  obtain ⟨done, h⟩ := h
  cases i with
  | ingest sent fault faults => exact ⟨done, h.enqueue (enqueues_ingest rfl sent fault faults s.server)⟩
  | deliver id faults =>
      simp only [step]
      split
      · rename_i batch hid
        obtain ⟨hrun, hknown, hnew⟩ := hg batch hid
        exact h.deliver hid faults hrun hknown hnew
      · exact ⟨done, h⟩

theorem countBatches_perm {batches batches' : List QueuedIngestBatch} (h : batches.Perm batches')
    (runId : String) :
    countBatches batches runId = countBatches batches' runId := by
  funext count
  apply h.foldl_eq'
  intro b _ b' _ count
  split <;> split <;> simp only [Int.add_right_comm]

theorem Sound.appliedOnce (h : Sound start s done) : AppliedOnce start s := by
  have hperm : done.Perm (s.acked ++ done.filter (· ∉ s.acked)) := by
    apply (List.perm_ext_iff_of_nodup h.nodup ?_).mpr
    · intro id
      by_cases hacked : id ∈ s.acked
      · simpa [hacked] using h.acked hacked
      · simp [hacked]
    · refine List.nodup_append.mpr ⟨h.ackedNodup, h.nodup.filter _, ?_⟩
      rintro id hid _ hid' rfl
      simpa [hid] using (List.mem_filter.mp hid').2
  have hentries : (s.entries done).Perm (s.entries s.acked ++ s.entries (done.filter (· ∉ s.acked))) := by
    have hmapped := hperm.filterMap (s.stream[·]?)
    rwa [List.filterMap_append] at hmapped
  have hunacked : s.entries (done.filter (· ∉ s.acked)) ⊆ s.unacked := by
    intro batch hbatch
    obtain ⟨id, hid, hstream⟩ := mem_entries.mp hbatch
    obtain ⟨hdone, hacked⟩ := List.mem_filter.mp hid
    exact mem_entries.mpr ⟨id, List.mem_filter.mpr ⟨List.mem_range.mpr (h.exist id hdone), hacked⟩, hstream⟩
  refine ⟨⟨(s.entries (done.filter (· ∉ s.acked))).flatMap metricRows, ?_, ?_⟩, ⟨_, hunacked, ?_⟩, ?_⟩
  · intro row hrow
    obtain ⟨batch, hbatch, hrow⟩ := List.mem_flatMap.mp hrow
    exact ⟨batch, hunacked hbatch, hrow⟩
  · rw [h.metrics, List.append_assoc, ← List.flatMap_append]
    exact (hentries.flatMap_right _).append_left _
  · intro runId
    rw [h.counts, countBatches_perm hentries]
  · obtain ⟨deliveries, hlog, hdone⟩ := h.log
    refine ⟨deliveries, hlog, ?_⟩
    rw [hdone]
    exact (List.sublist_append_left _ _).subperm.trans hentries.symm.subperm

theorem AppliedOnce.length (h : AppliedOnce start s) (hnone : s.unacked = []) :
    s.store.db.metrics.length = start.metrics.length + ((s.entries s.acked).flatMap metricRows).length := by
  obtain ⟨rest, hrest, hperm⟩ := h.metrics
  have hnil : rest = [] := by
    apply List.eq_nil_iff_forall_not_mem.mpr
    intro row hrow
    obtain ⟨batch, hbatch, -⟩ := hrest row hrow
    rw [hnone] at hbatch
    cases hbatch
  rw [hperm.length_eq, hnil, List.append_nil, List.length_append]

def lossOf (runId : String) : Sent := { lossBatch with request := { lossBatch.request with runId } }

def twoRuns : Database := (createRun none "s" "p" none none none oneRun).2

def refused : ProcessFaults := { metrics := fun _ => some "database is locked" }

end MLRunX.IngestPipeline
