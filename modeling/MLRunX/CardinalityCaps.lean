import MLRunX.DroppedItems
import MLRunX.IngestSteps
import MLRunX.RunLifecycle

namespace MLRunX.CardinalityCaps

open Cardinality Commands DroppedItems Http Ingest IngestRequest IngestSteps RunInit RunServer RunTables Runs
open RunLifecycle StoredRows Tables TrackedBatches

def storedKeys (db : Database) (runId : String) : Finset String :=
  ((db.tags.rows.filter (fun t => t.runId = runId)).map TagRow.key).toFinset

def storedNames (db : Database) (runId : String) : Finset String :=
  ((db.metrics.filter (fun m => m.1 = runId)).map (fun m => m.2.name)).toFinset

def keysOf (tags : List (String × String)) : Finset String := (tags.map Prod.fst).toFinset

structure WithinCaps (limits : LimitsConfig) (db : Database) : Prop where
  tagKeys : ∀ runId, (storedKeys db runId).card ≤ limits.maxTagKeysPerRun
  metricNames : ∀ runId, (storedNames db runId).card ≤ limits.maxMetricNamesPerRun

/-- What a tracker has counted against the caps of the runs and of the projects. -/
def counted (tracker : CardinalityTracker) : (String → RunCardinality) × (String → ProjectCardinality) :=
  (known tracker, knownPairs tracker)

def ingestState (s : Server) : ServerState := ⟨s.store.runTables, s.idempotency, s.cardinality, s.stream⟩

variable (env : Env)

/-- The stored data is within the caps after the step, and an ingest that is answered with an error has
used up nothing of them. -/
structure CapsHold (past : List (Op × Reply)) (s : Server) (op : Op) : Prop where
  within : WithinCaps env.limits (step env s op).2.db
  free : ∀ sent fault faults e, op = .ingest sent fault faults → (step env s op).1 = .ingest (.error (.http e)) →
    counted (step env s op).2.cardinality = counted s.cardinality

/-- The tracker knows the keys that are stored for a run, or they leave room for those of the tags. -/
def Room (s : Server) (runId : String) (tags : List (String × String)) : Prop :=
  storedKeys s.db runId ⊆ (known s.cardinality runId).tagKeys ∨
    (storedKeys s.db runId ∪ keysOf tags).card ≤ env.limits.maxTagKeysPerRun

/-- The tracker counts all that it would let in already. -/
structure NothingNew (limits : LimitsConfig) (run : RunCardinality) (project : ProjectCardinality)
    (tags : List (String × String)) (names : List String) : Prop where
  tags : ∀ tag ∈ tags, tagDrop limits run.tagKeys project.tagPairs tag = none →
    tag.1 ∈ run.tagKeys ∧ tag ∈ project.tagPairs
  names : ∀ name ∈ names, nameDrop limits run.metricNames name = none → name ∈ run.metricNames

/-- A run that runs, and no statement that is refused. -/
structure Unhindered (faults : Faults) (run : RunRow) : Prop where
  running : Text.eqIgnoreAsciiCase run.status "running" = true
  getRun : faults.getRun = none
  enqueue : env.queued = true → faults.enqueue = none
  persist : env.queued = false → faults.persist.Absent

/-- A new run starts with no more tag keys than the cap. A batch that is let in is for a run whose stored
keys are counted or leave room, and goes through or has nothing new in it. -/
def Careful (_ : List (Op × Reply)) (s : Server) : Op → Prop
  | .init _ initEnv req => s.db.findRun (req.runId.getD initEnv.generatedId) = none →
      ∀ tags, req.tags.mapM (validateInitTag env.limits.maxTagValueLength) = .ok tags →
        (storedKeys s.db (req.runId.getD initEnv.generatedId) ∪ keysOf tags).card ≤ env.limits.maxTagKeysPerRun
  | .ingest sent fault faults => ∀ run batch, LetIn env sent fault (ingestState s) run batch →
      (env.queued = false → Text.eqIgnoreAsciiCase run.status "running" = true →
        Room env s sent.request.runId batch.tags) ∧
      (NothingNew env.limits (known s.cardinality sent.request.runId) (knownPairs s.cardinality run.projectId)
          batch.tags (batch.metrics.map MetricRow.name) ∨ Unhindered env faults run)
  | .process _ index => ∀ batch, s.stream[index]? = some batch → Room env s batch.runId batch.tags
  | .finish .. => True
  | .delete .. => True

variable {env} {db : Database} {runId : String} {tracker : CardinalityTracker} {stream : List QueuedIngestBatch}

/-! Rows whose keys and names lie in given sets. -/

def tagsWithin (keys : String → Finset String) : RowSpec where
  tag runId tag := tag.1 ∈ keys runId
  param _ _ := True
  metric _ _ := True

theorem mem_storedKeys {key : String} : key ∈ storedKeys db runId ↔ ∃ t ∈ db.tags.rows, t.runId = runId ∧
    t.key = key := by
  simp [storedKeys, and_assoc]

theorem mem_storedNames {name : String} :
    name ∈ storedNames db runId ↔ ∃ m ∈ db.metrics, m.1 = runId ∧ m.2.name = name := by
  simp [storedNames, and_assoc]

theorem mem_keysOf {tags : List (String × String)} {key : String} :
    key ∈ keysOf tags ↔ ∃ tag ∈ tags, tag.1 = key := by
  rw [keysOf, List.mem_toFinset, List.mem_map]

theorem allRows_tagsWithin {keys : String → Finset String} :
    AllRows (tagsWithin keys) db ↔ ∀ runId, storedKeys db runId ⊆ keys runId := by
  constructor
  · intro h runId key hkey
    obtain ⟨t, ht, rfl, rfl⟩ := mem_storedKeys.1 hkey
    exact h.tags t ht
  · intro h
    refine ⟨?_, fun _ _ => trivial, fun _ _ => trivial⟩
    intro t ht
    exact h t.runId (mem_storedKeys.2 ⟨t, ht, rfl, rfl⟩)

def itemsOf (tracker : CardinalityTracker) : RowSpec where
  tag runId tag := tag.1 ∈ (known tracker runId).tagKeys
  param _ _ := True
  metric runId metric := metric.name ∈ (known tracker runId).metricNames

def namesOf (tracker : CardinalityTracker) : RowSpec := { itemsOf tracker with tag := fun _ _ => True }

/-- The tracker is within the caps, and knows the names that are stored and all that is queued. -/
structure Tracked (limits : LimitsConfig) (tracker : CardinalityTracker) (db : Database)
    (stream : List QueuedIngestBatch) : Prop where
  tagKeys : ∀ runId, (known tracker runId).tagKeys.card ≤ limits.maxTagKeysPerRun
  metricNames : ∀ runId, (known tracker runId).metricNames.card ≤ limits.maxMetricNamesPerRun
  rows : AllRows (namesOf tracker) db
  queue : AllQueued (itemsOf tracker) stream

theorem Tracked.storedNames_subset {limits : LimitsConfig} (h : Tracked limits tracker db stream)
    (runId : String) :
    storedNames db runId ⊆ (known tracker runId).metricNames := by
  intro name hname
  obtain ⟨m, hm, rfl, rfl⟩ := mem_storedNames.1 hname
  exact h.rows.metrics m hm

section Ingest

variable {p : Pending} {validation : ValidationResult}

theorem known_validate (env : Env) (p : Pending) (tracker : CardinalityTracker) :
    known (validate env p tracker).2 p.sent.request.runId =
      (validateItems env.limits p.projectId p.sent.request.runId p.batch.tags (names p)
        ⟨known tracker p.sent.request.runId, knownPairs tracker p.projectId, {}⟩).2.run :=
  known_validateBatch tracker

theorem known_grows (env : Env) (p : Pending) (tracker : CardinalityTracker) (runId : String) :
    (known tracker runId).tagKeys ⊆ (known (validate env p tracker).2 runId).tagKeys ∧
      (known tracker runId).metricNames ⊆ (known (validate env p tracker).2 runId).metricNames := by
  by_cases hid : runId = p.sent.request.runId
  · subst hid
    have htracks := @tracks_validateBatch env.limits p.projectId p.sent.request.runId p.batch.tags (names p) tracker
    rw [known_validate]
    exact ⟨htracks.tagKeysGrow, htracks.metricNamesGrow⟩
  · rw [validate, known_validateBatch_other tracker hid]
    exact ⟨subset_rfl, subset_rfl⟩

theorem Tracked.validate (h : Tracked env.limits tracker db stream) (p : Pending) :
    Tracked env.limits (validate env p tracker).2 db stream := by
  have hcards : ∀ runId, (known (IngestSteps.validate env p tracker).2 runId).tagKeys.card ≤
    env.limits.maxTagKeysPerRun ∧
      (known (IngestSteps.validate env p tracker).2 runId).metricNames.card ≤ env.limits.maxMetricNamesPerRun := by
    intro runId
    by_cases hid : runId = p.sent.request.runId
    · subst hid
      have htracks := @tracks_validateBatch env.limits p.projectId p.sent.request.runId p.batch.tags (names p) tracker
      rw [known_validate]
      exact ⟨htracks.tagKeys (h.tagKeys _), htracks.metricNames (h.metricNames _)⟩
    · rw [IngestSteps.validate, known_validateBatch_other tracker hid]
      exact ⟨h.tagKeys runId, h.metricNames runId⟩
  have hgrows := known_grows env p tracker
  refine ⟨fun runId => (hcards runId).1, fun runId => (hcards runId).2, ⟨?_, ?_, ?_⟩, ?_⟩
  · exact fun _ _ => trivial
  · exact fun _ _ => trivial
  · intro m hm
    exact (hgrows m.1).2 (h.rows.metrics m hm)
  · intro batch hbatch
    refine ⟨?_, fun _ _ => trivial, ?_⟩
    · intro tag htag
      exact (hgrows _).1 ((h.queue batch hbatch).tags tag htag)
    · intro m hm
      exact (hgrows _).2 ((h.queue batch hbatch).metrics m hm)

theorem allows_prepared (h : (validate env p tracker).1 = .ok validation) :
    Allows (itemsOf (validate env p tracker).2) p.sent.request.runId (prepareContents env p validation).tags
      (prepareContents env p validation).params (prepareContents env p validation).metrics := by
  obtain ⟨htags, hnames⟩ := accepted_mem
    (show validateBatch env.limits p.projectId p.sent.request.runId p.batch.tags
    (names p) tracker = (.ok validation, (validate env p tracker).2) from Prod.ext h rfl)
  refine ⟨fun tag htag => (htags tag htag).2, fun _ _ => trivial, ?_⟩
  intro m hm
  have haccepted := (List.mem_filter.1 (List.mem_filter.1 hm).1).2
  exact (hnames m.name (List.contains_iff_mem.1 haccepted)).2

theorem Tracked.deliver {contents : Contents} {s s' : ServerState} {limits : LimitsConfig}
    (h : Tracked limits tracker s.db s.stream) (hallows : Allows (itemsOf tracker) p.sent.request.runId contents.tags
      contents.params contents.metrics) (hdelivered : Delivered env p contents s s') :
    Tracked limits tracker s'.db s'.stream := by
  cases hdelivered with
  | lost hqueued hdb hstream =>
      rw [hdb, hstream]
      exact h
  | queued hqueued queuedAt hdb hstream =>
      rw [hdb, hstream]
      refine ⟨h.tagKeys, h.metricNames, h.rows, ?_⟩
      intro batch hbatch
      rcases List.mem_append.1 hbatch with hold | hnew
      · exact h.queue batch hold
      · obtain rfl := List.mem_singleton.1 hnew
        exact hallows
  | written hqueued faults hstream hdb =>
      rw [hdb, hstream]
      refine ⟨h.tagKeys, h.metricNames, ?_, h.queue⟩
      have hnames : Allows (namesOf tracker) p.sent.request.runId contents.tags contents.params contents.metrics :=
        ⟨fun _ _ => trivial, fun _ _ => trivial, hallows.metrics⟩
      exact (keeps_persist faults hnames).after (fun _ _ hdb => hdb) (fun _ hdb => hdb) h.rows

theorem tracked_httpIngestBatch {sent : Sent} {fault : Option String} {faults : Faults} {s : ServerState}
    (h : Tracked env.limits s.cardinality s.db s.stream) :
    Tracked env.limits (httpIngestBatch env sent fault faults s).2.cardinality
      (httpIngestBatch env sent fault faults s).2.db (httpIngestBatch env sent fault faults s).2.stream := by
  rcases httpIngestBatch_cases env sent fault faults s with ⟨idempotency, hend⟩ |
    ⟨run, p, idempotency, -, -, -, hend⟩
  · rw [hend]
    exact h
  · rw [hend]
    obtain ⟨htracker, hsettled⟩ := settle_settled env faults p { s with idempotency }
    rw [htracker]
    have hvalid : Tracked env.limits (validate env p s.cardinality).2 s.db s.stream := h.validate p
    cases hsettled with
    | refused hdb hstream =>
        rw [hdb, hstream]
        exact hvalid
    | delivered validation run hok hrun hstatus hdelivered =>
        exact Tracked.deliver (s := { s with idempotency }) hvalid (allows_prepared hok) hdelivered

end Ingest

/-! What is tracked in every run. -/

theorem tracked_step {s : Server} (op : Op) (h : Tracked env.limits s.cardinality s.db s.stream) :
    Tracked env.limits (step env s op).2.cardinality (step env s op).2.db (step env s op).2.stream := by
  have hsame : ∀ s' : Server, (s'.cardinality, s'.stream) = (s.cardinality, s.stream) →
      AllRows (namesOf s.cardinality) s'.db → Tracked env.limits s'.cardinality s'.db s'.stream := by
    intro s' heq hrows
    obtain ⟨hcardinality, hstream⟩ := Prod.mk.inj heq
    rw [hcardinality, hstream]
    exact ⟨h.tagKeys, h.metricNames, hrows, h.queue⟩
  cases op with
  | init auth initEnv req =>
      apply hsame (step env s (.init auth initEnv req)).2 rfl
      have hallows : InitAllows (namesOf s.cardinality) env.limits.maxTagValueLength
          (req.runId.getD initEnv.generatedId)
          req := ⟨fun _ _ _ _ => trivial, fun _ _ _ _ => trivial⟩
      exact (keeps_httpInitRun hallows).after (fun _ _ hs => hs) (fun _ hs => hs) h.rows
  | ingest sent fault faults => exact tracked_httpIngestBatch (s := ingestState s) h
  | process faults index =>
      apply hsame _ (processQueued_view (fun s => (s.cardinality, s.stream)) (fun _ _ _ => rfl) faults index s)
      apply allRows_processQueued faults h.rows
      intro batch hbatch
      exact ⟨fun _ _ => trivial, fun _ _ => trivial, (h.queue batch (List.mem_of_getElem? hbatch)).metrics⟩
  | finish auth finishEnv runId status =>
      apply hsame _ ((leaves_httpFinishRun (fun s => (s.cardinality, s.stream)) (fun _ _ _ => rfl) _ _ _).shows s)
      exact keeps_httpFinishRun.after (fun _ _ hs => hs) (fun _ hs => hs) h.rows
  | delete auth faults runId =>
      apply hsame _ ((leaves_httpDeleteRun (fun s => (s.cardinality, s.stream)) (fun _ _ _ => rfl) _ _).shows s)
      exact keeps_httpDeleteRun.after (fun _ _ hs => hs) (fun _ hs => hs) h.rows

theorem tracked_start (limits : LimitsConfig) (store : Mutators.SqliteStore) :
    Tracked limits (Server.start store).cardinality (Server.start store).db (Server.start store).stream where
  tagKeys _ := Nat.zero_le _
  metricNames _ := Nat.zero_le _
  rows := allRows_empty
  queue := List.forall_mem_nil _

theorem tracked_after (env : Env) (store : Mutators.SqliteStore) (ops : List Op) :
    Tracked env.limits (after (step env) (Server.start store) ops).cardinality
      (after (step env) (Server.start store) ops).db (after (step env) (Server.start store) ops).stream :=
  invariant_history (G := fun _ _ _ => True) (fun _ (s : Server) => Tracked env.limits s.cardinality s.db s.stream)
    (fun _ _ op h _ => tracked_step op h) [] _ ops (tracked_start _ store) (guarded_true _ _ _ _)

theorem storedNames_after (env : Env) (store : Mutators.SqliteStore) (ops : List Op) (runId : String) :
    (storedNames (after (step env) (Server.start store) ops).db runId).card ≤ env.limits.maxMetricNamesPerRun := by
  have h := tracked_after env store ops
  exact (Finset.card_le_card (h.storedNames_subset runId)).trans (h.metricNames runId)

/-! The tag keys that are stored. -/

section Keys

variable {keys : Finset String} {cap : ℕ} {db' : Database} {s : Server} {tags : List (String × String)}

def withKeys (db : Database) (runId : String) (keys : Finset String) : String → Finset String :=
  Function.update (storedKeys db) runId (storedKeys db runId ∪ keys)

theorem allRows_withKeys (db : Database) (runId : String) (keys : Finset String) :
    AllRows (tagsWithin (withKeys db runId keys)) db := by
  rw [allRows_tagsWithin]
  intro id
  by_cases hid : id = runId
  · rw [hid, withKeys, Function.update_self]
    exact Finset.subset_union_left
  · rw [withKeys, Function.update_of_ne hid]

theorem allows_withKeys {params : List (String × String)} {metrics : List MetricRow} (h : keysOf tags ⊆ keys) :
    Allows (tagsWithin (withKeys db runId keys)) runId tags params metrics := by
  refine ⟨?_, fun _ _ => trivial, fun _ _ => trivial⟩
  intro tag htag
  change tag.1 ∈ withKeys db runId keys runId
  rw [withKeys, Function.update_self]
  exact Finset.mem_union_right _ (h (mem_keysOf.2 ⟨tag, htag, rfl⟩))

theorem card_of_written (h : ∀ id, (storedKeys db id).card ≤ cap)
    (hkeys : (storedKeys db runId ∪ keys).card ≤ cap)
    (hrows : AllRows (tagsWithin (withKeys db runId keys)) db') (id : String) :
    (storedKeys db' id).card ≤ cap := by
  apply (Finset.card_le_card (allRows_tagsWithin.1 hrows id)).trans
  by_cases hid : id = runId
  · rwa [hid, withKeys, Function.update_self]
  · rw [withKeys, Function.update_of_ne hid]
    exact h id

theorem Room.card {counted : Finset String} (h : Room env s runId tags)
    (hgrows : (known s.cardinality runId).tagKeys ⊆ counted)
    (hcounted : counted.card ≤ env.limits.maxTagKeysPerRun)
    (hknown : keys ⊆ counted) (hkeys : keys ⊆ keysOf tags) :
    (storedKeys s.db runId ∪ keys).card ≤ env.limits.maxTagKeysPerRun := by
  rcases h with hstored | hroom
  · exact (Finset.card_le_card (Finset.union_subset (hstored.trans hgrows) hknown)).trans hcounted
  · exact (Finset.card_le_card (Finset.union_subset_union_right hkeys)).trans hroom

theorem keys_init {auth : Auth.AuthContext} {initEnv : InitEnv} {req : InitRunHttpRequest}
    {past : List (Op × Reply)}
    (h : ∀ id, (storedKeys s.db id).card ≤ env.limits.maxTagKeysPerRun)
    (hguard : Careful env past s (.init auth initEnv req)) (id : String) :
    (storedKeys (step env s (.init auth initEnv req)).2.db id).card ≤ env.limits.maxTagKeysPerRun := by
  cases hrun : s.db.findRun (req.runId.getD initEnv.generatedId) with
  | some run =>
      have hdb : (step env s (.init auth initEnv req)).2.db = s.db :=
        httpInitRun_present (s := ⟨s.store.ui, s.store.runTables, s.times⟩) hrun
      rw [hdb]
      exact h id
  | none =>
      have hwrite : ∀ keys, (storedKeys s.db (req.runId.getD initEnv.generatedId) ∪ keys).card ≤
          env.limits.maxTagKeysPerRun →
          (∀ tags, req.tags.mapM (validateInitTag env.limits.maxTagValueLength) = .ok tags →
            keysOf tags ⊆ keys) →
            (storedKeys (step env s (.init auth initEnv req)).2.db id).card ≤ env.limits.maxTagKeysPerRun := by
        intro keys hcard hkeys
        apply card_of_written h hcard
        have hallows : InitAllows (tagsWithin (withKeys s.db (req.runId.getD initEnv.generatedId) keys))
            env.limits.maxTagValueLength (req.runId.getD initEnv.generatedId) req := by
          refine ⟨?_, fun _ _ _ _ => trivial⟩
          intro tags htags
          exact (@allows_withKeys s.db _ keys tags [] [] (hkeys tags htags)).tags
        exact (keeps_httpInitRun hallows).after (fun _ _ hs => hs) (fun _ hs => hs) (allRows_withKeys _ _ _)
      cases htags : req.tags.mapM (validateInitTag env.limits.maxTagValueLength) with
      | error e =>
          apply hwrite ∅
          · rw [Finset.union_empty]
            exact h _
          · intro tags hok
            rw [htags] at hok
            cases hok
      | ok tags =>
          apply hwrite (keysOf tags) (hguard hrun tags htags)
          intro tags' hok
          rw [htags] at hok
          rw [Except.ok.inj hok]

theorem keys_ingest {sent : Sent} {fault : Option String} {faults : Faults} {past : List (Op × Reply)}
    (htracked : Tracked env.limits s.cardinality s.db s.stream)
    (h : ∀ id, (storedKeys s.db id).card ≤ env.limits.maxTagKeysPerRun)
    (hguard : Careful env past s (.ingest sent fault faults)) (id : String) :
    (storedKeys (step env s (.ingest sent fault faults)).2.db id).card ≤ env.limits.maxTagKeysPerRun := by
  change (storedKeys (httpIngestBatch env sent fault faults (ingestState s)).2.db id).card ≤ _
  rcases httpIngestBatch_cases env sent fault faults (ingestState s) with
    ⟨idempotency, hend⟩ | ⟨run, p, idempotency, hletIn, rfl, -, hend⟩
  · rw [hend]
    exact h id
  · rw [hend]
    obtain ⟨-, hsettled⟩ := settle_settled env faults p { ingestState s with idempotency }
    cases hsettled with
    | refused hdb hstream =>
        rw [hdb]
        exact h id
    | delivered validation run' hok hrun hstatus hdelivered =>
        cases hdelivered with
        | lost hqueued hdb hstream =>
            rw [hdb]
            exact h id
        | queued hqueued queuedAt hdb hstream =>
            rw [hdb]
            exact h id
        | written hqueued persistFaults hstream hdb =>
            rw [hdb]
            obtain rfl := Option.some.inj (hletIn.found.symm.trans hrun)
            have hroom := (hguard run p.batch hletIn).1 hqueued hstatus
            have hvalid := htracked.validate p
            obtain ⟨hknown, -⟩ := accepted_mem (show validateBatch env.limits p.projectId p.sent.request.runId
              p.batch.tags (names p) s.cardinality = (.ok validation, (validate env p s.cardinality).2) from
                Prod.ext hok rfl)
            have hcard : (storedKeys s.db p.sent.request.runId ∪ keysOf validation.acceptedTags).card ≤
                env.limits.maxTagKeysPerRun := by
              apply hroom.card (known_grows env p s.cardinality _).1 (hvalid.tagKeys _)
              · intro key hkey
                obtain ⟨tag, htag, rfl⟩ := mem_keysOf.1 hkey
                exact (hknown tag htag).2
              · intro key hkey
                obtain ⟨tag, htag, rfl⟩ := mem_keysOf.1 hkey
                exact mem_keysOf.2 ⟨tag, (hknown tag htag).1, rfl⟩
            have hallows : Allows (tagsWithin (withKeys s.db p.sent.request.runId (keysOf validation.acceptedTags)))
                p.sent.request.runId (prepareContents env p validation).tags (prepareContents env p validation).params
                (prepareContents env p validation).metrics :=
              @allows_withKeys s.db _ (keysOf validation.acceptedTags) validation.acceptedTags _ _ subset_rfl
            have hrows := (keeps_persist persistFaults hallows).after (fun _ _ hdb => hdb) (fun _ hdb => hdb)
              (allRows_withKeys s.db _ _)
            exact card_of_written h hcard hrows id

theorem keys_process {faults : Processor.ProcessFaults} {index : ℕ} {past : List (Op × Reply)}
    (htracked : Tracked env.limits s.cardinality s.db s.stream)
    (h : ∀ id, (storedKeys s.db id).card ≤ env.limits.maxTagKeysPerRun)
    (hguard : Careful env past s (.process faults index)) (id : String) :
    (storedKeys (step env s (.process faults index)).2.db id).card ≤ env.limits.maxTagKeysPerRun := by
  cases hget : s.stream[index]? with
  | none =>
      have hsame : (processQueued faults index s).2 = s := by rw [processQueued, hget]
      change (storedKeys (processQueued faults index s).2.db id).card ≤ _
      rw [hsame]
      exact h id
  | some batch =>
      have hqueued := htracked.queue batch (List.mem_of_getElem? hget)
      have hcard := (hguard batch hget).card subset_rfl (htracked.tagKeys _) (fun key hkey => by
        obtain ⟨tag, htag, rfl⟩ := mem_keysOf.1 hkey
        exact hqueued.tags tag htag) subset_rfl
      refine card_of_written h hcard ?_ id
      apply allRows_processQueued faults (allRows_withKeys _ _ _)
      intro batch' hget'
      rw [hget] at hget'
      obtain rfl := Option.some.inj hget'
      exact allows_withKeys subset_rfl

theorem keys_step {op : Op} {past : List (Op × Reply)} (htracked : Tracked env.limits s.cardinality s.db s.stream)
    (h : ∀ id, (storedKeys s.db id).card ≤ env.limits.maxTagKeysPerRun) (hguard : Careful env past s op)
    (id : String) :
    (storedKeys (step env s op).2.db id).card ≤ env.limits.maxTagKeysPerRun := by
  have hself : AllRows (tagsWithin (storedKeys s.db)) s.db := allRows_tagsWithin.2 (fun _ => subset_rfl)
  cases op with
  | init auth initEnv req => exact keys_init h hguard id
  | ingest sent fault faults => exact keys_ingest htracked h hguard id
  | process faults index => exact keys_process htracked h hguard id
  | finish auth finishEnv runId status =>
      have hrows : AllRows (tagsWithin (storedKeys s.db)) (step env s (.finish auth finishEnv runId status)).2.db :=
        keeps_httpFinishRun.after (fun _ _ hs => hs) (fun _ hs => hs) hself
      exact (Finset.card_le_card (allRows_tagsWithin.1 hrows id)).trans (h id)
  | delete auth faults runId =>
      have hrows : AllRows (tagsWithin (storedKeys s.db)) (step env s (.delete auth faults runId)).2.db :=
        keeps_httpDeleteRun.after (fun _ _ hs => hs) (fun _ hs => hs) hself
      exact (Finset.card_le_card (allRows_tagsWithin.1 hrows id)).trans (h id)

end Keys

/-! What is refused. -/

section Refused

variable {config : LimitsConfig} {projectId : String} {run : RunCardinality} {project : ProjectCardinality}

theorem keeps_validateTag_known {tag : String × String}
    (h : tagDrop config run.tagKeys project.tagPairs tag = none →
    tag.1 ∈ run.tagKeys ∧ tag ∈ project.tagPairs) :
    Keeps (fun p : Progress => p.run = run ∧ p.project = project)
      (Cardinality.validateTag config projectId runId tag) := by
  constructor
  rintro p ⟨rfl, rfl⟩
  simp only [Cardinality.validateTag]
  split
  · cases excerpt tag.1 with
    | none => exact ⟨rfl, rfl⟩
    | some text => exact ⟨rfl, rfl⟩
  split
  · exact ⟨rfl, rfl⟩
  split
  · exact ⟨rfl, rfl⟩
  split
  · exact ⟨rfl, rfl⟩
  · rename_i hkey hvalue hrun hproject
    obtain ⟨hknown, hpair⟩ := h (by rw [tagDrop, if_neg hkey, if_neg hvalue, if_neg hrun, if_neg hproject])
    refine ⟨?_, ?_⟩
    · rw [Progress.acceptTag, Finset.insert_eq_of_mem hknown]
    · rw [Progress.acceptTag, Finset.insert_eq_of_mem hpair]

theorem keeps_validateMetricName_known {name : String} (h : nameDrop config run.metricNames name = none →
    name ∈ run.metricNames) :
    Keeps (fun p : Progress => p.run = run ∧ p.project = project) (validateMetricName config runId name) := by
  constructor
  rintro p ⟨rfl, rfl⟩
  simp only [validateMetricName]
  split
  · cases excerpt name with
    | none => exact ⟨rfl, rfl⟩
    | some text => exact ⟨rfl, rfl⟩
  split
  · exact ⟨rfl, rfl⟩
  · rename_i hlong hrun
    have hknown := h (by rw [nameDrop, if_neg hlong, if_neg hrun])
    refine ⟨?_, rfl⟩
    rw [Progress.acceptMetric, Finset.insert_eq_of_mem hknown]

theorem counted_validateBatch {tags : List (String × String)} {names : List String}
    (h : NothingNew config (known tracker runId) (knownPairs tracker projectId) tags names) :
    counted (validateBatch config projectId runId tags names tracker).2 = counted tracker := by
  have hitems : Keeps (fun p : Progress => p.run = known tracker runId ∧ p.project = knownPairs tracker projectId)
      (validateItems config projectId runId tags names) := by
    apply keeps_bind
    · exact triple_forM (fun tag htag => keeps_validateTag_known (h.tags tag htag))
    · intro _
      exact triple_forM (fun name hname => keeps_validateMetricName_known (h.names name hname))
  obtain ⟨hrun, hproject⟩ := hitems.after (fun _ _ hp => hp) (fun _ hp => hp)
    (s := ⟨known tracker runId, knownPairs tracker projectId, {}⟩) ⟨rfl, rfl⟩
  apply Prod.ext
  · funext id
    by_cases hid : id = runId
    · rw [hid]
      exact (known_validateBatch tracker).trans hrun
    · exact known_validateBatch_other tracker hid
  · funext id
    by_cases hid : id = projectId
    · rw [hid]
      refine Eq.trans ?_ hproject
      simp [counted, known, knownPairs, validateBatch]
    · simp [counted, knownPairs, validateBatch, Function.update_of_ne hid]

theorem free_ingest {past : List (Op × Reply)} {s : Server} {sent : Sent} {fault : Option String} {faults : Faults}
    {e : HttpError} (hguard : Careful env past s (.ingest sent fault faults))
    (hrefused : (step env s (.ingest sent fault faults)).1 = .ingest (.error (.http e))) :
    counted (step env s (.ingest sent fault faults)).2.cardinality = counted s.cardinality := by
  replace hrefused := Reply.ingest.inj hrefused
  change counted (httpIngestBatch env sent fault faults (ingestState s)).2.cardinality = _
  change (httpIngestBatch env sent fault faults (ingestState s)).1 = _ at hrefused
  rcases httpIngestBatch_cases env sent fault faults (ingestState s) with
    ⟨idempotency, hend⟩ | ⟨run, p, idempotency, hletIn, rfl, hproject, hend⟩
  · rw [hend]
    rfl
  · rw [hend] at hrefused ⊢
    rcases (hguard run p.batch hletIn).2 with hknown | hunhindered
    · rw [(settle_settled env faults p { ingestState s with idempotency }).1]
      rw [← hproject] at hknown
      exact counted_validateBatch hknown
    · exfalso
      rcases hvalidate : validate env p s.cardinality with ⟨panic | validation, tracker⟩
      · rw [settle_panicked (s := { ingestState s with idempotency }) hvalidate] at hrefused
        cases hrefused
      · obtain ⟨i, s', hok⟩ := settle_validated (s := { ingestState s with idempotency }) hvalidate hletIn.found
          hunhindered.running hunhindered.getRun hunhindered.enqueue hunhindered.persist
        rw [hok] at hrefused
        cases hrefused

end Refused

/-- In a run whose steps are careful the stored data stays within the caps, and what is refused uses up
nothing of them. -/
theorem caps_held (env : Env) (store : Mutators.SqliteStore) (ops : List Op)
    (hguard : Guarded (step env) (Careful env) [] (Server.start store) ops) :
    Guarded (step env) (CapsHold env) [] (Server.start store) ops := by
  let Inv : List (Op × Reply) → Server → Prop := fun _ s =>
    Tracked env.limits s.cardinality s.db s.stream ∧ ∀ id, (storedKeys s.db id).card ≤ env.limits.maxTagKeysPerRun
  apply guarded_of_invariant (G := Careful env) Inv
  · rintro past s op ⟨htracked, hkeys⟩ hcareful
    exact ⟨tracked_step op htracked, keys_step htracked hkeys hcareful⟩
  · rintro past s op ⟨htracked, hkeys⟩ hcareful
    have hnext := tracked_step op htracked
    refine ⟨⟨keys_step htracked hkeys hcareful, ?_⟩, ?_⟩
    · intro id
      exact (Finset.card_le_card (hnext.storedNames_subset id)).trans (hnext.metricNames id)
    · rintro sent fault faults e rfl hrefused
      exact free_ingest hcareful hrefused
  · exact ⟨tracked_start _ store, fun _ => Nat.zero_le _⟩
  · exact hguard

def oneKey : Env := { RetrySafety.devServer with limits := { maxTagKeysPerRun := 1 } }

def taggedRun (tags : List (String × String)) : Op :=
  .init (.devMode 0) { generatedId := "g", now := "t" } ⟨some "r", some "p", none, none, tags, []⟩

def taggedBatch : Sent :=
  { RetrySafety.lossBatch with request :=
    { RetrySafety.lossBatch.request with metrics := [], tags := [⟨"a", "1"⟩] } }

def refusedStatus : Reply → Option StatusCode
  | .ingest (.error (.http e)) => some e.status
  | _ => none

theorem refused_of_status (status : StatusCode) {reply : Reply} (h : refusedStatus reply = some status) :
    ∃ e, reply = .ingest (.error (.http e)) := by
  rcases reply with _ | (e | _) | _ | _ | _
  · cases h
  · cases e with
    | http e => exact ⟨e, rfl⟩
    | panic => cases h
  all_goals cases h

theorem caps_broken :
    ¬ Guarded (step oneKey) (CapsHold oneKey) [] (Server.start projectStore) [taggedRun [("a", "1"), ("b", "1")]] ∧
      ¬ Guarded (step oneKey) (CapsHold oneKey) [] (Server.start projectStore)
        [taggedRun [], finishRun "r" "finished", .ingest taggedBatch none {}] := by
  constructor
  · rintro ⟨h, -⟩
    have hcard := h.within.tagKeys "r"
    revert hcard
    decide +kernel
  · rintro ⟨-, -, h, -⟩
    obtain ⟨e, he⟩ : ∃ e, (step oneKey (after (step oneKey) (Server.start projectStore)
        [taggedRun [], finishRun "r" "finished"]) (.ingest taggedBatch none {})).1 = .ingest (.error (.http e)) :=
      refused_of_status .preconditionFailed (by decide +kernel)
    have hcounted := congrFun (congrArg Prod.fst (h.free taggedBatch none {} e rfl he)) "r"
    revert hcounted
    decide +kernel

theorem caps_held_taggedRun : Guarded (step oneKey) (CapsHold oneKey) [] (Server.start projectStore)
    [taggedRun [("a", "1")], .ingest taggedBatch none {}] := by
  apply caps_held oneKey projectStore
  refine ⟨?_, ?_, trivial⟩
  · intro _ tags htags
    have hinit : [("a", "1")].mapM (validateInitTag 1024) = .ok [("tags.a", "1")] := by decide +kernel
    obtain rfl := Except.ok.inj (hinit.symm.trans htags)
    decide +kernel
  · intro run batch hletIn
    have hrun : ((after (step oneKey) (Server.start projectStore) [taggedRun [("a", "1")]]).db.findRun "r") =
        some ⟨"r", "p", none, "running", none, none, 0, 0⟩ := by decide +kernel
    have hbatch : validateRequest oneKey.limits.maxTagValueLength taggedBatch.request.toPayload =
        .ok ⟨[], [("tags.a", "1")], []⟩ := by decide +kernel
    obtain rfl := Option.some.inj (hrun.symm.trans hletIn.found)
    obtain rfl := Except.ok.inj (hbatch.symm.trans hletIn.valid)
    refine ⟨fun _ _ => .inr (by decide +kernel), .inr ⟨by decide, rfl, fun _ => rfl, fun _ => ?_⟩⟩
    exact ⟨rfl, rfl, rfl, rfl, rfl⟩

end MLRunX.CardinalityCaps
