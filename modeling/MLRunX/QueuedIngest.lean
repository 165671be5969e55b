import MLRunX.Processor
import MLRunX.Runs

namespace MLRunX.QueuedIngest

open Auth Commands Http Idempotency Ingest Processor RunTables Runs Sqlite Statements Tables

def metricsCountOf (db : Database) (runId : String) : Option Int := (db.findRun runId).map RunRow.metricsCount

def metricRows (batch : QueuedIngestBatch) : List (String × MetricRow) :=
  batch.metrics.map (fun metric => (batch.runId, metric))

def countBatches (batches : List QueuedIngestBatch) (runId : String) (count : Int) : Int :=
  batches.foldl (fun count batch =>
    if batch.runId = runId then count + saturate (2 ^ 63 - 1) batch.metrics.length else count) count

/-- A database that has grown by the metrics of some batches. -/
structure Grows (added : List QueuedIngestBatch) (db db' : Database) : Prop where
  metrics : db'.metrics = db.metrics ++ added.flatMap metricRows
  counts : ∀ runId, metricsCountOf db' runId = (metricsCountOf db runId).map (countBatches added runId)

variable {added added' : List QueuedIngestBatch} {batch : QueuedIngestBatch} {db db' db'' : Database}

theorem Grows.refl (db : Database) : Grows [] db db where
  metrics := by simp
  counts _ := Option.map_id'.symm

theorem Grows.trans (h : Grows added db db') (h' : Grows added' db' db'') : Grows (added ++ added') db db'' where
  metrics := by rw [h'.metrics, h.metrics, List.flatMap_append, List.append_assoc]
  counts runId := by
    rw [h'.counts, h.counts, Option.map_map]
    congr 1
    funext count
    exact (List.foldl_append ..).symm

/-! What is written beside the metrics. -/

/-- The values that are written under the keys of runs, and the events, in their order. -/
structure Writes where
  tags : List ((String × String) × String)
  params : List ((String × String) × String)
  events : List (String × RunEventInput)
  deriving DecidableEq, Repr

def Writes.nil : Writes := ⟨[], [], []⟩

def Writes.append (w w' : Writes) : Writes := ⟨w.tags ++ w'.tags, w.params ++ w'.params, w.events ++ w'.events⟩

def valuesOf (runId : String) (pairs : List (String × String)) : List ((String × String) × String) :=
  pairs.map (fun pair => ((runId, pair.1), pair.2))

def writesOf (batch : QueuedIngestBatch) : Writes where
  tags := valuesOf batch.runId batch.tags
  params := valuesOf batch.runId batch.params
  events := (batchEvents batch).map (fun event => (batch.runId, event))

/-- What is written until something fails. -/
structure Writes.Part (w whole : Writes) : Prop where
  tags : w.tags <+: whole.tags
  params : w.params <+: whole.params
  events : w.events <+: whole.events

def tagOf (db : Database) (key : String × String) : Option String :=
  (db.tags.find (fun row => row.runId == key.1 && row.key == key.2)).map TagRow.value

def paramOf (db : Database) (key : String × String) : Option String :=
  (db.params.find (fun row => row.runId == key.1 && row.name == key.2)).map ParamRow.value

/-- A database after some writes. Under a key is the value that was written last. -/
structure Written (w : Writes) (db db' : Database) : Prop where
  tags : ∀ key, tagOf db' key = (w.tags.reverse.lookup key).or (tagOf db key)
  params : ∀ key, paramOf db' key = (w.params.reverse.lookup key).or (paramOf db key)
  events : db'.events = db.events ++ w.events

section Writing

variable {w w' whole whole' : Writes}

theorem written_nil (htags : db'.tags = db.tags) (hparams : db'.params = db.params) (hevents : db'.events = db.events) :
    Written .nil db db' where
  tags _ := congrArg (fun t => (Table.find t _).map TagRow.value) htags
  params _ := congrArg (fun t => (Table.find t _).map ParamRow.value) hparams
  events := hevents.trans (List.append_nil _).symm

theorem Written.trans (h : Written w db db') (h' : Written w' db' db'') : Written (w.append w') db db'' where
  tags key := by rw [h'.tags, h.tags, Writes.append, List.reverse_append, List.lookup_append, Option.or_assoc]
  params key := by rw [h'.params, h.params, Writes.append, List.reverse_append, List.lookup_append, Option.or_assoc]
  events := by rw [h'.events, h.events, Writes.append, List.append_assoc]

theorem lookup_valuesOf (runId id name : String) (pair : String × String) :
    (valuesOf runId [pair]).reverse.lookup (id, name) =
      if runId == id && pair.1 == name then some pair.2 else none := by
  by_cases hsame : runId = id ∧ pair.1 = name
  · obtain ⟨rfl, rfl⟩ := hsame
    simp [valuesOf]
  · have hother : ((id, name) == (runId, pair.1)) = false := by
      rw [beq_eq_false_iff_ne]
      rintro heq
      obtain ⟨rfl, rfl⟩ := Prod.mk.inj heq
      exact hsame ⟨rfl, rfl⟩
    simp [valuesOf, List.lookup_cons, hother, hsame]

theorem written_setTag (runId : String) (tag : String × String) (db : Database) :
    Written ⟨valuesOf runId [tag], [], []⟩ db (db.setTag runId tag) where
  tags key := by
    obtain ⟨id, name⟩ := key
    simp only [Database.setTag, tagOf]
    rw [find_replace _ (fun r hr => ?_)]
    · rw [lookup_valuesOf]
      by_cases hsame : (runId == id && tag.1 == name) = true
      · simp [hsame]
      · simp [hsame]
    · simp only [Bool.and_eq_true, beq_iff_eq] at hr ⊢
      simp only [TagRow.clash, hr.1, hr.2, eq_comm]
  params _ := rfl
  events := (List.append_nil _).symm

theorem written_setParam (runId : String) (param : String × String) (db : Database) :
    Written ⟨[], valuesOf runId [param], []⟩ db (db.setParam runId param) where
  tags _ := rfl
  params key := by
    obtain ⟨id, name⟩ := key
    simp only [Database.setParam, paramOf]
    rw [find_replace _ (fun r hr => ?_)]
    · rw [lookup_valuesOf]
      by_cases hsame : (runId == id && param.1 == name) = true
      · simp [hsame]
      · simp [hsame]
    · simp only [Bool.and_eq_true, beq_iff_eq] at hr ⊢
      simp only [ParamRow.clash, hr.1, hr.2, eq_comm]
  events := (List.append_nil _).symm

theorem written_addEvent (runId : String) (event : RunEventInput) (db : Database) :
    Written ⟨[], [], [(runId, event)]⟩ db (db.addEvent runId event) :=
  ⟨fun _ => rfl, fun _ => rfl, rfl⟩

theorem Writes.part_self (w : Writes) : w.Part w := ⟨List.prefix_rfl, List.prefix_rfl, List.prefix_rfl⟩

theorem Writes.part_nil (whole : Writes) : Writes.nil.Part whole :=
  ⟨List.nil_prefix, List.nil_prefix, List.nil_prefix⟩

theorem Writes.Part.more (h : w.Part whole) (more : Writes) : w.Part (whole.append more) :=
  ⟨h.tags.trans (List.prefix_append ..), h.params.trans (List.prefix_append ..),
    h.events.trans (List.prefix_append ..)⟩

theorem Writes.Part.behind (h : w.Part whole) (front : Writes) : (front.append w).Part (front.append whole) :=
  ⟨(List.prefix_append_right_inj _).mpr h.tags, (List.prefix_append_right_inj _).mpr h.params,
    (List.prefix_append_right_inj _).mpr h.events⟩

/-- A program writes a part of something, and all of it if nothing fails. -/
structure Wrote {σ ε α : Type} (view : σ → Database) (x : Command σ ε α) (whole : Writes) : Prop where
  after : ∀ s, ∃ w, w.Part whole ∧ Written w (view s) (view (x s).2) ∧ ∀ a, (x s).1 = .ok a → w = whole

variable {σ ε α β : Type} {view : σ → Database}

theorem Wrote.of_eq {x : Command σ ε α} (h : Wrote view x whole) (hwhole : whole = whole') : Wrote view x whole' :=
  hwhole ▸ h

theorem wrote_pure (view : σ → Database) (a : α) : Wrote view (pure a : Command σ ε α) .nil :=
  ⟨fun _ => ⟨.nil, Writes.part_self _, written_nil rfl rfl rfl, fun _ _ => rfl⟩⟩

theorem wrote_leaves {x : Command σ ε α} (h : Leaves view x) : Wrote view x .nil := by
  constructor
  intro s
  refine ⟨.nil, Writes.part_self _, ?_, fun _ _ => rfl⟩
  rw [h.shows s]
  exact written_nil rfl rfl rfl

theorem wrote_bind {x : Command σ ε α} {f : α → Command σ ε β} (hx : Wrote view x whole)
    (hf : ∀ a, Wrote view (f a) whole') : Wrote view (x >>= f) (whole.append whole') := by
  constructor
  intro s
  obtain ⟨w, hpart, hwritten, hall⟩ := hx.after s
  simp only [bind]
  generalize x s = r at hwritten hall ⊢
  rcases r with ⟨e | a, s₁⟩
  · exact ⟨w, hpart.more whole', hwritten, nofun⟩
  · obtain rfl := hall a rfl
    obtain ⟨w', hpart', hwritten', hall'⟩ := (hf a).after s₁
    exact ⟨w.append w', hpart'.behind w, hwritten.trans hwritten', fun b hb => by rw [hall' b hb]⟩

theorem wrote_mapError {ε' : Type} {x : Command σ ε α} (f : ε → ε') (h : Wrote view x whole) :
    Wrote view (mapError f x) whole := by
  constructor
  intro s
  obtain ⟨w, hpart, hwritten, hall⟩ := h.after s
  simp only [mapError]
  generalize x s = r at hwritten hall ⊢
  rcases r with ⟨e | a, s₁⟩
  · refine ⟨w, hpart, hwritten, fun b hb => ?_⟩
    cases hb
  · exact ⟨w, hpart, hwritten, fun b _ => hall a rfl⟩

theorem wrote_execute (fault : Option String) {write : Database → Database}
    (h : ∀ db, Written whole db (write db)) :
    Wrote id (execute fault (fun db => .ok ((), write db))) whole := by
  constructor
  intro db
  cases fault with
  | some text => exact ⟨.nil, Writes.part_nil _, written_nil rfl rfl rfl, nofun⟩
  | none => exact ⟨whole, Writes.part_self _, h db, fun _ _ => rfl⟩

/-- What is written for the rows of a statement, one after the other. -/
def allWrites (ws : List Writes) : Writes := ws.foldr Writes.append .nil

theorem allWrites_concat (ws : List Writes) (w : Writes) : allWrites (ws ++ [w]) = (allWrites ws).append w := by
  induction ws with
  | nil => simp [allWrites, Writes.append, Writes.nil]
  | cons _ _ ih =>
      rw [List.cons_append, allWrites, List.foldr_cons, ← allWrites, ih]
      simp only [allWrites, List.foldr_cons, Writes.append, List.append_assoc]

theorem wrote_executeEach {ρ : Type} {write : ρ → Database → Database} {f : ρ → Writes}
    (h : ∀ row db, Written (f row) db (write row db)) (faults : Nat → Option String) (rows : List ρ) :
    Wrote id (executeEach write faults rows) (allWrites (rows.map f)) := by
  induction rows generalizing faults with
  | nil => exact wrote_pure id ()
  | cons row rows ih => exact wrote_bind (wrote_execute (faults 0) (h row)) (fun _ => ih _)

theorem wrote_sqlite {x : Command Database SqliteError α} (h : Wrote id x whole) :
    Wrote ProcessorStore.db (sqlite x) whole :=
  wrote_mapError _ ⟨fun s => h.after s.db⟩

theorem allWrites_map {ρ : Type} (f : ρ → Writes) (rows : List ρ) :
    allWrites (rows.map f) = ⟨rows.flatMap (fun row => (f row).tags), rows.flatMap (fun row => (f row).params),
      rows.flatMap (fun row => (f row).events)⟩ := by
  induction rows with
  | nil => rfl
  | cons row rows ih =>
      rw [List.map_cons, allWrites, List.foldr_cons, ← allWrites, ih]
      rfl

theorem flatMap_valuesOf (runId : String) (pairs : List (String × String)) :
    pairs.flatMap (fun pair => valuesOf runId [pair]) = valuesOf runId pairs :=
  List.map_eq_flatMap.symm

theorem allWrites_tags (runId : String) (tags : List (String × String)) :
    allWrites (tags.map (fun tag => ⟨valuesOf runId [tag], [], []⟩)) = ⟨valuesOf runId tags, [], []⟩ := by
  simp [allWrites_map, flatMap_valuesOf]

theorem allWrites_params (runId : String) (params : List (String × String)) :
    allWrites (params.map (fun param => ⟨[], valuesOf runId [param], []⟩)) = ⟨[], valuesOf runId params, []⟩ := by
  simp [allWrites_map, flatMap_valuesOf]

theorem allWrites_events (runId : String) (events : List RunEventInput) :
    allWrites (events.map (fun event => ⟨[], [], [(runId, event)]⟩)) =
      ⟨[], [], events.map (fun event => (runId, event))⟩ := by
  rw [allWrites_map, List.map_eq_flatMap]
  simp

variable (faults : ProcessFaults) (batch : QueuedIngestBatch)

theorem wrote_storeMetrics : Wrote ProcessorStore.db (storeMetrics faults batch) .nil := by
  have hrow : ∀ metric db, Written .nil db (Database.addMetric batch.runId metric db) :=
    fun _ _ => written_nil rfl rfl rfl
  have hnil : allWrites (batch.metrics.map (fun _ => Writes.nil)) = .nil := by
    rw [allWrites_map]
    simp [Writes.nil]
  rw [storeMetrics]
  split
  · exact wrote_pure _ ()
  · have hrows := wrote_executeEach hrow faults.metrics batch.metrics
    rw [hnil] at hrows
    have hinsert : Wrote id (insertMetrics faults.metrics batch.runId batch.metrics) .nil :=
      (wrote_bind hrows (fun _ => wrote_pure id _)).of_eq rfl
    have hcount : Wrote id (incrementMetricsCount faults.metricsCount batch.runId
        (saturate (2 ^ 63 - 1) batch.metrics.length)) .nil :=
      wrote_execute _ (fun _ => written_nil rfl rfl rfl)
    exact (wrote_bind (wrote_sqlite hinsert) (fun _ => wrote_sqlite hcount)).of_eq rfl

theorem wrote_storePoints : Wrote ProcessorStore.db (storePoints faults batch) .nil := by
  rw [storePoints]
  split
  · exact wrote_pure _ ()
  · refine wrote_leaves ⟨fun s => ?_⟩
    cases hfault : faults.points with
    | some text => rfl
    | none => rfl

theorem wrote_storeTags :
    Wrote ProcessorStore.db (storeTags faults batch) ⟨valuesOf batch.runId batch.tags, [], []⟩ := by
  rw [storeTags]
  split
  · rename_i hnil
    rw [hnil]
    exact wrote_pure _ ()
  · rw [← allWrites_tags]
    exact wrote_sqlite (wrote_executeEach (written_setTag batch.runId) faults.tags batch.tags)

theorem wrote_storeParams :
    Wrote ProcessorStore.db (storeParams faults batch) ⟨[], valuesOf batch.runId batch.params, []⟩ := by
  rw [storeParams]
  split
  · rename_i hnil
    rw [hnil]
    exact wrote_pure _ ()
  · have hrows := wrote_executeEach (written_setParam batch.runId) faults.params batch.params
    have hcount : Wrote id (execute (faults.params batch.params.length)
        (fun db => .ok ((), Database.countParams batch.runId db))) .nil :=
      wrote_execute _ (fun _ => written_nil rfl rfl rfl)
    rw [allWrites_params] at hrows
    have hparams := wrote_bind hrows (fun _ => wrote_bind hcount (fun _ => wrote_pure id batch.params.length))
    have hstore := wrote_bind (wrote_sqlite hparams) (fun _ => wrote_pure ProcessorStore.db ())
    exact hstore.of_eq (by simp [Writes.append, Writes.nil])

theorem wrote_storeEvents : Wrote ProcessorStore.db (storeEvents faults batch)
    ⟨[], [], (batchEvents batch).map (fun event => (batch.runId, event))⟩ := by
  rw [storeEvents]
  split
  · rename_i hnil
    rw [hnil]
    exact wrote_pure _ ()
  · have hrows := wrote_executeEach (written_addEvent batch.runId) faults.events (batchEvents batch)
    have hstamp := wrote_leaves (leaves_stampRun (faults.events (batchEvents batch).length) (batchEvents batch).length)
    rw [allWrites_events] at hrows
    have hevents := wrote_bind hrows (fun _ => wrote_bind hstamp (fun _ => wrote_pure id (batchEvents batch).length))
    have hstore := wrote_bind (wrote_sqlite hevents) (fun _ => wrote_pure ProcessorStore.db ())
    exact hstore.of_eq (by simp [Writes.append, Writes.nil])

theorem wrote_applyBatch : Wrote ProcessorStore.db (applyBatch faults batch) (writesOf batch) := by
  have hrest := wrote_bind (wrote_storePoints faults batch) (fun _ =>
    wrote_bind (wrote_storeTags faults batch) (fun _ =>
      wrote_bind (wrote_storeParams faults batch) (fun _ => wrote_storeEvents faults batch)))
  have hrecord : Wrote ProcessorStore.db (mapError SqliteError.message (recordBatch faults.recordBatch
      ⟨batch.batchId, batch.runId, batch.seq, batch.payloadHash⟩)) .nil := by
    refine wrote_mapError _ (wrote_leaves ⟨fun s => ?_⟩)
    rw [recordBatch, execute]
    cases faults.recordBatch with
    | some text => rfl
    | none => cases s.batches.insert _ <;> rfl
  have hall := wrote_bind (wrote_storeMetrics faults batch) (fun _ => wrote_bind hrest (fun _ => hrecord))
  exact hall.of_eq (by simp [Writes.append, Writes.nil, writesOf])

end Writing

theorem findRun_setRun (db : Database) (id : String) (g : RunRow → RunRow) (hid : ∀ r, (g r).id = r.id)
    (runId : String) :
    (db.setRun id g hid).findRun runId = (db.findRun runId).map (setWhere (fun r => r.id == id) g) := by
  simp only [Database.setRun, Database.findRun, Table.find, rows_update, List.find?_map]
  congr 2
  funext r
  simp only [Function.comp, setWhere_keeps RunRow.id hid]

theorem metricsCountOf_setRun (db : Database) (id : String) {g : RunRow → RunRow} (hid : ∀ r, (g r).id = r.id)
    (hcount : ∀ r, (g r).metricsCount = r.metricsCount) (runId : String) :
    metricsCountOf (db.setRun id g hid) runId = metricsCountOf db runId := by
  rw [metricsCountOf, findRun_setRun, Option.map_map]
  congr 1
  funext r
  exact setWhere_keeps RunRow.metricsCount hcount r

theorem metricsCountOf_countMetrics (db : Database) (id : String) (count : Int) (runId : String) :
    metricsCountOf (db.countMetrics id count) runId =
      (metricsCountOf db runId).map (fun n => if id = runId then n + count else n) := by
  rw [metricsCountOf, Database.countMetrics, findRun_setRun, metricsCountOf, Option.map_map, Option.map_map]
  cases hrun : db.findRun runId with
  | none => rfl
  | some run =>
      have hrunid : run.id = runId := beq_iff_eq.mp (find_some hrun).2
      simp only [Option.map_some, Function.comp, setWhere, hrunid, beq_iff_eq, eq_comm (a := runId)]
      split <;> rfl

theorem grows_nil (hmetrics : db'.metrics = db.metrics)
    (hcounts : ∀ runId, metricsCountOf db' runId = metricsCountOf db runId) : Grows [] db db' where
  metrics := hmetrics.trans (List.append_nil _).symm
  counts runId := (hcounts runId).trans Option.map_id'.symm

theorem grows_countParams (runId : String) (db : Database) : Grows [] db (db.countParams runId) := by
  refine grows_nil rfl (fun id => ?_)
  simp only [Database.countParams]
  rw [metricsCountOf_setRun]
  exact fun _ => rfl

theorem grows_ingestMetrics (batch : QueuedIngestBatch) (db : Database) :
    Grows [batch] db (Database.ingestMetrics batch.runId batch.metrics db) where
  metrics := by
    rw [Database.ingestMetrics]
    split
    · rename_i hnil
      simp [metricRows, hnil]
    · simp [metricRows, Database.countMetrics, Database.setRun, Database.addMetrics]
  counts runId := by
    rw [Database.ingestMetrics]
    split
    · rename_i hnil
      have hzero : countBatches [batch] runId = id := by
        funext count
        simp [countBatches, hnil, saturate]
      rw [hzero, Option.map_id]
      rfl
    · exact metricsCountOf_countMetrics _ _ _ _

/-- The store has grown by the metrics of some batches, and recorded none. -/
def StoreGrows (added : List QueuedIngestBatch) (s s' : ProcessorStore) : Prop :=
  Grows added s.db s'.db ∧ s'.batches = s.batches

theorem StoreGrows.refl (s : ProcessorStore) : StoreGrows [] s s := ⟨.refl s.db, rfl⟩

theorem StoreGrows.trans {s s' s'' : ProcessorStore} (h : StoreGrows added s s') (h' : StoreGrows added' s' s'') :
    StoreGrows (added ++ added') s s'' :=
  ⟨h.1.trans h'.1, h'.2.trans h.2⟩

theorem moves_sqlite {α : Type} {x : Command Database SqliteError α} (h : Moves (Grows []) x) :
    Moves (StoreGrows []) (sqlite x) :=
  ⟨fun s => ⟨h.moves s.db, rfl⟩⟩

theorem grows_trans (s t u : Database) (h : Grows [] s t) (h' : Grows [] t u) : Grows [] s u := h.trans h'

theorem storeGrows_trans (s t u : ProcessorStore) (h : StoreGrows [] s t) (h' : StoreGrows [] t u) :
    StoreGrows [] s u :=
  h.trans h'

section Rest

variable (faults : ProcessFaults)

theorem moves_storePoints (batch : QueuedIngestBatch) : Moves (StoreGrows []) (storePoints faults batch) := by
  simp only [storePoints]
  split
  · exact moves_pure .refl ()
  · constructor
    intro s
    cases hfault : faults.points with
    | some text => exact .refl s
    | none => exact ⟨.refl s.db, rfl⟩

theorem moves_storeTags (batch : QueuedIngestBatch) : Moves (StoreGrows []) (storeTags faults batch) := by
  simp only [storeTags]
  split
  · exact moves_pure .refl ()
  · exact moves_sqlite (moves_executeEach .refl grows_trans _ (fun _ _ _ => grows_nil rfl (fun _ => rfl)))

theorem moves_storeParams (batch : QueuedIngestBatch) : Moves (StoreGrows []) (storeParams faults batch) := by
  simp only [storeParams]
  split
  · exact moves_pure .refl ()
  · refine moves_bind storeGrows_trans (moves_sqlite ?_) (fun _ => moves_pure .refl ())
    refine moves_bind grows_trans (moves_executeEach .refl grows_trans _
      (fun _ _ _ => grows_nil rfl (fun _ => rfl))) (fun _ => ?_)
    refine moves_bind grows_trans (moves_execute .refl ?_) (fun _ => moves_pure .refl _)
    intro db _ db' h
    obtain ⟨-, rfl⟩ := Prod.mk.inj (Except.ok.inj h)
    exact grows_countParams _ db

theorem moves_storeEvents (batch : QueuedIngestBatch) : Moves (StoreGrows []) (storeEvents faults batch) := by
  simp only [storeEvents]
  split
  · exact moves_pure .refl ()
  · refine moves_bind storeGrows_trans (moves_sqlite ?_) (fun _ => moves_pure .refl ())
    refine moves_bind grows_trans (moves_executeEach .refl grows_trans _
      (fun _ _ _ => grows_nil rfl (fun _ => rfl))) (fun _ => ?_)
    refine moves_bind grows_trans ⟨fun db => ?_⟩ (fun _ => moves_pure .refl _)
    have h := (leaves_stampRun (faults.events (batchEvents batch).length) (batchEvents batch).length).shows db
    rw [id_eq] at h
    rw [h]
    exact .refl db

theorem moves_storeRest (batch : QueuedIngestBatch) : Moves (StoreGrows []) (storeRest faults batch) :=
  moves_bind storeGrows_trans (moves_storePoints faults batch) (fun _ =>
    moves_bind storeGrows_trans (moves_storeTags faults batch) (fun _ =>
      moves_bind storeGrows_trans (moves_storeParams faults batch) (fun _ => moves_storeEvents faults batch)))

variable {faults} {s s' : ProcessorStore} {u : Unit}

theorem storeMetrics_ok (h : storeMetrics faults batch s = (.ok u, s')) : StoreGrows [batch] s s' := by
  have hgrows := grows_ingestMetrics batch s.db
  simp only [storeMetrics] at h
  rw [Database.ingestMetrics] at hgrows
  split at h
  · rename_i hnil
    rw [if_pos hnil] at hgrows
    rw [(pure_eq_ok h).2]
    exact ⟨hgrows, rfl⟩
  · rename_i hnil
    rw [if_neg hnil] at hgrows
    obtain ⟨_, s₁, hrows, hcount⟩ := bind_eq_ok h
    obtain ⟨db₁, hdb₁, rfl⟩ := zoom_eq_ok (mapError_eq_ok hrows)
    obtain ⟨-, rfl⟩ := insertMetrics_ok hdb₁
    obtain ⟨db₂, hdb₂, rfl⟩ := zoom_eq_ok (mapError_eq_ok hcount)
    rw [incrementMetricsCount_ok hdb₂]
    exact ⟨hgrows, rfl⟩

/-- The batch id has been recorded, for whatever run. -/
def Known (s : ProcessorStore) (batch : QueuedIngestBatch) : Prop :=
  ∃ row ∈ s.batches.rows, row.id = batch.batchId

def batchRow (batch : QueuedIngestBatch) : BatchRow := ⟨batch.batchId, batch.runId, batch.seq, batch.payloadHash⟩

/-- What an entry that is applied leaves behind. -/
structure Recorded (batch : QueuedIngestBatch) (s s' : ProcessorStore) : Prop where
  grows : Grows [batch] s.db s'.db
  written : Written (writesOf batch) s.db s'.db
  batches : s'.batches.rows = s.batches.rows ++ [batchRow batch]
  fresh : ∀ row ∈ s.batches.rows, row.id ≠ batch.batchId

theorem applyBatch_ok (h : applyBatch faults batch s = (.ok u, s')) : Recorded batch s s' := by
  obtain ⟨w, -, hwritten, hall⟩ := (wrote_applyBatch faults batch).after s
  rw [h] at hwritten hall
  obtain rfl := hall u rfl
  obtain ⟨_, s₁, hmetrics, h⟩ := bind_eq_ok h
  obtain ⟨_, s₂, hrest, hrecord⟩ := bind_eq_ok h
  have hgrow₁ := storeMetrics_ok hmetrics
  have hgrow₂ := (moves_storeRest faults batch).of_eq hrest
  have hinsert := execute_ok (mapError_eq_ok hrecord)
  split at hinsert
  · rename_i batches hbatches
    obtain ⟨-, rfl⟩ := Prod.mk.inj (Except.ok.inj hinsert)
    obtain ⟨hrows, hfresh⟩ := insert_eq_some hbatches
    have hsame : s₂.batches = s.batches := hgrow₂.2.trans hgrow₁.2
    rw [hsame] at hrows hfresh
    exact ⟨hgrow₁.1.trans hgrow₂.1, hwritten, hrows, hfresh⟩
  · cases hinsert

end Rest

/-- No statement that an entry needs is refused. -/
structure Granted (faults : ProcessFaults) (batch : QueuedIngestBatch) : Prop where
  metrics : ∀ i < batch.metrics.length, faults.metrics i = none
  metricsCount : batch.metrics ≠ [] → faults.metricsCount = none
  points : batch.metrics ≠ [] → faults.points = none
  tags : ∀ i < batch.tags.length, faults.tags i = none
  params : batch.params ≠ [] → ∀ i ≤ batch.params.length, faults.params i = none
  events : batchEvents batch ≠ [] → ∀ i ≤ (batchEvents batch).length, faults.events i = none
  recordBatch : faults.recordBatch = none

theorem granted_default (batch : QueuedIngestBatch) : Granted {} batch :=
  ⟨fun _ _ => rfl, fun _ => rfl, fun _ => rfl, fun _ _ => rfl, fun _ _ _ => rfl, fun _ _ _ => rfl, rfl⟩

section Granted

variable {faults : ProcessFaults} (h : Granted faults batch)
include h

theorem completes_storeMetrics : Completes (storeMetrics faults batch) := by
  rw [storeMetrics]
  split
  · exact completes_pure ()
  · rename_i hmetrics
    rw [h.metricsCount hmetrics]
    exact completes_bind (completes_mapError (completes_zoom (completes_insertMetrics _ h.metrics)))
      (fun _ => completes_mapError (completes_zoom (completes_execute _)))

theorem completes_storeRest : Completes (storeRest faults batch) := by
  refine completes_bind ?_ (fun _ => completes_bind ?_ (fun _ => completes_bind ?_ (fun _ => ?_)))
  · rw [storePoints]
    split
    · exact completes_pure ()
    · rename_i hmetrics
      rw [h.points hmetrics]
      exact ⟨fun _ _ => trivial⟩
  · rw [storeTags]
    split
    · exact completes_pure ()
    · exact completes_mapError (completes_zoom (completes_executeEach _ h.tags))
  · rw [storeParams]
    split
    · exact completes_pure ()
    · rename_i hparams
      exact completes_bind (completes_mapError (completes_zoom (completes_insertParams _ (h.params hparams))))
        (fun _ => completes_pure ())
  · rw [storeEvents]
    split
    · exact completes_pure ()
    · rename_i hevents
      exact completes_bind (completes_mapError (completes_zoom (completes_insertRunEvents _ (h.events hevents))))
        (fun _ => completes_pure ())

end Granted

section Failing

variable {faults : ProcessFaults} {s s' : ProcessorStore} {e : String}

theorem recordBatch_error {fault : Option String} {row : BatchRow} {e : SqliteError}
    (h : recordBatch fault row s = (.error e, s')) :
    s' = s ∧ (fault = none → ∃ r ∈ s.batches.rows, r.id = row.id) := by
  obtain ⟨hsame, herror⟩ := execute_error h
  refine ⟨hsame, fun hnone => ?_⟩
  have hinsert := herror hnone
  split at hinsert
  · cases hinsert
  · exact (insert_eq_none_iff _ _).mp ‹_›

theorem storeMetrics_refused (hmetrics : batch.metrics ≠ []) (hfirst : (faults.metrics 0).isSome = true) :
    ∃ e, storeMetrics faults batch s = (.error e, s) := by
  obtain ⟨text, htext⟩ := Option.isSome_iff_exists.mp hfirst
  rw [storeMetrics, if_neg hmetrics]
  cases hm : batch.metrics with
  | nil => exact absurd hm hmetrics
  | cons metric metrics =>
      refine ⟨(SqliteError.database text).message, ?_⟩
      simp only [bind, sqlite, mapError, zoom, insertMetrics, executeEach, execute, htext, statement_some]
      rfl

/-- What a failing delivery must be like to write no metrics. -/
def Harmless (faults : ProcessFaults) (batch : QueuedIngestBatch) : Prop :=
  batch.metrics = [] ∨ (faults.metrics 0).isSome = true ∨ Granted faults batch

theorem StoreGrows.drop_nil (hnil : batch.metrics = []) (h : StoreGrows [batch] s s') :
    StoreGrows [] s s' := by
  obtain ⟨hgrows, hbatches⟩ := h
  refine ⟨{ hgrows with metrics := ?_, counts := fun runId => ?_ }, hbatches⟩
  · have hmetrics := hgrows.metrics
    simpa [metricRows, hnil] using hmetrics
  · have hcounts := hgrows.counts runId
    have hzero : countBatches [batch] runId = countBatches [] runId := by
      funext count
      simp [countBatches, hnil, saturate]
    rwa [hzero] at hcounts

/-- What is left of an entry behind its metrics adds none, and fails at a
recorded batch only when its statements are granted. -/
theorem applyRest_error
    (h : (storeRest faults batch >>= fun _ => mapError SqliteError.message
      (recordBatch faults.recordBatch (batchRow batch))) s = (.error e, s')) :
    StoreGrows [] s s' ∧ (Granted faults batch → ∃ row ∈ s.batches.rows, row.id = batch.batchId) := by
  rcases bind_eq_error h with hrest | ⟨_, s₁, hrest, hrecord⟩
  · exact ⟨(moves_storeRest faults batch).of_eq hrest,
      fun hnone => absurd hrest (completes_storeRest hnone).not_error⟩
  · have hgrow := (moves_storeRest faults batch).of_eq hrest
    obtain ⟨_, hrecord⟩ := mapError_eq_error hrecord
    obtain ⟨rfl, hknown⟩ := recordBatch_error hrecord
    rw [← hgrow.2]
    exact ⟨hgrow, fun hnone => hknown hnone.recordBatch⟩

theorem applyBatch_error
    (hfaults : batch.metrics = [] ∨ (faults.metrics 0).isSome = true ∨
      (Granted faults batch ∧ ∀ row ∈ s.batches.rows, row.id ≠ batch.batchId))
    (h : applyBatch faults batch s = (.error e, s')) : StoreGrows [] s s' := by
  by_cases hnil : batch.metrics = []
  · rcases bind_eq_error h with hmetrics | ⟨_, s₁, hmetrics, h⟩
    · rw [storeMetrics, if_pos hnil] at hmetrics
      exact absurd hmetrics (completes_pure ()).not_error
    · exact ((storeMetrics_ok hmetrics).trans (applyRest_error h).1).drop_nil hnil
  rcases hfaults.resolve_left hnil with hfirst | ⟨hnone, hfresh⟩
  · obtain ⟨_, hrefused⟩ := storeMetrics_refused (s := s) hnil hfirst
    rcases bind_eq_error h with hmetrics | ⟨_, s₁, hmetrics, h⟩
    · rw [← (Prod.mk.inj (hrefused.symm.trans hmetrics)).2]
      exact .refl s
    · exact absurd (congrArg Prod.fst (hrefused.symm.trans hmetrics)) nofun
  · rcases bind_eq_error h with hmetrics | ⟨_, s₁, hmetrics, h⟩
    · exact absurd hmetrics (completes_storeMetrics hnone).not_error
    · obtain ⟨row, hrow, hid⟩ := (applyRest_error h).2 hnone
      rw [(storeMetrics_ok hmetrics).2] at hrow
      exact absurd hid (hfresh row hrow)

end Failing

theorem processBatch_known {faults : ProcessFaults} {batch : QueuedIngestBatch} {s : ProcessorStore}
    (hread : faults.batchExists = none) (hknown : Known s batch) : processBatch faults batch s = (.ok (), s) := by
  have hany : s.batches.rows.any (fun row => row.id == batch.batchId) = true := by simpa [Known] using hknown
  simp only [processBatch, bind, attempt, batchExists, query, hread, hany]
  rfl

theorem processBatch_new {faults : ProcessFaults} {batch : QueuedIngestBatch} {s : ProcessorStore}
    (h : ¬ (faults.batchExists = none ∧ Known s batch)) :
    processBatch faults batch s = applyBatch faults batch s := by
  simp only [processBatch, bind, attempt, batchExists, query]
  cases hread : faults.batchExists with
  | some text => rfl
  | none =>
      have hany : s.batches.rows.any (fun row => row.id == batch.batchId) = false := by
        simpa [Known, hread] using h
      rw [hany]
      rfl

theorem applyBatch_granted {faults : ProcessFaults} {s : ProcessorStore} (h : Granted faults batch)
    (hnew : ¬ Known s batch) : ∃ store, applyBatch faults batch s = (.ok (), store) := by
  obtain ⟨_, s₁, hmetrics⟩ := (completes_storeMetrics h).exists_ok s
  obtain ⟨_, s₂, hrest⟩ := (completes_storeRest h).exists_ok s₁
  have hsame : s₂.batches = s.batches :=
    ((moves_storeRest faults batch).of_eq hrest).2.trans (storeMetrics_ok hmetrics).2
  have happly : applyBatch faults batch s = mapError SqliteError.message (recordBatch faults.recordBatch
      (batchRow batch)) s₂ :=
    (bind_ok hmetrics).trans (bind_ok hrest)
  cases hrecord : recordBatch faults.recordBatch (batchRow batch) s₂ with
  | mk result store =>
      cases result with
      | ok u => exact ⟨store, happly.trans (mapError_ok hrecord)⟩
      | error e =>
          obtain ⟨row, hrow, hid⟩ := (recordBatch_error hrecord).2 h.recordBatch
          exact absurd ⟨row, hsame ▸ hrow, hid⟩ hnew

end MLRunX.QueuedIngest
