import MLRunX.ConsumerGroups
import MLRunX.QueuedIngest

namespace MLRunX.ProcessorLoop

open Commands ConsumerGroups Ingest Processor QueuedIngest Runs

structure QueueConfig where
  readCount : Nat := 32
  maxLenApprox : Nat := 100000
  deriving DecidableEq, Repr

structure QueuedStreamEntry where
  redisId : Nat
  batch : QueuedIngestBatch
  deriving DecidableEq, Repr

inductive DecodeFault
  | missingPayload
  | payload
  | batch
  deriving DecidableEq, Repr

def DecodeFault.message : DecodeFault → String
  | .missingPayload => "Redis stream entry missing payload field"
  | .payload => "failed to decode Redis stream payload"
  | .batch => "failed to decode queued batch"

/-- What can go wrong in a read: there is no connection, the reply to a read is
lost, or an entry of the reply cannot be decoded. -/
structure ReadFaults where
  connection : Bool := false
  reply : Bool := false
  entry : Nat → Option DecodeFault := fun _ => none

def count (config : QueueConfig) : Nat := saturate (2 ^ 63 - 1) config.readCount

def maxLen (config : QueueConfig) : Nat := saturate (2 ^ 63 - 1) config.maxLenApprox

def decodeEntries : (faults : Nat → Option DecodeFault) → List (Entry QueuedIngestBatch) →
    Except String (List QueuedStreamEntry)
  | _, [] => .ok []
  | faults, e :: es => match faults 0 with
      | some fault => .error fault.message
      | none => (decodeEntries (fun i => faults (i + 1)) es).map (fun entries => ⟨e.id, e.value⟩ :: entries)

def readNext (config : QueueConfig) (faults : ReadFaults) (consumerName : String) :
    Command (Stream QueuedIngestBatch) String (List QueuedStreamEntry) := fun s =>
  if faults.connection then
    (.error "failed to connect to Redis", s)
  else if faults.reply then
    (.error "failed to read ingest batches from Redis", s.readNew (count config) consumerName)
  else
    (decodeEntries faults.entry (s.next (count config)), s.readNew (count config) consumerName)

def ack (fault : Option String) (redisId : Nat) : Command (Stream QueuedIngestBatch) String Unit := fun s =>
  match fault with
  | some text => (.error text, s)
  | none => (.ok (), s.ack redisId)

/-- A running processor with the entries that its loop has still to go through. -/
structure Worker where
  consumerName : String
  entries : List QueuedStreamEntry
  deriving DecidableEq, Repr

structure System where
  stream : Stream QueuedIngestBatch
  store : ProcessorStore
  worker : Option Worker

def System.start (store : ProcessorStore) : System := ⟨.empty, store, none⟩

def processEntry (faults : ProcessFaults) (entry : QueuedStreamEntry) : Command System String Unit :=
  Processor.processEntry faults entry.batch (zoom System.store (fun store s => { s with store }))
    (fun fault => zoom System.stream (fun stream s => { s with stream }) (ack fault entry.redisId))

/-- The loop reads when it has gone through what it has read. An error is
logged, and the loop goes on. -/
def read (config : QueueConfig) (faults : ReadFaults) (s : System) : System :=
  match s.worker with
  | some ⟨consumerName, []⟩ => match readNext config faults consumerName s.stream with
      | (.ok entries, stream) => { s with stream, worker := some ⟨consumerName, entries⟩ }
      | (.error _, stream) => { s with stream }
  | _ => s

def process (faults : ProcessFaults) (s : System) : System :=
  match s.worker with
  | some ⟨consumerName, entry :: entries⟩ =>
      { (processEntry faults entry s).2 with worker := some ⟨consumerName, entries⟩ }
  | _ => s

inductive Input
  | enqueue (batch : QueuedIngestBatch) (evict : Nat)
  | read (faults : ReadFaults)
  | process (faults : ProcessFaults)
  | restart (consumerName : String) (refused : Bool)

/-- A processor that is started makes sure that the group exists, which it does
from the beginning of the stream on, and has no entries of its predecessor. -/
def step (config : QueueConfig) : Machine System Input Unit
  | s, .enqueue batch evict => ((), { s with stream := s.stream.add (maxLen config) evict batch })
  | s, .read faults => ((), read config faults s)
  | s, .process faults => ((), process faults s)
  | s, .restart consumerName refused => ((), { s with worker := if refused then none else some ⟨consumerName, []⟩ })

def Unacked (s : System) (id : Nat) : Prop := 0 < id ∧ id ≤ s.stream.lastId ∧ id ∉ s.stream.acked

def CanProcess (config : QueueConfig) (s : System) (id : Nat) : Prop :=
  ∃ inputs consumerName entry entries, (after (step config) s inputs).worker =
    some ⟨consumerName, entry :: entries⟩ ∧
    entry.redisId = id

def NoneAbandoned (config : QueueConfig) (s : System) : Prop := ∀ id, Unacked s id → CanProcess config s id

/-- An entry that the group has not been handed, or that the loop has still to go through. -/
def Waiting (s : System) (id : Nat) : Prop :=
  (∃ e ∈ s.stream.fresh, e.id = id) ∨ ∃ worker, s.worker = some worker ∧
    ∃ entry ∈ worker.entries, entry.redisId = id

variable {config : QueueConfig} {s : System} {id : Nat}

theorem decodeEntries_ok {faults : Nat → Option DecodeFault} {es : List (Entry QueuedIngestBatch)}
    {entries : List QueuedStreamEntry} (h : decodeEntries faults es = .ok entries) :
    entries.map QueuedStreamEntry.redisId = es.map Entry.id := by
  induction es generalizing faults entries with
  | nil =>
      obtain rfl := Except.ok.inj h
      rfl
  | cons e es ih =>
      simp only [decodeEntries] at h
      split at h
      · cases h
      · cases hrest : decodeEntries (fun i => faults (i + 1)) es with
        | error text =>
            rw [hrest] at h
            cases h
        | ok rest =>
            rw [hrest] at h
            obtain rfl := Except.ok.inj h
            rw [List.map_cons, List.map_cons, ih hrest]

theorem decodeEntries_granted {faults : Nat → Option DecodeFault} {es : List (Entry QueuedIngestBatch)}
    (h : ∀ i < es.length, faults i = none) : ∃ entries, decodeEntries faults es = .ok entries := by
  induction es generalizing faults with
  | nil => exact ⟨[], rfl⟩
  | cons e es ih =>
      obtain ⟨entries, hentries⟩ := ih (fun i hi => h (i + 1) (Nat.succ_lt_succ hi))
      refine ⟨⟨e.id, e.value⟩ :: entries, ?_⟩
      rw [decodeEntries, h 0 (Nat.zero_lt_succ _)]
      simp only [hentries]
      rfl

def Arrives (config : QueueConfig) (faults : ReadFaults) (s : System) : Prop :=
  faults.reply = false ∧ ∀ i < (s.stream.next (count config)).length, faults.entry i = none

theorem read_cases (config : QueueConfig) (faults : ReadFaults) (s : System) :
    read config faults s = s ∨ ∃ consumerName, s.worker = some ⟨consumerName, []⟩ ∧
      faults.connection = false ∧
      (read config faults s).stream = s.stream.readNew (count config) consumerName ∧
      ∃ entries, (read config faults s).worker = some ⟨consumerName, entries⟩ ∧
        (entries = [] ∧ ¬ Arrives config faults s ∨
          entries.map QueuedStreamEntry.redisId = (s.stream.next (count config)).map Entry.id) := by
  simp only [read]
  split
  · rename_i consumerName hworker
    simp only [readNext]
    by_cases hconnection : faults.connection = true
    · left
      rw [if_pos hconnection]
    · rw [if_neg hconnection]
      right
      refine ⟨consumerName, hworker, by simpa using hconnection, ?_⟩
      by_cases hreply : faults.reply = true
      · rw [if_pos hreply]
        exact ⟨rfl, [], hworker, .inl ⟨rfl, fun h => absurd (h.1.symm.trans hreply) Bool.false_ne_true⟩⟩
      · rw [if_neg hreply]
        cases hdecode : decodeEntries faults.entry (s.stream.next (count config)) with
        | error text =>
            refine ⟨rfl, [], hworker, .inl ⟨rfl, fun h => ?_⟩⟩
            obtain ⟨entries, hentries⟩ := decodeEntries_granted h.2
            cases hdecode.symm.trans hentries
        | ok entries => exact ⟨rfl, entries, rfl, .inr (decodeEntries_ok hdecode)⟩
  · exact .inl rfl

theorem processEntry_cases (faults : ProcessFaults) (entry : QueuedStreamEntry) (s : System) :
    (processEntry faults entry s).2.stream = s.stream ∨
      (processEntry faults entry s).2.stream = s.stream.ack entry.redisId := by
  simp only [processEntry, Processor.processEntry, bind, zoom]
  generalize processBatch faults entry.batch s.store = result
  rcases result with ⟨e | u, store⟩
  · exact .inl rfl
  · cases faults.ack with
    | some text => exact .inl rfl
    | none => exact .inr rfl

/-- The statements that an entry needs go through: the batch is known and found
so, or new and its writes are granted. -/
def Succeeds (faults : ProcessFaults) (store : ProcessorStore) (batch : QueuedIngestBatch) : Prop :=
  (Known store batch → faults.batchExists = none) ∧ (¬ Known store batch → Granted faults batch) ∧
    faults.ack = none

theorem processEntry_succeeds {faults : ProcessFaults} {entry : QueuedStreamEntry}
    (h : Succeeds faults s.store entry.batch) :
    (processEntry faults entry s).2.stream = s.stream.ack entry.redisId := by
  obtain ⟨hknown, hnew, hack⟩ := h
  obtain ⟨store, hstore⟩ : ∃ store, processBatch faults entry.batch s.store = (.ok (), store) := by
    by_cases hk : Known s.store entry.batch
    · exact ⟨_, processBatch_known (hknown hk) hk⟩
    · rw [processBatch_new (fun h => hk h.2)]
      exact applyBatch_granted (hnew hk) hk
  simp only [processEntry, Processor.processEntry, bind, zoom]
  generalize processBatch faults entry.batch s.store = result at hstore ⊢
  rw [hstore, hack]
  rfl

theorem process_hand (faults : ProcessFaults) {consumerName : String} {entry : QueuedStreamEntry}
    {entries : List QueuedStreamEntry} (hworker : s.worker = some ⟨consumerName, entry :: entries⟩) :
    (process faults s).worker = some ⟨consumerName, entries⟩ ∧
      ((process faults s).stream = s.stream ∨ (process faults s).stream = s.stream.ack entry.redisId) ∧
      (Succeeds faults s.store entry.batch → (process faults s).stream = s.stream.ack entry.redisId) := by
  have hprocess : process faults s =
      { (processEntry faults entry s).2 with worker := some ⟨consumerName, entries⟩ } := by
    simp only [process, hworker]
  rw [hprocess]
  exact ⟨rfl, processEntry_cases faults entry s, processEntry_succeeds⟩

theorem process_cases (faults : ProcessFaults) (s : System) :
    process faults s = s ∨ ∃ consumerName entry entries, s.worker = some ⟨consumerName, entry :: entries⟩ := by
  rcases hworker : s.worker with _ | ⟨consumerName, _ | ⟨entry, entries⟩⟩
  · left
    simp only [process, hworker]
  · left
    simp only [process, hworker]
  · exact .inr ⟨consumerName, entry, entries, rfl⟩

theorem fresh_process (faults : ProcessFaults) (s : System) :
    (process faults s).stream.fresh = s.stream.fresh := by
  rcases process_cases faults s with hsame | ⟨_, entry, _, hworker⟩
  · rw [hsame]
  · rcases (process_hand faults hworker).2.1 with hstream | hstream
    · rw [hstream]
    · rw [hstream, fresh_ack]

theorem ordered_step (h : s.stream.Ordered) (i : Input) : (step config s i).2.stream.Ordered := by
  cases i with
  | enqueue batch evict => exact h.add (maxLen config) evict batch
  | read faults =>
      rcases read_cases config faults s with hsame | ⟨consumerName, -, -, hstream, -⟩
      · exact (congrArg (fun s => s.stream.Ordered) hsame).mpr h
      · exact hstream ▸ h.readNew (count config) consumerName
  | process faults =>
      rcases process_cases faults s with hsame | ⟨_, entry, _, hworker⟩
      · exact (congrArg (fun s => s.stream.Ordered) hsame).mpr h
      · rcases (process_hand faults hworker).2.1 with hstream | hstream
        · exact hstream ▸ h
        · exact hstream ▸ h.ack entry.redisId
  | restart => exact h

theorem lastId_step (s : System) (i : Input) : s.stream.lastId ≤ (step config s i).2.stream.lastId := by
  cases i with
  | enqueue batch evict => exact Nat.le_succ _
  | read faults =>
      rcases read_cases config faults s with hsame | ⟨consumerName, -, -, hstream, -⟩
      · exact (congrArg (fun s => s.stream.lastId) hsame).ge
      · exact (congrArg Stream.lastId hstream).ge
  | process faults =>
      rcases process_cases faults s with hsame | ⟨_, entry, _, hworker⟩
      · exact (congrArg (fun s => s.stream.lastId) hsame).ge
      · rcases (process_hand faults hworker).2.1 with hstream | hstream
        · exact (congrArg Stream.lastId hstream).ge
        · exact ((congrArg Stream.lastId hstream).trans (lastId_ack s.stream entry.redisId)).ge
  | restart => exact Nat.le_refl _

theorem waiting_of_step (h : s.stream.Ordered) (i : Input) (hid : id ≤ s.stream.lastId)
    (hwaiting : Waiting (step config s i).2 id) : Waiting s id := by
  cases i with
  | enqueue batch evict =>
      rcases hwaiting with ⟨e, he, rfl⟩ | hhand
      · obtain ⟨hentry, hlt⟩ := mem_fresh.mp he
        rcases List.mem_append.mp (List.mem_of_mem_drop hentry) with hold | hnew
        · exact .inl ⟨e, mem_fresh.mpr ⟨hold, hlt⟩, rfl⟩
        · rw [List.mem_singleton.mp hnew] at hid
          exact absurd hid (Nat.not_succ_le_self _)
      · exact .inr hhand
  | read faults =>
      rcases read_cases config faults s with hsame |
        ⟨consumerName, hworker, -, hstream, entries, hworker', hentries⟩
      · exact (congrArg (fun s => Waiting s id) hsame).mp hwaiting
      · left
        rw [Stream.Ordered.fresh_readNew h (count config) consumerName]
        rcases hwaiting with ⟨e, he, hid⟩ | ⟨worker, hhand, entry, hentry, hid⟩
        · exact ⟨e, List.mem_append_right _ (hstream ▸ he), hid⟩
        · obtain rfl := Option.some.inj (hworker'.symm.trans hhand)
          rcases hentries with ⟨rfl, -⟩ | hentries
          · cases hentry
          · have hmem := List.mem_map_of_mem (f := QueuedStreamEntry.redisId) hentry
            rw [hentries] at hmem
            obtain ⟨e, he, heid⟩ := List.mem_map.mp hmem
            exact ⟨e, List.mem_append_left _ he, heid.trans hid⟩
  | process faults =>
      rcases process_cases faults s with hsame | ⟨_, entry, entries, hworker⟩
      · exact (congrArg (fun s => Waiting s id) hsame).mp hwaiting
      · rcases hwaiting with ⟨e, he, hid⟩ | ⟨worker, hhand, old, hold, hid⟩
        · exact .inl ⟨e, fresh_process faults s ▸ he, hid⟩
        · obtain rfl := Option.some.inj ((process_hand faults hworker).1.symm.trans hhand)
          exact .inr ⟨_, hworker, old, List.mem_cons_of_mem _ hold, hid⟩
  | restart consumerName refused =>
      rcases hwaiting with hfresh | ⟨worker, hhand, entry, hentry, -⟩
      · exact .inl hfresh
      · cases refused with
        | true => cases hhand
        | false =>
            obtain rfl := Option.some.inj hhand
            cases hentry

theorem waiting_of_after (h : s.stream.Ordered) (hid : id ≤ s.stream.lastId) (inputs : List Input)
    (hwaiting : Waiting (after (step config) s inputs) id) : Waiting s id := by
  induction inputs generalizing s with
  | nil => exact hwaiting
  | cons i inputs ih =>
      exact waiting_of_step h i hid (ih (ordered_step h i) (Nat.le_trans hid (lastId_step s i)) hwaiting)

theorem CanProcess.of_step (i : Input) (h : CanProcess config (step config s i).2 id) :
    CanProcess config s id := by
  obtain ⟨inputs, hrest⟩ := h
  exact ⟨i :: inputs, hrest⟩

theorem read_arrives (faults : ReadFaults) {consumerName : String} (hworker : s.worker = some ⟨consumerName, []⟩)
    (hconnection : faults.connection = false) (harrives : Arrives config faults s) :
    (read config faults s).stream = s.stream.readNew (count config) consumerName ∧
      ∃ entries, (read config faults s).worker = some ⟨consumerName, entries⟩ ∧
        entries.map QueuedStreamEntry.redisId = (s.stream.next (count config)).map Entry.id := by
  obtain ⟨entries, hdecode⟩ := decodeEntries_granted harrives.2
  have hnext : readNext config faults consumerName s.stream =
      (.ok entries, s.stream.readNew (count config) consumerName) := by
    simp only [readNext, hconnection, harrives.1, Bool.false_eq_true, if_false, hdecode]
  have hread : read config faults s = { s with
      stream := s.stream.readNew (count config) consumerName, worker := some ⟨consumerName, entries⟩ } := by
    simp only [read, hworker, hnext]
  rw [hread]
  exact ⟨rfl, entries, rfl, decodeEntries_ok hdecode⟩

def distance (s : System) : Nat :=
  2 * s.stream.fresh.length + match s.worker with
    | some worker => worker.entries.length
    | none => 1

theorem canProcess_of_waiting (hordered : s.stream.Ordered) (hwaiting : Waiting s id) :
    CanProcess config s id := by
  induction hn : distance s using Nat.strongRecOn generalizing s with
  | _ n ih =>
      subst hn
      rcases hworker : s.worker with _ | ⟨consumerName, _ | ⟨entry, entries⟩⟩
      · apply CanProcess.of_step (.restart "processor" false)
        refine ih _ ?_ hordered (hwaiting.imp_right (fun hhand => ?_)) rfl
        · simp [distance, hworker, step]
        · obtain ⟨worker, hhand, -⟩ := hhand
          cases hworker.symm.trans hhand
      · obtain ⟨hstream, entries, hhand, hentries⟩ :=
          read_arrives {} hworker rfl ⟨rfl, fun _ _ => rfl⟩
        have hsplit := hordered.fresh_readNew (count config) consumerName
        have hlength : entries.length = (s.stream.next (count config)).length := by
          simpa using congrArg List.length hentries
        obtain ⟨e, he, heid⟩ : ∃ e ∈ s.stream.fresh, e.id = id := by
          rcases hwaiting with hfresh | ⟨worker, hother, entry, hentry, -⟩
          · exact hfresh
          · obtain rfl := Option.some.inj (hworker.symm.trans hother)
            cases hentry
        have hnext : 0 < (s.stream.next (count config)).length := by
          apply List.length_pos_iff.mpr
          intro hnil
          rw [takeCount_eq_nil hnil] at he
          cases he
        apply CanProcess.of_step (.read {})
        refine ih _ ?_ (ordered_step hordered _) ?_ rfl
        · have htotal := congrArg List.length hsplit
          rw [List.length_append] at htotal
          simp only [distance, step, hstream, hhand, hworker, List.length_nil]
          omega
        · rw [hsplit] at he
          rcases List.mem_append.mp he with hread | hlater
          · have hmem := List.mem_map_of_mem (f := Entry.id) hread
            rw [← hentries] at hmem
            obtain ⟨entry, hentry, hid⟩ := List.mem_map.mp hmem
            exact .inr ⟨_, hhand, entry, hentry, hid.trans heid⟩
          · exact .inl ⟨e, hstream ▸ hlater, heid⟩
      · by_cases hid : entry.redisId = id
        · exact ⟨[], consumerName, entry, entries, hworker, hid⟩
        · have hworker' := (process_hand {} hworker).1
          have hfresh := fresh_process {} s
          apply CanProcess.of_step (.process {})
          refine ih _ ?_ (ordered_step hordered _) ?_ rfl
          · simp only [distance, step, hfresh, hworker', hworker, List.length_cons]
            omega
          · rcases hwaiting with ⟨e, he, heid⟩ | ⟨worker, hother, old, hold, holdid⟩
            · exact .inl ⟨e, hfresh ▸ he, heid⟩
            · obtain rfl := Option.some.inj (hworker.symm.trans hother)
              rcases List.mem_cons.mp hold with rfl | hold
              · exact absurd holdid hid
              · exact .inr ⟨_, hworker', old, hold, holdid⟩

theorem canProcess_iff (hordered : s.stream.Ordered) (hid : id ≤ s.stream.lastId) :
    CanProcess config s id ↔ Waiting s id := by
  constructor
  · rintro ⟨inputs, consumerName, entry, entries, hworker, hentry⟩
    exact waiting_of_after hordered hid inputs (.inr ⟨_, hworker, entry, List.mem_cons_self, hentry⟩)
  · exact canProcess_of_waiting hordered

/-- Nothing is evicted before its acknowledgement, every entry that is handed
out arrives and is decoded, every entry is processed without a failure, and no
processor stops with entries in hand. -/
def Smooth (config : QueueConfig) (_ : List (Input × Unit)) (s : System) : Input → Prop
  | .enqueue batch evict => ∀ e ∈ s.stream.evicted (maxLen config) evict batch, e.id ∈ s.stream.acked
  | .read faults => (∃ consumerName, s.worker = some ⟨consumerName, []⟩) → s.stream.next (count config) = [] ∨
      faults.connection = true ∨ Arrives config faults s
  | .process faults => ∀ consumerName entry entries, s.worker = some ⟨consumerName, entry :: entries⟩ →
      Succeeds faults s.store entry.batch
  | .restart _ _ => ∀ worker, s.worker = some worker → worker.entries = []

/-- Whatever has been added is acknowledged or waits, and what is in hand is pending. -/
structure Tracked (s : System) : Prop where
  ordered : s.stream.Ordered
  hand : ∀ worker, s.worker = some worker → (worker.entries.map QueuedStreamEntry.redisId).Nodup ∧
    ∀ entry ∈ worker.entries, ∃ p ∈ s.stream.pending, p.1 = entry.redisId
  accounted : ∀ id, 0 < id → id ≤ s.stream.lastId → id ∈ s.stream.acked ∨ Waiting s id

theorem tracked_start (store : ProcessorStore) : Tracked (.start store) where
  ordered := ordered_empty
  hand := nofun
  accounted _ hpos hle := absurd hpos (Nat.not_lt_of_le hle)

theorem Tracked.enqueue (h : Tracked s) {batch : QueuedIngestBatch} {maxLen evict : Nat}
    (hg : ∀ e ∈ s.stream.evicted maxLen evict batch, e.id ∈ s.stream.acked) :
    Tracked { s with stream := s.stream.add maxLen evict batch } where
  ordered := h.ordered.add maxLen evict batch
  hand := h.hand
  accounted := by
    have hkept : ∀ e ∈ s.stream.extended batch, s.stream.lastDelivered < e.id → e.id ∈ s.stream.acked ∨
        Waiting { s with stream := s.stream.add maxLen evict batch } e.id := by
      intro e he hlt
      rcases mem_add maxLen evict he with hgone | hkept
      · exact .inl (hg e hgone)
      · exact .inr (.inl ⟨e, mem_fresh.mpr ⟨hkept, hlt⟩, rfl⟩)
    intro id hpos hle
    rcases Nat.lt_or_eq_of_le hle with hlt | rfl
    · rcases h.accounted id hpos (Nat.le_of_lt_succ hlt) with hacked | ⟨e, he, rfl⟩ | hhand
      · exact .inl hacked
      · obtain ⟨hentry, hdelivered⟩ := mem_fresh.mp he
        exact hkept e (List.mem_append_left _ hentry) hdelivered
      · exact .inr (.inr hhand)
    · exact hkept ⟨s.stream.lastId + 1, batch⟩ (List.mem_append_right _ List.mem_cons_self)
        (Nat.lt_succ_of_le h.ordered.delivered)

theorem Tracked.read (h : Tracked s) {faults : ReadFaults} (hg : Smooth config [] s (.read faults)) :
    Tracked (read config faults s) := by
  rcases read_cases config faults s with hsame | ⟨consumerName, hworker, hconnection, hstream, entries,
    hhand, hlost⟩
  · exact (congrArg Tracked hsame).mpr h
  have hentries : entries.map QueuedStreamEntry.redisId = (s.stream.next (count config)).map Entry.id := by
    rcases hlost with ⟨rfl, hlost⟩ | hentries
    · rcases hg ⟨consumerName, hworker⟩ with hnil | hfault | harrives
      · rw [hnil]
        rfl
      · exact absurd (hconnection.symm.trans hfault) Bool.false_ne_true
      · exact absurd harrives hlost
    · exact hentries
  refine ⟨hstream ▸ h.ordered.readNew (count config) consumerName, ?_, ?_⟩
  · intro worker hw
    obtain rfl := Option.some.inj (hhand.symm.trans hw)
    refine ⟨?_, fun entry hentry => ?_⟩
    · rw [hentries]
      exact h.ordered.next_nodup (count config)
    · have hmem := List.mem_map_of_mem (f := QueuedStreamEntry.redisId) hentry
      rw [hentries] at hmem
      obtain ⟨e, he, heid⟩ := List.mem_map.mp hmem
      rw [hstream]
      exact ⟨(e.id, consumerName), List.mem_append_right _ (List.mem_map_of_mem he), heid⟩
  · intro id hpos hle
    rw [hstream] at hle ⊢
    rcases h.accounted id hpos hle with hacked | ⟨e, he, rfl⟩ | ⟨worker, hw, entry, hentry, -⟩
    · exact .inl hacked
    · rw [h.ordered.fresh_readNew (count config) consumerName] at he
      rcases List.mem_append.mp he with hread | hlater
      · have hmem := List.mem_map_of_mem (f := Entry.id) hread
        rw [← hentries] at hmem
        obtain ⟨entry, hentry, hid⟩ := List.mem_map.mp hmem
        exact .inr (.inr ⟨_, hhand, entry, hentry, hid⟩)
      · exact .inr (.inl ⟨e, hstream ▸ hlater, rfl⟩)
    · obtain rfl := Option.some.inj (hworker.symm.trans hw)
      cases hentry

theorem Tracked.process (h : Tracked s) {faults : ProcessFaults}
    (hg : ∀ consumerName entry entries, s.worker = some ⟨consumerName, entry :: entries⟩ →
      Succeeds faults s.store entry.batch) : Tracked (process faults s) := by
  rcases process_cases faults s with hsame | ⟨consumerName, entry, entries, hworker⟩
  · exact (congrArg Tracked hsame).mpr h
  obtain ⟨hhand, -, hstream⟩ := process_hand faults hworker
  obtain ⟨hnodup, hpending⟩ := h.hand _ hworker
  rw [List.map_cons, List.nodup_cons] at hnodup
  have hack := (hstream (hg _ _ _ hworker)).trans (ack_pending (hpending entry List.mem_cons_self))
  refine ⟨hack ▸ ⟨h.ordered.entries, h.ordered.last, h.ordered.delivered⟩, ?_, ?_⟩
  · intro worker hw
    obtain rfl := Option.some.inj (hhand.symm.trans hw)
    refine ⟨hnodup.2, fun old hold => ?_⟩
    obtain ⟨p, hp, hid⟩ := hpending old (List.mem_cons_of_mem _ hold)
    rw [hack]
    refine ⟨p, List.mem_filter.mpr ⟨hp, decide_eq_true (fun heq => hnodup.1 ?_)⟩, hid⟩
    rw [← heq, hid]
    exact List.mem_map_of_mem hold
  · intro id hpos hle
    have hfresh := fresh_process faults s
    rw [hack] at hle ⊢
    by_cases hid : entry.redisId = id
    · exact .inl (List.mem_append_right _ (List.mem_singleton.mpr hid.symm))
    · rcases h.accounted id hpos hle with hacked | ⟨e, he, heid⟩ | ⟨worker, hw, old, hold, holdid⟩
      · exact .inl (List.mem_append_left _ hacked)
      · exact .inr (.inl ⟨e, hfresh ▸ he, heid⟩)
      · obtain rfl := Option.some.inj (hworker.symm.trans hw)
        rcases List.mem_cons.mp hold with rfl | hold
        · exact absurd holdid hid
        · exact .inr (.inr ⟨_, hhand, old, hold, holdid⟩)

theorem Tracked.restart (h : Tracked s) {worker : Option Worker} (hworker : ∀ w, worker = some w → w.entries = [])
    (hg : ∀ w, s.worker = some w → w.entries = []) : Tracked { s with worker } where
  ordered := h.ordered
  hand w hw := by
    rw [hworker w hw]
    exact ⟨.nil, nofun⟩
  accounted id hpos hle := by
    rcases h.accounted id hpos hle with hacked | hfresh | ⟨w, hw, entry, hentry, -⟩
    · exact .inl hacked
    · exact .inr (.inl hfresh)
    · rw [hg w hw] at hentry
      cases hentry

theorem Tracked.step (past : List (Input × Unit)) (s : System) (i : Input) (h : Tracked s)
    (hg : Smooth config past s i) : Tracked (step config s i).2 := by
  cases i with
  | enqueue batch evict => exact h.enqueue hg
  | read faults => exact h.read hg
  | process faults => exact h.process hg
  | restart consumerName refused =>
      refine h.restart ?_ hg
      intro w hw
      cases refused with
      | true => cases hw
      | false =>
          obtain rfl := Option.some.inj hw
          rfl

theorem Tracked.noneAbandoned (h : Tracked s) : NoneAbandoned config s := by
  rintro id ⟨hpos, hle, hacked⟩
  exact canProcess_of_waiting h.ordered ((h.accounted id hpos hle).resolve_left hacked)

/-- In every state of a run without evictions, losses on the way, failures and
stops in the middle of a read, every entry is acknowledged or can be processed. -/
theorem noneAbandoned_of_smooth (config : QueueConfig) (store : ProcessorStore) (inputs : List Input)
    (hg : Guarded (ProcessorLoop.step config) (Smooth config) [] (.start store) inputs) :
    NoneAbandoned config (after (ProcessorLoop.step config) (.start store) inputs) :=
  (invariant_history (fun _ s => Tracked s) (fun past s i => Tracked.step past s i) [] (.start store) inputs
    (tracked_start store) hg).noneAbandoned

theorem ordered_after (store : ProcessorStore) (inputs : List Input) :
    (after (ProcessorLoop.step config) (.start store) inputs).stream.Ordered :=
  invariant_history (fun _ (s : System) => s.stream.Ordered) (fun _ _ i h _ => ordered_step h i) [] (.start store)
    inputs ordered_empty (guarded_true _ _ _ _)

def oneMetric (batchId : String) : QueuedIngestBatch where
  projectId := "p"
  runId := "r"
  batchId := batchId
  payloadHash := "h"
  seq := 0
  queuedAtUnixMs := 0
  metrics := [⟨"loss", 1, 0, none⟩]
  params := []
  tags := []
  events := []
  warnings := []

def newStore : ProcessorStore := ⟨(RunTables.createRun none "r" "p" none none none .empty).2, .empty, []⟩

theorem noneAbandoned_one_entry : NoneAbandoned {} (after (ProcessorLoop.step {}) (.start newStore)
    [.enqueue (oneMetric "b") 0, .restart "p" false, .read {}, .process {}]) := by
  refine noneAbandoned_of_smooth {} newStore
    [.enqueue (oneMetric "b") 0, .restart "p" false, .read {}, .process {}] ?_
  refine ⟨nofun, nofun, fun _ => .inr (.inr ⟨rfl, fun _ _ => rfl⟩), ?_, trivial⟩
  intro _ entry _ _
  exact ⟨fun _ => rfl, fun _ => granted_default entry.batch, rfl⟩

theorem not_noneAbandoned (id : Nat) {store : ProcessorStore} {inputs : List Input} (hid : Unacked (after
    (ProcessorLoop.step config) (.start store) inputs) id)
    (hfresh : ∀ e ∈ (after (ProcessorLoop.step config) (.start store) inputs).stream.fresh, e.id ≠ id)
    (hhand : ∀ worker ∈ (after (ProcessorLoop.step config) (.start store) inputs).worker,
      ∀ entry ∈ worker.entries, entry.redisId ≠ id) :
    ¬ NoneAbandoned config (after (ProcessorLoop.step config) (.start store) inputs) := by
  intro h
  rcases (canProcess_iff (ordered_after store inputs) hid.2.1).mp (h id hid) with ⟨e, he, heid⟩ |
    ⟨w, hw, entry, he, heid⟩
  · exact hfresh e he heid
  · exact hhand w hw entry he heid

theorem first_entry_abandoned :
    ¬ NoneAbandoned {} (after (ProcessorLoop.step {}) (.start newStore)
        [.enqueue (oneMetric "b") 0, .restart "p" false, .read {},
          .process { metricsCount := some "database is locked" }]) ∧
      ¬ NoneAbandoned {} (after (ProcessorLoop.step {}) (.start newStore)
        [.enqueue (oneMetric "b") 0, .enqueue (oneMetric "c") 0, .restart "p" false,
          .read { entry := fun i => if i = 1 then some .batch else none }]) ∧
      ¬ NoneAbandoned {} (after (ProcessorLoop.step {}) (.start newStore)
        [.enqueue (oneMetric "b") 0, .restart "p" false, .read {}, .restart "q" false]) := by
  refine ⟨not_noneAbandoned 1 ⟨by decide, by decide +kernel, by decide +kernel⟩ (by decide +kernel) ?_,
    not_noneAbandoned 1 ⟨by decide, by decide +kernel, by decide +kernel⟩ (by decide +kernel) ?_,
    not_noneAbandoned 1 ⟨by decide, by decide +kernel, by decide +kernel⟩ (by decide +kernel) ?_⟩
  · intro w hw
    obtain rfl := Option.some.inj hw
    decide +kernel
  · intro w hw
    obtain rfl := Option.some.inj hw
    decide +kernel
  · intro w hw
    obtain rfl := Option.some.inj hw
    decide +kernel

end MLRunX.ProcessorLoop
