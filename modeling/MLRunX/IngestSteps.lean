import MLRunX.StoredRows

namespace MLRunX.IngestSteps

open Cardinality Commands Http Idempotency Ingest IngestRequest RunTables Sqlite Statements StoredRows

/-- A request whose tags and metrics are looked at. Its run is there, its caller may write to it, and no
batch of its run and id was recorded before. -/
structure LetIn (env : Env) (sent : Sent) (fault : Option String) (s : ServerState) (run : RunRow)
    (batch : ValidatedBatch) : Prop where
  granted : fault = none
  found : s.db.findRun sent.request.runId = some run
  authorized : authorizeIngest env sent run = .ok ()
  valid : validateRequest env.limits.maxTagValueLength sent.request.toPayload = .ok batch
  unrecorded : s.idempotency.batches sent.key = none

def names (p : Pending) : List String := p.batch.metrics.map MetricRow.name

def validate (env : Env) (p : Pending) : Command CardinalityTracker Panic ValidationResult :=
  validateBatch env.limits p.projectId p.sent.request.runId p.batch.tags (names p)

/-- The contents of a batch are queued, or written as far as the statements succeed. -/
inductive Delivered (env : Env) (p : Pending) (contents : Contents) (s s' : ServerState) : Prop
  | lost (hqueued : env.queued = true) (hdb : s'.db = s.db) (hstream : s'.stream = s.stream)
  | queued (hqueued : env.queued = true) (queuedAt : Int) (hdb : s'.db = s.db)
      (hstream : s'.stream = s.stream ++ [buildQueuedIngestBatch p contents queuedAt])
  | written (hqueued : env.queued = false) (faults : PersistFaults) (hstream : s'.stream = s.stream)
      (hdb : s'.db = (persistIngestBatchToSqlite faults p.sent.request.runId contents s.db).2)

/-- What becomes of a batch that is let in. -/
inductive Settled (env : Env) (p : Pending) (s s' : ServerState) : Prop
  | refused (hdb : s'.db = s.db) (hstream : s'.stream = s.stream)
  | delivered (validation : ValidationResult) (run : RunRow)
      (hvalid : (validate env p s.cardinality).1 = .ok validation)
      (hrun : s.db.findRun p.sent.request.runId = some run)
      (hstatus : Text.eqIgnoreAsciiCase run.status "running" = true)
      (hdelivered : Delivered env p (prepareContents env p validation) s s')

variable {env : Env} {sent : Sent} {fault : Option String} {faults : Faults} {p : Pending} {s s' : ServerState}

theorem readRun_state (fault : Option String) (runId : String) (s : ServerState) : (readRun fault runId s).2 = s :=
  congrArg (fun db => { s with db }) ((leaves_getRun fault runId).shows s.db)

theorem readRun_ok {runId : String} {run : RunRow} (h : readRun fault runId s = (.ok run, s')) :
    fault = none ∧ s.db.findRun runId = some run ∧ s' = s := by
  have hstate : s' = s := (congrArg Prod.snd h).symm.trans (readRun_state fault runId s)
  obtain ⟨db, hdb, -⟩ := zoom_eq_ok (mapError_eq_ok h)
  refine ⟨?_, (getRun_ok hdb).1, hstate⟩
  obtain ⟨found, _, hquery, -⟩ := bind_eq_ok hdb
  exact (statement_eq_ok.mp (congrArg Prod.fst hquery)).1

theorem receive_state (env : Env) (sent : Sent) (fault : Option String) (s : ServerState) :
    ∃ idempotency, (receive env sent fault s).2 = { s with idempotency } := by
  have hreceive : Keeps (fun s' : ServerState => ∃ idempotency, s' = { s with idempotency })
      (receive env sent fault) := by
    apply keeps_bind
    · apply triple_of_after
      rintro _ ⟨idempotency, rfl⟩
      exact ⟨idempotency, readRun_state _ _ _⟩
    intro run
    apply keeps_bind (triple_ofExcept (fun _ _ _ h => h) (fun _ h => h))
    intro _
    apply keeps_bind (triple_ofExcept (fun _ _ _ h => h) (fun _ h => h))
    intro batch
    apply keeps_bind
    · apply triple_of_after
      rintro _ ⟨idempotency, rfl⟩
      exact ⟨_, rfl⟩
    · intro result
      exact triple_ofExcept (fun _ _ _ h => h) (fun _ h => h)
  exact hreceive.after (fun _ _ h => h) (fun _ h => h) ⟨s.idempotency, rfl⟩

theorem letIn_of_receive (h : receive env sent fault s = (.ok (.process p), s')) :
    p.sent = sent ∧ ∃ run, LetIn env sent fault s run p.batch ∧ p.projectId = run.projectId := by
  have hcases := receive_cases env sent fault s
  rw [h] at hcases
  obtain ⟨hsent, hbatch, -, hnone, -⟩ := hcases
  obtain ⟨run, s₁, hread, h⟩ := bind_eq_ok h
  obtain ⟨u, s₂, hauthorized, h⟩ := bind_eq_ok h
  obtain ⟨batch, s₃, -, h⟩ := bind_eq_ok h
  obtain ⟨result, s₄, -, h⟩ := bind_eq_ok h
  obtain ⟨hfault, hrun, -⟩ := readRun_ok hread
  have hadmitted : admission (prepare env sent run batch) result = .ok (.process p) := congrArg Prod.fst h
  refine ⟨hsent, run, ⟨hfault, hrun, congrArg Prod.fst hauthorized, hbatch, hnone⟩, ?_⟩
  cases result with
  | new =>
      obtain rfl := Admission.process.inj (Except.ok.inj hadmitted)
      rfl
  | outOfOrder expectedSeq actualSeq =>
      obtain rfl := Admission.process.inj (Except.ok.inj hadmitted)
      rfl
  | duplicate => cases hadmitted
  | conflict => cases hadmitted

theorem httpIngestBatch_cases (env : Env) (sent : Sent) (fault : Option String) (faults : Faults)
    (s : ServerState) :
    (∃ idempotency, (httpIngestBatch env sent fault faults s).2 = { s with idempotency }) ∨
      ∃ run p idempotency, LetIn env sent fault s run p.batch ∧ p.sent = sent ∧ p.projectId = run.projectId ∧
        httpIngestBatch env sent fault faults s = settle env faults p { s with idempotency } := by
  obtain ⟨idempotency, hstate⟩ := receive_state env sent fault s
  rcases hreceive : receive env sent fault s with ⟨e | admitted, s₁⟩
  · refine .inl ⟨idempotency, ?_⟩
    have hend : httpIngestBatch env sent fault faults s = (.error (.http e), s₁) := by
      apply bind_error
      rw [mapError, hreceive]
      rfl
    rw [hend, ← hstate, hreceive]
  · rw [hreceive] at hstate
    cases admitted with
    | duplicate =>
        have hend : httpIngestBatch env sent fault faults s = (.ok duplicateAnswer, s₁) :=
          bind_ok (mapError_ok hreceive)
        exact .inl ⟨idempotency, (congrArg Prod.snd hend).trans hstate⟩
    | process p =>
        obtain ⟨hsent, run, hletIn, hproject⟩ := letIn_of_receive hreceive
        refine .inr ⟨run, p, idempotency, hletIn, hsent, hproject, ?_⟩
        rw [← hstate]
        exact bind_ok (mapError_ok hreceive)

/-! What the rest of the handler does. -/

theorem deliver_delivered (env : Env) (faults : Faults) (p : Pending) (contents : Contents) (s : ServerState) :
    Delivered env p contents s (deliver env faults p contents s).2 := by
  rw [deliver]
  split
  · rename_i hqueued
    cases hfault : faults.enqueue with
    | none => exact .queued hqueued faults.queuedAt rfl rfl
    | some refused =>
        cases hdelivered : refused.delivered with
        | true =>
            refine .queued hqueued faults.queuedAt rfl ?_
            change (enqueue (some refused) _ s.stream).2 = _
            rw [enqueue]
            exact if_pos hdelivered
        | false =>
            refine .lost hqueued rfl ?_
            change (enqueue (some refused) _ s.stream).2 = _
            rw [enqueue]
            exact if_neg (by rw [hdelivered]; exact Bool.false_ne_true)
  · rename_i hqueued
    exact .written (Bool.eq_false_iff.2 hqueued) faults.persist rfl rfl

theorem Delivered.of_tracker {contents : Contents} {tracker : CardinalityTracker}
    (h : Delivered env p contents { s with cardinality := tracker } s') : Delivered env p contents s s' := by
  cases h with
  | lost hqueued hdb hstream => exact .lost hqueued hdb hstream
  | queued hqueued queuedAt hdb hstream => exact .queued hqueued queuedAt hdb hstream
  | written hqueued faults hstream hdb => exact .written hqueued faults hstream hdb

theorem leaves_deliver (env : Env) (faults : Faults) (p : Pending) (contents : Contents) :
    Leaves ServerState.cardinality (deliver env faults p contents) := by
  rw [deliver]
  split
  · exact leaves_bind (leaves_mapError ⟨fun _ => rfl⟩) (fun _ => leaves_pure _)
  · exact ⟨fun _ => rfl⟩

def rest (env : Env) (faults : Faults) (p : Pending) (validation : ValidationResult) :
    Command ServerState Failure Ingested := do
  let run ← mapError Failure.http (readRun faults.getRun p.sent.request.runId)
  mapError Failure.http (ofExcept (requireRunning run p.sent.request.runId))
  let persisted ← mapError Failure.http (deliver env faults p (prepareContents env p validation))
  pure (ingested (prepareContents env p validation) persisted)

theorem running_of_required {run : RunRow} {runId : String} {u : Unit} (h : requireRunning run runId = .ok u) :
    Text.eqIgnoreAsciiCase run.status "running" = true := by
  rw [requireRunning] at h
  by_contra hno
  rw [if_neg hno] at h
  cases h

theorem rest_cases (env : Env) (faults : Faults) (p : Pending) (validation : ValidationResult) (s : ServerState) :
    (rest env faults p validation s).2 = s ∨ ∃ run, s.db.findRun p.sent.request.runId = some run ∧
      Text.eqIgnoreAsciiCase run.status "running" = true ∧ (rest env faults p validation s).2 =
        (deliver env faults p (prepareContents env p validation) s).2 := by
  have hread := readRun_state faults.getRun p.sent.request.runId s
  rcases hrun : readRun faults.getRun p.sent.request.runId s with ⟨e | run, s₁⟩
  · rw [hrun] at hread
    obtain rfl : s₁ = s := hread
    have hend : rest env faults p validation s₁ = (.error (.http e), s₁) := by
      apply bind_error
      rw [mapError, hrun]
      rfl
    exact .inl (congrArg Prod.snd hend)
  · obtain ⟨-, hfound, rfl⟩ := readRun_ok hrun
    rcases hrunning : requireRunning run p.sent.request.runId with e | u
    · have hend : rest env faults p validation s₁ = (.error (.http e), s₁) := by
        rw [rest, bind_ok (mapError_ok hrun), hrunning]
        rfl
      exact .inl (congrArg Prod.snd hend)
    · refine .inr ⟨run, hfound, running_of_required hrunning, ?_⟩
      rw [rest, bind_ok (mapError_ok hrun), bind_ok (mapError_ok (ofExcept_ok hrunning s₁))]
      exact bind_leaves id (fun persisted => leaves_pure _) s₁

theorem settle_eq (env : Env) (faults : Faults) (p : Pending) : settle env faults p =
    mapError (fun _ => Failure.panic) (onTracker (validate env p)) >>= rest env faults p := rfl

theorem settle_panicked {panic : Panic} {tracker : CardinalityTracker}
    (h : validate env p s.cardinality = (.error panic, tracker)) :
    settle env faults p s = (.error .panic, { s with cardinality := tracker }) := by
  rw [settle_eq]
  apply bind_error
  rw [mapError, onTracker, zoom, h]
  rfl

theorem settle_settled (env : Env) (faults : Faults) (p : Pending) (s : ServerState) :
    (settle env faults p s).2.cardinality = (validate env p s.cardinality).2 ∧
      Settled env p s (settle env faults p s).2 := by
  rcases hvalidate : validate env p s.cardinality with ⟨panic | validation, tracker⟩
  · rw [settle_panicked hvalidate]
    exact ⟨rfl, .refused rfl rfl⟩
  · have hvalid : onTracker (validate env p) s = (.ok validation, { s with cardinality := tracker }) := by
      rw [onTracker, zoom, hvalidate]
    rw [settle_eq, bind_ok (mapError_ok hvalid)]
    rcases rest_cases env faults p validation { s with cardinality :=
      tracker } with hsame | ⟨run, hrun, hstatus, hdeliver⟩
    · rw [hsame]
      exact ⟨rfl, .refused rfl rfl⟩
    · rw [hdeliver]
      refine ⟨(leaves_deliver env faults p _).shows _,
        .delivered validation run (by rw [hvalidate]) hrun hstatus ?_⟩
      exact (deliver_delivered env faults p (prepareContents env p validation) _).of_tracker

end MLRunX.IngestSteps
