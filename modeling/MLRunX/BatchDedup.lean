import Mathlib.Algebra.Order.Group.Nat
import MLRunX.GrpcIngest

namespace MLRunX.BatchDedup

open Commands GrpcIngest PayloadHash Runs
open Ingest (saturate)

def pointsIn (metrics : RunMetrics) : ℕ := (metrics.map fun entry => entry.2.length).sum

def storedPoints (runId : String) (s : InMemoryStore) : ℕ := pointsIn ((s.metrics runId).getD [])

def countedPoints (runId : String) (s : InMemoryStore) : ℕ := ((s.runs runId).map RunState.metricsCount).getD 0

/-- A batch whose points are all taken in. -/
def Accepted (runId batchId : String) (call : Op × Reply) : Prop :=
  ∃ req : LogMetricsRequest, call.1 = .logMetrics req ∧ req.runId = some runId ∧ req.batchId = batchId ∧
    call.2 = .logMetrics (.ok ⟨saturate (2 ^ 63 - 1) (req.metrics.getD []).length, 0⟩)

variable (toSeconds : Timestamp → F64)

/-- The points of a batch are called duplicates only after a batch of the same ids was accepted. -/
def Deduplicates (past : List (Op × Reply)) (s : InMemoryStore) (op : Op) : Prop :=
  ∀ (req : LogMetricsRequest) (runId : String) (points : List PointMessage), op = .logMetrics req →
    req.runId = some runId → req.metrics = some points → points ≠ [] →
      (logMetrics toSeconds req s).1 = .ok ⟨0, saturate (2 ^ 63 - 1) points.length⟩ →
        ∃ call ∈ past, Accepted runId req.batchId call

/-- A batch that was not seen is for a run that runs, and no other ids gave its key before. -/
def Orderly (past : List (Op × Reply)) (s : InMemoryStore) (op : Op) : Prop :=
  ∀ (req : LogMetricsRequest) (runId : String), op = .logMetrics req → req.runId = some runId →
    (batchKey runId req.batchId ∉ s.seenBatches → statusOf runId s = some .running) ∧
      ∀ call ∈ past, ∀ (req' : LogMetricsRequest) (runId' : String), call.1 = .logMetrics req' →
        req'.runId = some runId' → batchKey runId' req'.batchId = batchKey runId req.batchId →
          runId' = runId ∧ req'.batchId = req.batchId

variable {toSeconds} {runId id key : String} {s : InMemoryStore} {run : RunState} {req : LogMetricsRequest}

/-! Which batches are seen. -/

theorem leaves_withRun_seen {α : Type} (x : Command RunState Status α) :
    Leaves InMemoryStore.seenBatches (withRun runId x) := by
  constructor
  intro s
  cases hrun : s.runs runId with
  | none => rw [withRun_none x hrun]
  | some run => rw [withRun_some x hrun]

theorem initRun_seen (generatedId : String) (init : InitRunRequest) (s : InMemoryStore) :
    (initRun generatedId init s).2.seenBatches = s.seenBatches := by
  rw [initRun]
  split
  · rfl
  · dsimp only
    split <;> rfl

theorem leaves_logParams_seen (shadow : ShadowWrite) (params : LogParamsRequest) :
    Leaves InMemoryStore.seenBatches (logParams shadow params) := by
  apply leaves_bind (leaves_ofExcept _)
  intro runId
  exact leaves_bind (leaves_withRun_seen _) (fun _ => leaves_pure _)

theorem leaves_logTags_seen (tags : LogTagsRequest) : Leaves InMemoryStore.seenBatches (logTags tags) := by
  apply leaves_bind (leaves_ofExcept _)
  intro runId
  exact leaves_withRun_seen _

theorem leaves_finishRun_seen (finish : FinishRunRequest) :
    Leaves InMemoryStore.seenBatches (finishRun finish) := by
  apply leaves_bind (leaves_ofExcept _)
  intro runId
  exact leaves_bind (leaves_withRun_seen _) (fun _ => leaves_pure _)

theorem logMetrics_noRun (hreq : req.runId = none) :
    logMetrics toSeconds req s = (.error ⟨.invalidArgument, "run_id is required"⟩, s) := by
  rw [logMetrics, hreq]
  rfl

theorem logMetrics_unknown (hreq : req.runId = some runId) (hunseen : batchKey runId req.batchId ∉ s.seenBatches)
    (hrun : s.runs runId = none) :
    logMetrics toSeconds req s = (.error ⟨.notFound, s!"Run not found: {runId}"⟩,
      { s with seenBatches := batchKey runId req.batchId :: s.seenBatches }) := by
  have hwith := @withRun_none runId { s with seenBatches := batchKey runId req.batchId :: s.seenBatches } Unit
    (countPoints runId (req.metrics.getD []).length) hrun
  rw [logMetrics, hreq, bind_ofExcept_ok requireRunId_some, bind_ok (see_unseen hunseen),
    if_neg Bool.false_ne_true]
  exact bind_error hwith

def acceptBatch (toSeconds : Timestamp → F64) (runId : String) (req : LogMetricsRequest) (run : RunState)
    (s : InMemoryStore) : InMemoryStore where
  runs := Function.update s.runs runId
    (some { run with metricsCount := run.metricsCount + (req.metrics.getD []).length })
  seenBatches := batchKey runId req.batchId :: s.seenBatches
  metrics := match req.metrics with
    | none => s.metrics
    | some points =>
        Function.update s.metrics runId (some (addPoints toSeconds points ((s.metrics runId).getD [])))

theorem logMetrics_running (hreq : req.runId = some runId) (hunseen : batchKey runId req.batchId ∉ s.seenBatches)
    (hrun : s.runs runId = some run) (hstatus : run.status = .running) :
    logMetrics toSeconds req s = (.ok ⟨saturate (2 ^ 63 - 1) (req.metrics.getD []).length, 0⟩,
      acceptBatch toSeconds runId req run s) := by
  have hcount : countPoints runId (req.metrics.getD []).length run =
      (.ok (), { run with metricsCount := run.metricsCount + (req.metrics.getD []).length }) :=
    if_neg (not_not_intro hstatus)
  have hwith := @withRun_some runId { s with seenBatches := batchKey runId req.batchId :: s.seenBatches } run Unit
    (countPoints runId (req.metrics.getD []).length) hrun
  rw [hcount] at hwith
  rw [logMetrics, hreq, bind_ofExcept_ok requireRunId_some, bind_ok (see_unseen hunseen),
    if_neg Bool.false_ne_true,
    bind_ok hwith]
  cases hmetrics : req.metrics with
  | none =>
      simp only [acceptBatch, hmetrics]
      rfl
  | some points =>
      simp only [acceptBatch, hmetrics]
      rfl

theorem step_seen {op : Op} (h : ∀ req, op ≠ .logMetrics req) :
    (step toSeconds s op).2.seenBatches = s.seenBatches := by
  cases op with
  | initRun generatedId init => exact initRun_seen generatedId init s
  | logMetrics req => exact absurd rfl (h req)
  | logParams shadow params => exact (leaves_logParams_seen shadow params).shows s
  | logTags tags => exact (leaves_logTags_seen tags).shows s
  | finishRun finish => exact (leaves_finishRun_seen finish).shows s

/-- Every batch that is seen was accepted. -/
def Seen (past : List (Op × Reply)) (s : InMemoryStore) : Prop :=
  ∀ key ∈ s.seenBatches, ∃ call ∈ past, ∃ runId batchId, batchKey runId batchId = key ∧
    Accepted runId batchId call

variable {past : List (Op × Reply)} {op : Op}

theorem Seen.extend (h : Seen past s) (call : Op × Reply) {s' : InMemoryStore}
    (hseen : ∀ key ∈ s'.seenBatches, key ∈ s.seenBatches ∨
      ∃ runId batchId, batchKey runId batchId = key ∧ Accepted runId batchId call) :
    Seen (past ++ [call]) s' := by
  intro key hkey
  rcases hseen key hkey with hold | hnew
  · obtain ⟨earlier, hmem, hids⟩ := h key hold
    exact ⟨earlier, List.mem_append_left _ hmem, hids⟩
  · exact ⟨call, List.mem_append_right _ List.mem_cons_self, hnew⟩

theorem running_of_statusOf (h : statusOf runId s = some .running) :
    ∃ run, s.runs runId = some run ∧ run.status = .running :=
  Option.map_eq_some_iff.mp h

theorem seen_step (h : Seen past s) (hguard : Orderly past s op) :
    Seen (past ++ [(op, (step toSeconds s op).1)]) (step toSeconds s op).2 := by
  apply h.extend
  intro key hkey
  by_cases hop : ∃ req, op = .logMetrics req
  · obtain ⟨req, rfl⟩ := hop
    change key ∈ (logMetrics toSeconds req s).2.seenBatches at hkey
    cases hreq : req.runId with
    | none =>
        rw [logMetrics_noRun hreq] at hkey
        exact .inl hkey
    | some runId =>
        by_cases hseen : batchKey runId req.batchId ∈ s.seenBatches
        · rw [logMetrics_seen hreq hseen] at hkey
          exact .inl hkey
        · obtain ⟨run, hrun, hstatus⟩ := running_of_statusOf ((hguard req runId rfl hreq).1 hseen)
          have heq : logMetrics toSeconds req s = _ := logMetrics_running hreq hseen hrun hstatus
          rw [heq] at hkey
          rcases List.mem_cons.1 hkey with rfl | hold
          · refine .inr ⟨runId, req.batchId, rfl, req, rfl, hreq, rfl, ?_⟩
            exact congrArg (fun answer => Reply.logMetrics (Prod.fst answer)) heq
          · exact .inl hold
  · rw [step_seen (fun req hreq => hop ⟨req, hreq⟩)] at hkey
    exact .inl hkey

theorem deduplicates_of_seen (h : Seen past s) (hguard : Orderly past s op) :
    Deduplicates toSeconds past s op := by
  intro req runId points hop hreq hmetrics hpoints hreply
  obtain ⟨hruns, hids⟩ := hguard req runId hop hreq
  by_cases hseen : batchKey runId req.batchId ∈ s.seenBatches
  · obtain ⟨call, hmem, runId', batchId', hkey, haccepted⟩ := h _ hseen
    obtain ⟨req', hcall, hreq', rfl, hanswer⟩ := haccepted
    obtain ⟨rfl, hbatch⟩ := hids call hmem req' runId' hcall hreq' hkey
    exact ⟨call, hmem, req', hcall, hreq', hbatch, hanswer⟩
  · obtain ⟨run, hrun, hstatus⟩ := running_of_statusOf (hruns hseen)
    rw [logMetrics_running hreq hseen hrun hstatus, hmetrics, Option.getD_some] at hreply
    have hzero := congrArg LogMetricsResponse.acceptedCount (Except.ok.inj hreply)
    exact absurd (List.length_eq_zero_iff.mp ((Ingest.saturate_eq_zero (by decide)).mp hzero)) hpoints

/-! The points that are counted for a run, and those that are stored. -/

def Counted (s : InMemoryStore) : Prop := ∀ runId, countedPoints runId s = storedPoints runId s

theorem pointsIn_addPoint (point : MetricPoint) (metrics : RunMetrics) :
    pointsIn (addPoint point metrics) = pointsIn metrics + 1 := by
  induction metrics with
  | nil => rfl
  | cons entry metrics ih =>
      rw [addPoint]
      split
      · simp only [pointsIn, List.map_cons, List.sum_cons, List.length_append, List.length_singleton]
        omega
      · simp only [pointsIn, List.map_cons, List.sum_cons] at ih ⊢
        omega

theorem pointsIn_addPoints (points : List PointMessage) (metrics : RunMetrics) :
    pointsIn (addPoints toSeconds points metrics) = pointsIn metrics + points.length := by
  induction points generalizing metrics with
  | nil => rfl
  | cons point points ih =>
      change pointsIn (addPoints toSeconds points (addPoint (point.toPoint toSeconds) metrics)) = _
      rw [ih, pointsIn_addPoint, List.length_cons]
      omega

theorem counted_acceptBatch (h : Counted s) (hrun : s.runs runId = some run) :
    Counted (acceptBatch toSeconds runId req run s) := by
  intro id
  have hid := h id
  by_cases heq : id = runId
  · subst heq
    simp only [countedPoints, storedPoints, hrun, Option.map_some, Option.getD_some] at hid
    cases hmetrics : req.metrics with
    | none =>
        simp only [countedPoints, storedPoints, acceptBatch, hmetrics, Function.update_self, Option.map_some,
          Option.getD_some, Option.getD_none, List.length_nil]
        exact hid
    | some points =>
        simp only [countedPoints, storedPoints, acceptBatch, hmetrics, Function.update_self, Option.map_some,
          Option.getD_some, pointsIn_addPoints]
        rw [hid]
  · cases hmetrics : req.metrics with
    | none => simpa only [countedPoints, storedPoints, acceptBatch, hmetrics, Function.update_of_ne heq] using hid
    | some points =>
        simpa only [countedPoints, storedPoints, acceptBatch, hmetrics, Function.update_of_ne heq] using hid

theorem counted_initRun (h : Counted s) (generatedId : String) (init : InitRunRequest) :
    Counted (initRun generatedId init s).2 := by
  rw [initRun]
  split
  · exact h
  · dsimp only
    split
    · exact h
    · rename_i hnew
      intro id
      have hid := h id
      by_cases heq : id = init.runId.getD generatedId
      · subst heq
        simp only [countedPoints, hnew, Option.map_none, Option.getD_none] at hid
        simpa only [countedPoints, storedPoints, Function.update_self, Option.map_some, Option.getD_some] using hid
      · simpa only [countedPoints, storedPoints, Function.update_of_ne heq] using hid

theorem keeps_withRun {α : Type} {x : Command RunState Status α} (hx : Leaves RunState.metricsCount x)
    (runId : String) : Keeps Counted (withRun runId x) := by
  apply triple_of_after
  intro s h id
  have hview : Leaves (fun s : InMemoryStore => (s.runs id).map RunState.metricsCount) (withRun runId x) :=
    leaves_withRun hx id
  have hcounts := hview.shows s
  have hpoints : (withRun runId x s).2.metrics = s.metrics := by
    cases hrun : s.runs runId with
    | none => rw [withRun_none x hrun]
    | some run => rw [withRun_some x hrun]
  rw [countedPoints, hcounts, storedPoints, hpoints]
  exact h id

theorem counted_logMetrics (h : Counted s) (req : LogMetricsRequest) : Counted (logMetrics toSeconds req s).2 := by
  cases hreq : req.runId with
  | none =>
      rw [logMetrics_noRun hreq]
      exact h
  | some runId =>
      by_cases hseen : batchKey runId req.batchId ∈ s.seenBatches
      · rw [logMetrics_seen hreq hseen]
        exact h
      · cases hrun : s.runs runId with
        | none =>
            rw [logMetrics_unknown hreq hseen hrun]
            exact h
        | some run =>
            by_cases hstatus : run.status = .running
            · rw [logMetrics_running hreq hseen hrun hstatus]
              exact counted_acceptBatch h hrun
            · rw [logMetrics_stopped hreq hseen hrun hstatus]
              exact h

theorem keeps_runId {α : Type} (runId : Option String) {f : String → Call α} (hf : ∀ id, Keeps Counted (f id)) :
    Keeps Counted (ofExcept (requireRunId runId) >>= f) :=
  keeps_bind (triple_ofExcept (fun _ _ _ h => h) (fun _ h => h)) hf

theorem counted_step (h : Counted s) (op : Op) : Counted (step toSeconds s op).2 := by
  cases op with
  | initRun generatedId init => exact counted_initRun h generatedId init
  | logMetrics req => exact counted_logMetrics h req
  | logParams shadow params =>
      have hkeeps : Keeps Counted (logParams shadow params) := by
        apply keeps_runId
        intro runId
        apply keeps_bind (keeps_withRun ⟨fun _ => rfl⟩ runId)
        intro _
        exact triple_pure fun _ h => h
      exact hkeeps.after (fun _ _ h => h) (fun _ h => h) h
  | logTags tags =>
      have hkeeps : Keeps Counted (logTags tags) := keeps_runId _ (keeps_withRun ⟨fun _ => rfl⟩)
      exact hkeeps.after (fun _ _ h => h) (fun _ h => h) h
  | finishRun finish =>
      have hkeeps : Keeps Counted (finishRun finish) := by
        apply keeps_runId
        intro runId
        apply keeps_bind (keeps_withRun ⟨fun _ => rfl⟩ runId)
        intro _
        exact triple_pure fun _ h => h
      exact hkeeps.after (fun _ _ h => h) (fun _ h => h) h

theorem counted_after (toSeconds : Timestamp → F64) (ops : List Op) :
    Counted (after (step toSeconds) .empty ops) := by
  have h := invariant_history (m := step toSeconds) (fun _ => Counted) (fun _ _ op h _ => counted_step h op) []
    .empty ops (fun _ => rfl) (guarded_true _ _ _ _)
  exact h

/-- In every run the points that are counted are those that are stored, and in a run whose calls are
orderly what is called a duplicate is one. -/
theorem batches_deduplicated (toSeconds : Timestamp → F64) (ops : List Op)
    (hguard : Guarded (step toSeconds) Orderly [] .empty ops) :
    Guarded (step toSeconds) (Deduplicates toSeconds) [] .empty ops ∧
      ∀ runId run, (after (step toSeconds) .empty ops).runs runId = some run →
        run.metricsCount = storedPoints runId (after (step toSeconds) .empty ops) := by
  constructor
  · apply guarded_of_invariant Seen (fun _ _ _ => seen_step) (fun _ _ _ => deduplicates_of_seen) [] _ _ ?_ hguard
    intro key hkey
    cases hkey
  · intro runId run hrun
    have h := counted_after toSeconds ops runId
    rwa [countedPoints, hrun] at h

def onePoint (runId batchId : String) : LogMetricsRequest where
  runId := some runId
  batchId := batchId
  metrics := some [⟨"loss", 0, ⟨0⟩, none⟩]

def newRun (runId : String) : Op :=
  .initRun "" { projectId := some "p", runId := some runId, name := none, tags := [] }

def noTime : Timestamp → F64 := fun _ => ⟨0⟩

/-- A batch for a run that is not there yet is refused, and taken for a duplicate once the run is
there; and so is a batch of other ids that give the key of an accepted one. -/
theorem refused_deduplicated :
    ¬ Guarded (step noTime) (Deduplicates noTime) [] .empty
        [.logMetrics (onePoint "r" "1"), newRun "r", .logMetrics (onePoint "r" "1")] ∧
      ¬ Guarded (step noTime) (Deduplicates noTime) [] .empty
        [newRun "a:b", newRun "a", .logMetrics (onePoint "a:b" "c"), .logMetrics (onePoint "a" "b:c")] := by
  constructor
  · rintro ⟨-, -, h, -⟩
    obtain ⟨call, hmem, req, hcall, -, -, hanswer⟩ :=
      h (onePoint "r" "1") "r" _ rfl rfl rfl (List.cons_ne_nil _ _) rfl
    rcases List.mem_cons.1 hmem with rfl | hmem
    · change Reply.logMetrics (.error _) = Reply.logMetrics (.ok _) at hanswer
      cases hanswer
    · obtain rfl := List.mem_singleton.1 hmem
      cases hcall
  · rintro ⟨-, -, -, h, -⟩
    obtain ⟨call, hmem, req, hcall, hreq, -, -⟩ :=
      h (onePoint "a" "b:c") "a" _ rfl rfl rfl (List.cons_ne_nil _ _) rfl
    rcases List.mem_cons.1 hmem with rfl | hmem
    · cases hcall
    · rcases List.mem_cons.1 hmem with rfl | hmem
      · cases hcall
      · obtain rfl := List.mem_singleton.1 hmem
        obtain rfl : onePoint "a:b" "c" = req := Op.logMetrics.inj hcall
        exact absurd hreq (by decide)

theorem orderly_newRun (past : List (Op × Reply)) (s : InMemoryStore) (runId : String) :
    Orderly past s (newRun runId) := by
  intro req runId' hop
  cases hop

theorem retry_deduplicated :
    Guarded (step noTime) (Deduplicates noTime) [] .empty
        [newRun "r", .logMetrics (onePoint "r" "1"), .logMetrics (onePoint "r" "1")] ∧
      ∀ runId run, (after (step noTime) .empty
          [newRun "r", .logMetrics (onePoint "r" "1"), .logMetrics (onePoint "r" "1")]).runs runId = some run →
        run.metricsCount = storedPoints runId (after (step noTime) .empty
          [newRun "r", .logMetrics (onePoint "r" "1"), .logMetrics (onePoint "r" "1")]) := by
  refine batches_deduplicated noTime _ ⟨orderly_newRun _ _ _, ?_, ?_, trivial⟩
  · intro req runId hop hreq
    obtain rfl := Op.logMetrics.inj hop
    obtain rfl := Option.some.inj hreq
    refine ⟨fun _ => rfl, ?_⟩
    intro call hmem req' runId' hcall
    obtain rfl := List.mem_singleton.1 hmem
    cases hcall
  · intro req runId hop hreq
    obtain rfl := Op.logMetrics.inj hop
    obtain rfl := Option.some.inj hreq
    refine ⟨fun _ => rfl, ?_⟩
    intro call hmem req' runId' hcall hreq' _
    rcases List.mem_cons.1 hmem with rfl | hmem
    · cases hcall
    · obtain rfl := List.mem_singleton.1 hmem
      obtain rfl : onePoint "r" "1" = req' := Op.logMetrics.inj hcall
      exact ⟨(Option.some.inj hreq').symm, rfl⟩

end MLRunX.BatchDedup
