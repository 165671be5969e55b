import MLRunX.WorkerLoop

namespace MLRunX.RunIdentity

open Batching EventQueues Runs
open DiskSpool (Spool SpoolConfig SpoolFile getOrCreateSpoolFile)
open WorkerLoop (Loop LoopConfig addAll)

/-- A process with one run, whose id events take when they are logged. -/
structure Session where
  runId : String
  loop : Loop

/-- What the program, its system monitor, the worker and the syncer do. The answer
of the server may bring another run id. -/
inductive Op
  | initRun (runId : Option String)
  | log (event : Event)
  | loop (op : WorkerLoop.Op)
  | reopen (runId : String)

def Session.start (runId : String) (maxSize : Int) : Session := ⟨runId, .start maxSize []⟩

def reopen (runId : String) (s : Session) : Session :=
  { runId
    loop := { Loop.start s.loop.queue.maxSize [] with
      sync := ⟨{ s.loop.sync.spool with activeFiles := [], pendingBytes := 0 }, .idle⟩ } }

variable (config : LoopConfig)

def loopStep (s : Session) : WorkerLoop.Op → WorkerLoop.Reply × Session
  | .put _ => (.done, s)
  | op =>
      let r := WorkerLoop.step config s.loop op
      (r.1, { s with loop := r.2 })

def step : Machine Session Op WorkerLoop.Reply
  | s, .initRun runId => (.done, { s with runId := runId.getD s.runId })
  | s, .log event =>
      let r := WorkerLoop.step config s.loop (.put { event with runId := s.runId })
      (r.1, { s with loop := r.2 })
  | s, .loop op => loopStep config s op
  | s, .reopen runId => (.done, reopen runId s)

def batchRuns (s : Loop) : WorkerLoop.Op → List String
  | .flush now _ => match s.phase with
      | .flushing _ | .closing => s.batcher.events.map Event.runId
      | .checking => if shouldFlush config.batch now s.batcher then s.batcher.events.map Event.runId else []
      | _ => []
  | .sync (.send _) => match s.sync.pass with
      | .read _ events _ => events.map DiskSpool.Event.runId
      | _ => []
  | _ => []

/-- What stands in the batch keeps its run when the events are added. -/
def PlacesKept (now : Int) : List Event → AdaptiveBatcher → Prop
  | [], _ => True
  | event :: events, b =>
      b.events.map Event.runId <+: (add config.floatLength config.batch now event b).2.events.map Event.runId ∧
        PlacesKept now events (add config.floatLength config.batch now event b).2

def AddsKept (s : Loop) : WorkerLoop.Op → Prop
  | .add now => match s.phase with
      | .adding (event :: _) => PlacesKept config now [event] s.batcher
      | _ => True
  | .shutdown now => match s.phase with
      | .top => PlacesKept config now s.queue.events s.batcher
      | _ => True
  | _ => True

/-- Every event of a batch is of the run of the batch, which is that of the first
one, and none takes the place of an event of another run. -/
def Attributed (_ : List (Op × WorkerLoop.Reply)) (s : Session) : Op → Prop
  | .loop op => (∀ runId ∈ batchRuns config s.loop op, (batchRuns config s.loop op).head? = some runId) ∧
      AddsKept config s.loop op
  | _ => True

/-- The id is not replaced while events that have it wait to be sent. -/
def Settled (_ : List (Op × WorkerLoop.Reply)) (s : Session) : Op → Prop
  | .initRun (some runId) => runId = s.runId ∨
      s.loop.queue.events = [] ∧ s.loop.phase.rest = [] ∧ s.loop.batcher.events = []
  | _ => True

def Waits (s : Loop) (e : Event) : Prop :=
  e ∈ s.queue.events ∨ e ∈ s.phase.rest ∨ e ∈ s.batcher.events

structure Filed (s : Spool) : Prop where
  active : ∀ file ∈ s.activeFiles, ∀ e ∈ file.events, e.runId = file.runId
  pending : ∀ entry ∈ s.dir.pending, ∃ runId, ∀ e ∈ entry.2, e.runId = runId

section Files

variable {config : SpoolConfig}

theorem filed_replace {s : Spool} (h : Filed s) {runId : String} {file : SpoolFile}
    (hfile : ∀ e ∈ file.events, e.runId = file.runId) :
    Filed { s with activeFiles := s.activeFiles.map (fun f => if f.runId == runId then file else f) } := by
  refine ⟨?_, h.pending⟩
  intro f hf
  obtain ⟨f₀, hf₀, rfl⟩ := List.mem_map.mp hf
  split
  · exact hfile
  · exact h.active f₀ hf₀

theorem filed_flush {s : Spool} (h : Filed s) (file : SpoolFile)
    (hfile : ∀ e ∈ file.events, e.runId = file.runId) :
    Filed { s with dir := file.flush s.dir } := by
  refine ⟨h.active, ?_⟩
  intro entry hentry
  rcases DiskSpool.flush_pending hentry with hentry | rfl
  · exact h.pending entry hentry
  · exact ⟨file.runId, hfile⟩

theorem filed_getOrCreate {s : Spool} (h : Filed s) (runId : String) :
    Filed (getOrCreateSpoolFile runId s).2 ∧ (getOrCreateSpoolFile runId s).1.runId = runId ∧
      ∀ e ∈ (getOrCreateSpoolFile runId s).1.events, e.runId = runId := by
  simp only [getOrCreateSpoolFile]
  cases hf : s.activeFiles.find? (fun file => file.runId == runId) with
  | some file =>
      have hrun : file.runId = runId := by simpa using List.find?_some hf
      exact ⟨h, hrun, fun e he => (h.active file (List.mem_of_find?_eq_some hf) e he).trans hrun⟩
  | none =>
      refine ⟨⟨?_, h.pending⟩, rfl, fun e he => absurd he List.not_mem_nil⟩
      intro file hm
      rcases List.mem_append.mp hm with hm | hm
      · exact h.active file hm
      · obtain rfl := List.mem_singleton.mp hm
        exact fun e he => absurd he List.not_mem_nil

theorem filed_spool {s : Spool} (h : Filed s) (fault : Option WorkerLoop.SpoolFault) (event : DiskSpool.Event) :
    Filed (WorkerLoop.spool config fault event s).2 := by
  obtain ⟨hfiled, hrun, hevents⟩ := filed_getOrCreate h event.runId
  have hgrown : ∀ e ∈ (getOrCreateSpoolFile event.runId s).1.events ++ [event],
      e.runId = (getOrCreateSpoolFile event.runId s).1.runId := by
    intro e he
    rw [hrun]
    rcases List.mem_append.mp he with he | he
    · exact hevents e he
    · rw [List.mem_singleton.mp he]
  rw [WorkerLoop.spool]
  split
  · exact h
  · dsimp only
    split
    · exact filed_replace hfiled hgrown
    · split
      · split
        · exact filed_replace hfiled hgrown
        · have hflushed := filed_flush hfiled ((getOrCreateSpoolFile event.runId s).1.append config event) hgrown
          exact ⟨fun file hm => hflushed.active file (List.mem_filter.mp hm).1, hflushed.pending⟩
      · exact filed_replace hfiled hgrown

theorem filed_flushAll {s : Spool} (h : Filed s) (fault : Option Nat) : Filed (WorkerLoop.flushAll fault s).2 := by
  obtain ⟨n, hn⟩ := WorkerLoop.flushFiles_take fault s.activeFiles s.dir
  simp only [WorkerLoop.flushAll, hn]
  have hactive : ∀ file ∈ s.activeFiles.take n, ∀ e ∈ file.events, e.runId = file.runId :=
    fun file hm => h.active file (List.take_subset n _ hm)
  clear hn
  generalize s.activeFiles.take n = files at hactive
  induction files generalizing s with
  | nil => exact h
  | cons file files ih =>
      exact ih (filed_flush h file (hactive file List.mem_cons_self))
        (fun f hf => hactive f (List.mem_cons_of_mem _ hf))

theorem oneRun_readEvents {s : Spool} (h : Filed s) (path : DiskSpool.Path) :
    ∃ runId, ∀ e ∈ SpoolSyncer.readEvents path s.dir, e.runId = runId := by
  rw [SpoolSyncer.readEvents]
  cases hf : s.dir.pending.find? (fun entry => entry.1 == path) with
  | none => exact ⟨"", fun e he => absurd he List.not_mem_nil⟩
  | some entry => exact h.pending entry (List.mem_of_find?_eq_some hf)

end Files

variable {config}

theorem mem_add {now : Int} {event e : Event} {b : AdaptiveBatcher}
    (h : e ∈ (add config.floatLength config.batch now event b).2.events) : e = event ∨ e ∈ b.events := by
  rcases add_events now event b with heq | ⟨i, heq⟩
  · rw [heq, List.mem_append, List.mem_singleton] at h
    exact h.symm
  · rw [heq] at h
    exact (List.mem_or_eq_of_mem_set h).symm

theorem mem_addAll {now : Int} {events : List Event} {e : Event} {b : AdaptiveBatcher}
    (h : e ∈ (addAll config now events b).events) : e ∈ events ∨ e ∈ b.events := by
  rw [addAll] at h
  induction events generalizing b with
  | nil => exact .inr h
  | cons event events ih =>
      rw [List.foldl_cons] at h
      rcases ih h with he | he
      · exact .inl (List.mem_cons_of_mem _ he)
      · rcases mem_add he with rfl | he
        · exact .inl List.mem_cons_self
        · exact .inr he

theorem map_runId_set {events : List Event} {event : Event} {runId : String} (h : ∀ e ∈ events, e.runId = runId)
    (hevent : event.runId = runId) (i : Nat) : (events.set i event).map Event.runId = events.map Event.runId := by
  have hconst : ∀ l : List Event, (∀ e ∈ l, e.runId = runId) →
      l.map Event.runId = List.replicate l.length runId :=
    fun l hl => List.eq_replicate_iff.mpr ⟨List.length_map _, by simpa using hl⟩
  rw [hconst events h, hconst (events.set i event), List.length_set]
  intro e he
  rcases List.mem_or_eq_of_mem_set he with he | rfl
  · exact h e he
  · exact hevent

theorem placesKept_of_oneRun {now : Int} {runId : String} {events : List Event} {b : AdaptiveBatcher}
    (hevents : ∀ e ∈ events, e.runId = runId) (h : ∀ e ∈ b.events, e.runId = runId) :
    PlacesKept config now events b := by
  induction events generalizing b with
  | nil => trivial
  | cons event events ih =>
      have hevent := hevents event List.mem_cons_self
      refine ⟨?_, ih (fun e he => hevents e (List.mem_cons_of_mem _ he)) (fun e he => ?_)⟩
      · rcases @add_events config.floatLength config.batch now event b with heq | ⟨i, heq⟩
        · rw [heq, List.map_append]
          exact List.prefix_append _ _
        · rw [heq, map_runId_set h hevent]
      · rcases mem_add he with rfl | he
        · exact hevent
        · exact h e he

theorem waits_of_rest {s s' : Loop} {e : Event} (h : Waits s' e) (hqueue : s'.queue = s.queue)
    (hbatcher : s'.batcher = s.batcher) (hrest : s'.phase.rest ⊆ s.phase.rest) : Waits s e := by
  rcases h with he | he | he
  · exact .inl (hqueue ▸ he)
  · exact .inr (.inl (hrest he))
  · exact .inr (.inr (hbatcher ▸ he))

theorem Resume.raised_rest (resume : WorkerLoop.Resume) : resume.raised.rest = [] := by
  cases resume <;> rfl

theorem waits_doFlush {now : Int} {send : WorkerLoop.SendEnd} {resume : WorkerLoop.Resume} {s : Loop} {e : Event}
    (hrest : resume.rest ⊆ s.phase.rest) (h : Waits (WorkerLoop.doFlush now send resume s).2 e) : Waits s e := by
  have hphase : ∀ (phase : WorkerLoop.Phase), phase.rest ⊆ s.phase.rest →
      Waits { s with batcher := .empty now, phase := phase } e → Waits s e := by
    rintro phase hsub (he | he | he)
    · exact .inl he
    · exact .inr (.inl (hsub he))
    · exact absurd he List.not_mem_nil
  have hresume : resume.phase.rest ⊆ s.phase.rest := by rwa [WorkerLoop.Resume.phase_rest]
  simp only [WorkerLoop.doFlush] at h
  split at h
  · exact hphase resume.phase hresume h
  · cases send with
    | accepted => exact hphase resume.phase hresume h
    | failed => exact hphase (.spooling [] s.batcher.events resume) hrest h
    | raised =>
        apply hphase resume.raised _ h
        rw [Resume.raised_rest]
        exact List.nil_subset _

theorem waits_flush {now : Int} {send : WorkerLoop.SendEnd} {s : Loop} {e : Event}
    (h : Waits (WorkerLoop.step config s (.flush now send)).2 e) : Waits s e := by
  simp only [WorkerLoop.step] at h
  split at h
  · rename_i rest hphase
    exact waits_doFlush (hphase ▸ List.Subset.refl _) h
  · split at h
    · exact waits_doFlush (List.nil_subset _) h
    · exact waits_of_rest h rfl rfl (List.nil_subset _)
  · split at h
    · exact waits_of_rest h rfl rfl (List.nil_subset _)
    · exact waits_doFlush (List.nil_subset _) h
  · exact h

theorem waits_spool {fault : Option WorkerLoop.SpoolFault} {s : Loop} {e : Event}
    (h : Waits (WorkerLoop.step config s (.spool fault)).2 e) : Waits s e := by
  simp only [WorkerLoop.step] at h
  split at h
  · rename_i spooled event todo resume hphase
    simp only [WorkerLoop.spoolStep] at h
    split at h
    · exact waits_of_rest h rfl rfl (hphase ▸ List.Subset.refl _)
    · exact waits_of_rest h rfl rfl ((Resume.raised_rest resume).symm ▸ List.nil_subset _)
  · exact h

theorem waits_flushAll {fault : Option Nat} {s : Loop} {e : Event}
    (h : Waits (WorkerLoop.step config s (.flushAll fault)).2 e) : Waits s e := by
  simp only [WorkerLoop.step] at h
  split at h
  · rename_i spooled resume hphase
    simp only [WorkerLoop.flushAllStep] at h
    split at h
    · exact waits_of_rest h rfl rfl (by rw [hphase, WorkerLoop.Resume.phase_rest]; exact List.Subset.refl _)
    · exact waits_of_rest h rfl rfl ((Resume.raised_rest resume).symm ▸ List.nil_subset _)
  · exact h

theorem waits_add {now : Int} {s : Loop} {e : Event} (h : Waits (WorkerLoop.step config s (.add now)).2 e) :
    Waits s e := by
  simp only [WorkerLoop.step] at h
  split at h
  · rename_i event rest hphase
    have hrest : ∀ {e}, e ∈ event :: rest → Waits s e := fun he => .inr (.inl (by rw [hphase]; exact he))
    rcases h with he | he | he
    · exact .inl he
    · dsimp only at he
      split at he <;> exact hrest (List.mem_cons_of_mem _ he)
    · rcases mem_add he with rfl | he
      · exact hrest List.mem_cons_self
      · exact .inr (.inr he)
  · refine waits_of_rest h rfl rfl ?_
    dsimp only
    split <;> exact List.nil_subset _
  · exact h

theorem waits_getBatch {arrived : Nat} {s : Loop} {e : Event}
    (h : Waits (WorkerLoop.step config s (.getBatch arrived)).2 e) : Waits s e := by
  simp only [WorkerLoop.step] at h
  split at h
  · rcases h with he | he | he
    · exact .inl ((mem_getBatch config.batch.maxItems arrived).mp (.inr he))
    · dsimp only at he
      split at he
      · exact absurd he List.not_mem_nil
      · exact .inl ((mem_getBatch config.batch.maxItems arrived).mp (.inl he))
    · exact .inr (.inr he)
  · exact h

theorem waits_shutdown {now : Int} {s : Loop} {e : Event}
    (h : Waits (WorkerLoop.step config s (.shutdown now)).2 e) : Waits s e := by
  simp only [WorkerLoop.step] at h
  split at h
  · rcases h with he | he | he
    · exact absurd he List.not_mem_nil
    · exact absurd he List.not_mem_nil
    · rcases mem_addAll he with he | he
      · exact .inl he
      · exact .inr (.inr he)
  · exact h

theorem waits_step {s : Loop} {op : WorkerLoop.Op} {e : Event} (h : Waits (WorkerLoop.step config s op).2 e) :
    Waits s e ∨ op = .put e := by
  cases op with
  | put event =>
      simp only [WorkerLoop.step, put] at h
      split at h
      · exact .inl h
      · rcases h with he | he
        · rcases List.mem_append.mp he with he | he
          · exact .inl (.inl he)
          · exact .inr (List.mem_singleton.mp he ▸ rfl)
        · exact .inl (.inr he)
  | wake =>
      simp only [WorkerLoop.step] at h
      split at h
      · exact .inl (waits_of_rest h rfl rfl (List.nil_subset _))
      · exact .inl h
  | getBatch arrived => exact .inl (waits_getBatch h)
  | add now => exact .inl (waits_add h)
  | flush now send => exact .inl (waits_flush h)
  | spool fault => exact .inl (waits_spool h)
  | flushAll fault => exact .inl (waits_flushAll h)
  | shutdown now => exact .inl (waits_shutdown h)
  | stop | stats | sync => exact .inl h

theorem syncStep_read {dir : DiskSpool.SpoolDir} {op : SpoolSyncer.Op} {pass : SpoolSyncer.Pass}
    {path : DiskSpool.Path} {events : List DiskSpool.Event} {files : List DiskSpool.Path}
    (h : SpoolSyncer.syncStep dir op pass = .read path events files) :
    pass = .read path events files ∨ events = SpoolSyncer.readEvents path dir := by
  unfold SpoolSyncer.syncStep at h
  split at h
  · cases h
  · dsimp only at h
    split at h
    · cases h
    · injection h with hpath hevents hfiles
      exact .inr (hpath ▸ hevents.symm)
  all_goals first | (cases h; done) | exact .inl h

/-- The files of the spool, and the one that the syncer holds in memory. -/
def FilesApart (s : SpoolSyncer.Sync) : Prop :=
  Filed s.spool ∧ ∀ path events files, s.pass = .read path events files →
    ∃ runId, ∀ e ∈ events, e.runId = runId

theorem filesApart_syncer {spool : SpoolConfig} {s : SpoolSyncer.Sync} (h : FilesApart s)
    (op : WorkerLoop.SyncOp) :
    FilesApart (SpoolSyncer.step spool s op.op).2 := by
  have hpass : ∀ op, FilesApart { s with pass := SpoolSyncer.syncStep s.spool.dir op s.pass } := by
    refine fun op => ⟨h.1, fun path events files heq => ?_⟩
    rcases syncStep_read heq with hread | rfl
    · exact h.2 path events files hread
    · exact oneRun_readEvents h.1 path
  cases op with
  | markSynced =>
      simp only [WorkerLoop.SyncOp.op, SpoolSyncer.step]
      split
      · refine ⟨⟨h.1.active, fun entry hm => h.1.pending entry (List.mem_filter.mp hm).1⟩, ?_⟩
        intro path events files heq
        cases heq
      · exact h
  | list | read | send | raise | stop => exact hpass _

theorem doFlush_sync (now : Int) (send : WorkerLoop.SendEnd) (resume : WorkerLoop.Resume) (s : Loop) :
    (WorkerLoop.doFlush now send resume s).2.sync = s.sync := by
  simp only [WorkerLoop.doFlush]
  split
  · rfl
  · cases send <;> rfl

theorem filesApart_step {s : Loop} (h : FilesApart s.sync) (op : WorkerLoop.Op) :
    FilesApart (WorkerLoop.step config s op).2.sync := by
  cases op with
  | put event => exact h
  | wake | getBatch arrived | add now | shutdown now =>
      simp only [WorkerLoop.step]
      split <;> exact h
  | flush now send =>
      simp only [WorkerLoop.step]
      split
      · rwa [doFlush_sync]
      · split
        · rwa [doFlush_sync]
        · exact h
      · split
        · exact h
        · rwa [doFlush_sync]
      · exact h
  | spool fault =>
      simp only [WorkerLoop.step]
      split
      · rename_i spooled event todo resume hphase
        have hfiled := @filed_spool config.spool s.sync.spool h.1 fault (event.spooled config.dumps)
        simp only [WorkerLoop.spoolStep]
        split <;> rename_i heq <;> rw [heq] at hfiled <;> exact ⟨hfiled, h.2⟩
      · exact h
  | flushAll fault =>
      simp only [WorkerLoop.step]
      split
      · have hfiled := filed_flushAll h.1 fault
        simp only [WorkerLoop.flushAllStep]
        split <;> rename_i heq <;> rw [heq] at hfiled <;> exact ⟨hfiled, h.2⟩
      · exact h
  | stop fault => exact ⟨filed_flushAll h.1 fault, h.2⟩
  | stats => exact ⟨⟨h.1.active, h.1.pending⟩, h.2⟩
  | sync op => exact filesApart_syncer h op

structure Attributing (s : Session) : Prop where
  waiting : ∀ e, Waits s.loop e → e.runId = s.runId
  files : FilesApart s.loop.sync

theorem attributing_loop {s : Session} (h : Attributing s) {op : WorkerLoop.Op}
    (hop : ∀ e, op = .put e → e.runId = s.runId) :
    Attributing { s with loop := (WorkerLoop.step config s.loop op).2 } := by
  refine ⟨fun e he => ?_, filesApart_step h.files op⟩
  rcases waits_step he with he | hput
  · exact h.waiting e he
  · exact hop e hput

theorem filesApart_reopen {s : Session} (h : Attributing s) (runId : String) : Attributing (reopen runId s) := by
  refine ⟨?_, ⟨?_, h.files.1.pending⟩, nofun⟩
  · rintro e (he | he | he) <;> exact absurd he List.not_mem_nil
  · exact fun file hm => absurd hm List.not_mem_nil

theorem attributing_step (past : List (Op × WorkerLoop.Reply)) (s : Session) (op : Op) (h : Attributing s)
    (hg : Settled past s op) : Attributing (step config s op).2 := by
  cases op with
  | initRun runId =>
      cases runId with
      | none => exact h
      | some runId =>
          refine ⟨fun e he => ?_, h.files⟩
          rcases hg with rfl | ⟨hqueue, hrest, hbatcher⟩
          · exact h.waiting e he
          · rcases he with he | he | he
            · exact absurd (hqueue ▸ he) List.not_mem_nil
            · exact absurd (hrest ▸ he) List.not_mem_nil
            · exact absurd (hbatcher ▸ he) List.not_mem_nil
  | log event =>
      apply attributing_loop h
      rintro e heq
      obtain rfl := WorkerLoop.Op.put.inj heq
      rfl
  | loop op =>
      simp only [step]
      unfold loopStep
      split
      · exact h
      · rename_i hput
        exact attributing_loop h (fun e heq => absurd heq (hput e))
  | reopen runId => exact filesApart_reopen h runId

theorem oneRun_head {runIds : List String} (h : ∃ runId, ∀ r ∈ runIds, r = runId) :
    ∀ r ∈ runIds, runIds.head? = some r := by
  obtain ⟨runId, h⟩ := h
  intro r hr
  cases runIds with
  | nil => exact absurd hr List.not_mem_nil
  | cons first rest => rw [List.head?_cons, h first List.mem_cons_self, h r hr]

theorem attributed_of_attributing (past : List (Op × WorkerLoop.Reply)) (s : Session) (op : Op)
    (h : Attributing s) :
    Attributed config past s op := by
  cases op with
  | initRun | log | reopen => trivial
  | loop op =>
      have hbatcher : ∀ r ∈ s.loop.batcher.events.map Event.runId, r = s.runId := by
        intro r hr
        obtain ⟨e, he, rfl⟩ := List.mem_map.mp hr
        exact h.waiting e (.inr (.inr he))
      constructor
      · apply oneRun_head
        unfold batchRuns
        split
        · split
          · exact ⟨s.runId, hbatcher⟩
          · exact ⟨s.runId, hbatcher⟩
          · split
            · exact ⟨s.runId, hbatcher⟩
            · exact ⟨"", fun _ hr => absurd hr List.not_mem_nil⟩
          · exact ⟨"", fun _ hr => absurd hr List.not_mem_nil⟩
        · split
          · rename_i path events files hpass
            obtain ⟨runId, hevents⟩ := h.files.2 path events files hpass
            refine ⟨runId, fun r hr => ?_⟩
            obtain ⟨e, he, rfl⟩ := List.mem_map.mp hr
            exact hevents e he
          · exact ⟨"", fun _ hr => absurd hr List.not_mem_nil⟩
        · exact ⟨"", fun _ hr => absurd hr List.not_mem_nil⟩
      · have hevents : ∀ e ∈ s.loop.batcher.events, e.runId = s.runId := fun e he => h.waiting e (.inr (.inr he))
        unfold AddsKept
        split
        · split
          · rename_i event rest hphase
            apply placesKept_of_oneRun _ hevents
            intro e he
            rw [List.mem_singleton.mp he]
            exact h.waiting event (.inr (.inl (by rw [hphase]; exact List.mem_cons_self)))
          · trivial
        · split
          · exact placesKept_of_oneRun (fun e he => h.waiting e (.inl he)) hevents
          · trivial
        · trivial

/-- In every run of sessions whose ids are never replaced while events wait, each
event is sent under its own run. -/
theorem attributed_of_settled (config : LoopConfig) (runId : String) (maxSize : Int) (ops : List Op)
    (hg : Guarded (step config) Settled [] (.start runId maxSize) ops) :
    Guarded (step config) (Attributed config) [] (.start runId maxSize) ops := by
  have hstart : Attributing (.start runId maxSize) := by
    refine ⟨?_, ⟨?_, ?_⟩, nofun⟩
    · rintro e (he | he | he) <;> exact absurd he List.not_mem_nil
    · exact fun file hm => absurd hm List.not_mem_nil
    · exact fun entry hm => absurd hm List.not_mem_nil
  exact guarded_of_invariant (fun _ s => Attributing s) attributing_step
    (fun past s op h _ => attributed_of_attributing past s op h) [] (.start runId maxSize) ops hstart hg

instance PlacesKept.decidable (config : LoopConfig) (now : Int) :
    (events : List Event) → (b : AdaptiveBatcher) → Decidable (PlacesKept config now events b)
  | [], _ => .isTrue trivial
  | event :: events, b =>
      have := PlacesKept.decidable config now events (add config.floatLength config.batch now event b).2
      inferInstanceAs (Decidable (_ ∧
        PlacesKept config now events (add config.floatLength config.batch now event b).2))

instance (s : Loop) (op : WorkerLoop.Op) : Decidable (AddsKept config s op) := by
  unfold AddsKept
  split
  · split <;> infer_instance
  · split <;> infer_instance
  · infer_instance

instance (past : List (Op × WorkerLoop.Reply)) (s : Session) (op : Op) : Decidable (Attributed config past s op) := by
  unfold Attributed
  split <;> infer_instance

instance (past : List (Op × WorkerLoop.Reply)) (s : Session) (op : Op) : Decidable (Settled past s op) := by
  unfold Settled
  split <;> infer_instance

def pairs : LoopConfig := { WorkerLoop.single with batch := ⟨2, 10000, 1000, true, true, true⟩ }

def cpuAt (step : Int) : Event := ⟨.metric, "", 0, [("name", .str "cpu/percent"), ("step", .int step)]⟩

def flushed : List Op := [.loop .wake, .loop (.getBatch 2), .loop (.add 0), .loop (.add 0), .loop (.flush 0 .accepted)]

theorem attributed_late_monitor :
    Guarded (step pairs) (Attributed pairs) [] (.start "requested" 0)
      ([.initRun (some "assigned"), .log (cpuAt 0), .log (cpuAt 1)] ++ flushed) :=
  attributed_of_settled pairs "requested" 0 _ (by decide)

/-- The monitor logs before the server assigns the id: one batch holds events of
both runs, or an event of the one takes the place of an event of the other. -/
theorem monitor_before_assignment :
    ¬ Guarded (step pairs) (Attributed pairs) [] (.start "requested" 0)
        ([.log (cpuAt 0), .initRun (some "assigned"), .log (cpuAt 1)] ++ flushed) ∧
      ¬ Guarded (step pairs) (Attributed pairs) [] (.start "requested" 0)
        ([.log (cpuAt 0), .initRun (some "assigned"), .log (cpuAt 0)] ++ flushed.take 4) := by
  decide

end MLRunX.RunIdentity
