import MLRunX.Batching
import MLRunX.SpoolReplay
import MLRunX.SpoolSyncer

namespace MLRunX.WorkerLoop

open Batching EventQueues Runs
open DiskSpool (Spool SpoolConfig SpoolDir SpoolFile getOrCreateSpoolFile)
open PayloadHash (F64)
open SpoolSyncer (RenamesRead Stored Sync Tidy)

/-- Where taking an event in may raise: when it is measured, or when its file is
written out. -/
inductive SpoolFault
  | dumps
  | flush
  deriving DecidableEq, Repr

inductive Outcome (α : Type)
  | returned (value : α)
  | raised
  deriving DecidableEq, Repr

section Spooling

variable (config : SpoolConfig)

def spool (fault : Option SpoolFault) (event : DiskSpool.Event) (s : Spool) : Outcome Bool × Spool :=
  if config.maxTotalSizeBytes ≤ s.pendingBytes then
    (.returned false, s)
  else
    let (found, s) := getOrCreateSpoolFile event.runId s
    let keep (file : SpoolFile) : Spool :=
      { s with activeFiles := s.activeFiles.map (fun f => if f.runId == event.runId then file else f) }
    let file := found.append config event
    if fault = some .dumps then
      (.raised, keep { found with events := found.events ++ [event] })
    else if config.maxFileSizeBytes ≤ file.sizeBytes then
      if fault = some .flush then (.raised, keep file)
      else (.returned true, { s with
        dir := file.flush s.dir
        activeFiles := s.activeFiles.filter (fun f => f.runId != event.runId) })
    else (.returned true, keep file)

def flushFiles : Option Nat → List SpoolFile → SpoolDir → Outcome Unit × SpoolDir
  | _, [], dir => (.returned (), dir)
  | some 0, _ :: _, dir => (.raised, dir)
  | fault, file :: files, dir => flushFiles (fault.map Nat.pred) files (file.flush dir)

def flushAll (fault : Option Nat) (s : Spool) : Outcome Unit × Spool :=
  let r := flushFiles fault s.activeFiles s.dir
  (r.1, { s with dir := r.2 })

end Spooling

inductive Resume
  | adding (rest : List Event)
  | top
  | ended
  deriving DecidableEq, Repr

/-- Where the worker stands. While it spools a batch, the events behind and before
it are told apart. -/
inductive Phase
  | top
  | draining
  | adding (rest : List Event)
  | flushing (rest : List Event)
  | checking
  | closing
  | spooling (spooled todo : List Event) (resume : Resume)
  | ended
  deriving DecidableEq, Repr

def Resume.phase : Resume → Phase
  | .adding rest => .adding rest
  | .top => .top
  | .ended => .ended

/-- The handler for exceptions stands outside the inner loops, and the final drain
has none. -/
def Resume.raised : Resume → Phase
  | .adding _ | .top => .top
  | .ended => .ended

def Resume.rest : Resume → List Event
  | .adding rest => rest
  | .top | .ended => []

/-- The events that the worker has taken from the queue and not added yet. -/
def Phase.rest : Phase → List Event
  | .adding rest | .flushing rest => rest
  | .spooling _ _ resume => resume.rest
  | .top | .draining | .checking | .closing | .ended => []

def Phase.todo : Phase → List Event
  | .spooling _ todo _ => todo
  | _ => []

structure Loop where
  queue : EventQueue
  batcher : AdaptiveBatcher
  sync : Sync
  phase : Phase

inductive SendEnd
  | accepted
  | failed
  | raised
  deriving DecidableEq, Repr

/-- How the send of a spool file ends. One that the server will never take is
given up. -/
inductive ReplayEnd
  | accepted
  | dropped
  | failed
  deriving DecidableEq, Repr

inductive SyncOp
  | list
  | read
  | send (outcome : ReplayEnd)
  | markSynced
  | raise
  | stop
  deriving DecidableEq, Repr

def SyncOp.op : SyncOp → SpoolSyncer.Op
  | .list => .list
  | .read => .read
  | .send outcome => .send (outcome != .failed)
  | .markSynced => .markSynced
  | .raise => .raise
  | .stop => .stop

inductive Op
  | put (event : Event)
  | wake
  | getBatch (arrived : Nat)
  | add (now : Int)
  | flush (now : Int) (send : SendEnd)
  | spool (fault : Option SpoolFault)
  | flushAll (fault : Option Nat)
  | shutdown (now : Int)
  | stop (fault : Option Nat)
  | stats
  | sync (op : SyncOp)

inductive FlushEnd
  | accepted
  | spooled
  | raised
  deriving DecidableEq, Repr

inductive Reply
  | put (accepted : Bool)
  | flushed (batch : List Event) (outcome : FlushEnd)
  | replayed (events : List DiskSpool.Event)
  | done
  deriving DecidableEq, Repr

def Reply.ofSync : SpoolSyncer.Reply → Reply
  | .sent _ events => .replayed events
  | .spooled _ | .done => .done

structure LoopConfig where
  batch : BatchConfig
  spool : SpoolConfig
  floatLength : F64 → Nat
  dumps : Data → String

def Loop.start (maxSize : Int) (contents : List (List DiskSpool.Event)) : Loop :=
  ⟨.empty maxSize, .empty 0, .start contents, .top⟩

def doFlush (now : Int) (send : SendEnd) (resume : Resume) (s : Loop) : Reply × Loop :=
  let r := Batching.flush now s.batcher
  let s := { s with batcher := r.2.2 }
  if r.1.isEmpty then (.done, { s with phase := resume.phase })
  else match send with
    | .accepted => (.flushed r.1 .accepted, { s with phase := resume.phase })
    | .failed => (.done, { s with phase := .spooling [] r.1 resume })
    | .raised => (.flushed r.1 .raised, { s with phase := resume.raised })

variable (config : LoopConfig)

def addAll (now : Int) (events : List Event) (b : AdaptiveBatcher) : AdaptiveBatcher :=
  events.foldl (fun b event => (Batching.add config.floatLength config.batch now event b).2) b

def spoolStep (fault : Option SpoolFault) (spooled : List Event) (event : Event) (todo : List Event) (resume : Resume)
    (s : Loop) : Reply × Loop :=
  match spool config.spool fault (event.spooled config.dumps) s.sync.spool with
  | (.returned _, spool) =>
      (.done, { s with sync := { s.sync with spool }, phase := .spooling (spooled ++ [event]) todo resume })
  | (.raised, spool) =>
      (.flushed (spooled ++ event :: todo) .raised, { s with sync := { s.sync with spool }, phase := resume.raised })

def flushAllStep (fault : Option Nat) (spooled : List Event) (resume : Resume) (s : Loop) : Reply × Loop :=
  match flushAll fault s.sync.spool with
  | (.returned _, spool) =>
      (.flushed spooled .spooled, { s with sync := { s.sync with spool }, phase := resume.phase })
  | (.raised, spool) =>
      (.flushed spooled .raised, { s with sync := { s.sync with spool }, phase := resume.raised })

/-- The loop of the worker. Between any two of its steps events are queued, and the
syncer takes steps of its own on the files of the spool. -/
def step : Machine Loop Op Reply
  | s, .put event =>
      let r := put event s.queue
      (.put r.1, { s with queue := r.2 })
  | s, .wake => (.done, match s.phase with
      | .top => { s with phase := .draining }
      | _ => s)
  | s, .getBatch arrived => (.done, match s.phase with
      | .draining =>
          let r := getBatch config.batch.maxItems arrived s.queue
          { s with queue := r.2, phase := if r.1.isEmpty then .checking else .adding r.1 }
      | _ => s)
  | s, .add now => (.done, match s.phase with
      | .adding (event :: rest) =>
          let r := Batching.add config.floatLength config.batch now event s.batcher
          { s with batcher := r.2, phase := if r.1 then .flushing rest else .adding rest }
      | .adding [] => { s with phase := if s.queue.events.isEmpty then .checking else .draining }
      | _ => s)
  | s, .flush now send => match s.phase with
      | .flushing rest => doFlush now send (.adding rest) s
      | .checking =>
          if !s.batcher.isEmpty && shouldFlush config.batch now s.batcher then doFlush now send .top s
          else (.done, { s with phase := .top })
      | .closing =>
          if s.batcher.isEmpty then (.done, { s with phase := .ended }) else doFlush now send .ended s
      | _ => (.done, s)
  | s, .spool fault => match s.phase with
      | .spooling spooled (event :: todo) resume => spoolStep config fault spooled event todo resume s
      | _ => (.done, s)
  | s, .flushAll fault => match s.phase with
      | .spooling spooled [] resume => flushAllStep fault spooled resume s
      | _ => (.done, s)
  | s, .shutdown now => (.done, match s.phase with
      | .top =>
          let r := drain s.queue
          { s with queue := r.2, batcher := addAll config now r.1 s.batcher, phase := .closing }
      | _ => s)
  | s, .stop fault => (.done, { s with sync := { s.sync with spool := (flushAll fault s.sync.spool).2 } })
  | s, .stats => (.done, { s with sync := { s.sync with spool := DiskSpool.updateStats config.spool s.sync.spool } })
  | s, .sync op =>
      let r := SpoolSyncer.step config.spool s.sync op.op
      (.ofSync r.1, { s with sync := r.2 })

def queuedEvents (past : List (Op × Reply)) : List Event :=
  past.filterMap fun
    | (.put event, .put true) => some event
    | _ => none

def eventsFlushed (outcome : FlushEnd) (past : List (Op × Reply)) : List Event :=
  past.flatMap fun
    | (_, .flushed batch outcome') => if outcome' = outcome then batch else []
    | _ => []

def replayedEvents (past : List (Op × Reply)) : List DiskSpool.Event :=
  past.flatMap fun
    | (.sync (.send .accepted), .replayed events) => events
    | _ => []

/-- Every event that was queued waits somewhere, was in a batch that the
transport accepted, or was in one whose flush raised. -/
def Conserved (past : List (Op × Reply)) (s : Loop) : Prop :=
  ∀ e ∈ queuedEvents past, e ∈ s.queue.events ∨ e ∈ s.batcher.events ∨
    Stored s.sync.spool (e.spooled config.dumps) ∨ e ∈ eventsFlushed .accepted past ∨
    e.spooled config.dumps ∈ replayedEvents past ∨ e ∈ eventsFlushed .raised past

/-- No call raises in a flush while events that were taken from the queue wait to
be added. The spool takes what cannot be sent, and the syncer gives nothing up and
renames what it has read. -/
def Careful (_ : List (Op × Reply)) (s : Loop) : Op → Prop
  | .flush _ send => send = .raised → s.phase.rest = []
  | .spool fault => s.sync.spool.pendingBytes < config.spool.maxTotalSizeBytes ∧
      (fault ≠ none → s.phase.rest = [])
  | .flushAll fault => fault ≠ none → s.phase.rest = []
  | .sync op => op ≠ .send .dropped ∧ RenamesRead [] s.sync op.op
  | _ => True

section Spooled

variable {config : SpoolConfig}

theorem spool_spec {s : Spool} (h : Tidy s) (hroom : s.pendingBytes < config.maxTotalSizeBytes)
    (fault : Option SpoolFault) (event : DiskSpool.Event) :
    SpoolSyncer.Took event s (spool config fault event s).2 ∧
      (spool config fault event s).2.pendingBytes = s.pendingBytes := by
  obtain ⟨htidy, hm, hrun, hkept⟩ := SpoolSyncer.opened_getOrCreate h event.runId
  have hbytes : (getOrCreateSpoolFile event.runId s).2.pendingBytes = s.pendingBytes := by
    simp only [getOrCreateSpoolFile]
    split <;> rfl
  have hgrown : ∀ file' : SpoolFile, file'.path = (getOrCreateSpoolFile event.runId s).1.path →
      file'.runId = (getOrCreateSpoolFile event.runId s).1.runId →
      file'.events = (getOrCreateSpoolFile event.runId s).1.events ++ [event] →
      SpoolSyncer.Took event s { (getOrCreateSpoolFile event.runId s).2 with
        activeFiles := (getOrCreateSpoolFile event.runId s).2.activeFiles.map
          (fun f => if f.runId == event.runId then file' else f) } := by
    intro file' hpath hrun' hevents
    have htook := SpoolSyncer.took_grown htidy file' hm hrun hpath hrun' hevents
    exact ⟨htook.tidy, fun e he => htook.kept e (hkept e he), htook.stored⟩
  rw [spool, if_neg (Nat.not_le.mpr hroom)]
  dsimp only
  split
  · exact ⟨hgrown _ rfl rfl rfl, hbytes⟩
  · split
    · split
      · exact ⟨hgrown _ rfl rfl rfl, hbytes⟩
      · have htook := SpoolSyncer.took_rotated config htidy hm hrun
        exact ⟨⟨htook.tidy, fun e he => htook.kept e (hkept e he), htook.stored⟩, hbytes⟩
    · exact ⟨hgrown _ rfl rfl rfl, hbytes⟩

theorem flushFiles_take (fault : Option Nat) (files : List SpoolFile) (dir : SpoolDir) :
    ∃ n, (flushFiles fault files dir).2 = (files.take n).foldl (fun dir file => file.flush dir) dir := by
  induction files generalizing fault dir with
  | nil => exact ⟨0, by simp [flushFiles]⟩
  | cons file files ih =>
      rcases fault with _ | _ | k
      · obtain ⟨n, hn⟩ := ih none (file.flush dir)
        exact ⟨n + 1, by simpa [flushFiles] using hn⟩
      · exact ⟨0, rfl⟩
      · obtain ⟨n, hn⟩ := ih (some k) (file.flush dir)
        exact ⟨n + 1, by simpa [flushFiles] using hn⟩

theorem flushAll_spec (fault : Option Nat) {s : Spool} (h : Tidy s) :
    Tidy (flushAll fault s).2 ∧ ∀ e, Stored s e → Stored (flushAll fault s).2 e := by
  obtain ⟨n, hn⟩ := flushFiles_take fault s.activeFiles s.dir
  simp only [flushAll, hn]
  exact SpoolSyncer.flushes_spec (s.activeFiles.take n) (List.take_subset n _) h

variable (config)

theorem spool_faultless (event : DiskSpool.Event) (s : Spool) :
    spool config none event s = (.returned (DiskSpool.spool config event s).1, (DiskSpool.spool config event s).2) := by
  simp only [spool, DiskSpool.spool, reduceCtorEq, if_false]
  split
  · rfl
  · split <;> rfl

theorem flushAll_faultless (s : Spool) : flushAll none s = (.returned (), DiskSpool.flushAll s) := by
  have hflush : ∀ files dir, flushFiles none files dir =
      (.returned (), files.foldl (fun dir file => SpoolFile.flush file dir) dir) := by
    intro files
    induction files with
    | nil => exact fun _ => rfl
    | cons file files ih => exact fun dir => ih _
  simp only [flushAll, hflush, DiskSpool.flushAll]

end Spooled

variable {config}

/-- An event that the worker still has, in memory or on disk. -/
def Kept (config : LoopConfig) (s : Loop) (e : Event) : Prop :=
  e ∈ s.queue.events ∨ e ∈ s.phase.rest ∨ e ∈ s.phase.todo ∨ e ∈ s.batcher.events ∨
    Stored s.sync.spool (e.spooled config.dumps)

/-- An event of which a batch or a file has been answered for. -/
def Answered (config : LoopConfig) (past : List (Op × Reply)) (e : Event) : Prop :=
  e ∈ eventsFlushed .accepted past ∨ e ∈ eventsFlushed .raised past ∨
    e.spooled config.dumps ∈ replayedEvents past

structure Conserving (config : LoopConfig) (past : List (Op × Reply)) (s : Loop) : Prop where
  tidy : Tidy s.sync.spool
  replayed : ∀ path events files, s.sync.pass = .sent path events files → events ⊆ replayedEvents past
  conserved : ∀ e ∈ queuedEvents past, Kept config s e ∨ Answered config past e

theorem replayedEvents_append (past more : List (Op × Reply)) :
    replayedEvents (past ++ more) = replayedEvents past ++ replayedEvents more :=
  List.flatMap_append

theorem answered_append {past more : List (Op × Reply)} {e : Event} :
    Answered config (past ++ more) e ↔ Answered config past e ∨ Answered config more e := by
  simp only [Answered, eventsFlushed, replayedEvents, List.flatMap_append, List.mem_append]
  tauto

theorem answered_accepted {op : Op} {batch : List Event} {e : Event} (h : e ∈ batch) :
    Answered config [(op, .flushed batch .accepted)] e :=
  .inl (by simpa [eventsFlushed] using h)

theorem answered_raised {op : Op} {batch : List Event} {e : Event} (h : e ∈ batch) :
    Answered config [(op, .flushed batch .raised)] e :=
  .inr (.inl (by simpa [eventsFlushed] using h))

theorem conserving_of {past : List (Op × Reply)} {s s' : Loop} {op : Op} {reply : Reply}
    (h : Conserving config past s) (htidy : Tidy s'.sync.spool)
    (hreplayed : ∀ path events files, s'.sync.pass = .sent path events files →
      events ⊆ replayedEvents past ++ replayedEvents [(op, reply)])
    (hqueued : ∀ e ∈ queuedEvents [(op, reply)], Kept config s' e)
    (hkept : ∀ e, Kept config s e → Kept config s' e ∨ Answered config (past ++ [(op, reply)]) e) :
    Conserving config (past ++ [(op, reply)]) s' := by
  refine ⟨htidy, ?_, fun e he => ?_⟩
  · rw [replayedEvents_append]
    exact hreplayed
  · rw [queuedEvents, List.filterMap_append, List.mem_append] at he
    rcases he with he | he
    · rcases h.conserved e he with he | he
      · exact hkept e he
      · exact .inr (answered_append.mpr (.inl he))
    · exact .inl (hqueued e he)

theorem conserving_worker {past : List (Op × Reply)} {s s' : Loop} {op : Op} {reply : Reply}
    (h : Conserving config past s) (htidy : Tidy s'.sync.spool) (hpass : s'.sync.pass = s.sync.pass)
    (hqueued : queuedEvents [(op, reply)] = [])
    (hkept : ∀ e, Kept config s e → Kept config s' e ∨ Answered config [(op, reply)] e) :
    Conserving config (past ++ [(op, reply)]) s' := by
  apply conserving_of h htidy
  · intro path events files heq
    rw [hpass] at heq
    exact List.Subset.trans (h.replayed path events files heq) (List.subset_append_left _ _)
  · intro e he
    rw [hqueued] at he
    exact absurd he List.not_mem_nil
  · exact fun e he => (hkept e he).imp_right (fun he => answered_append.mpr (.inr he))

@[simp] theorem Resume.phase_rest (resume : Resume) : resume.phase.rest = resume.rest := by
  cases resume <;> rfl

theorem conserving_same {past : List (Op × Reply)} {s s' : Loop} {op : Op} {reply : Reply}
    (h : Conserving config past s) (htidy : Tidy s'.sync.spool) (hpass : s'.sync.pass = s.sync.pass)
    (hqueued : queuedEvents [(op, reply)] = []) (hkept : ∀ e, Kept config s e → Kept config s' e) :
    Conserving config (past ++ [(op, reply)]) s' :=
  conserving_worker h htidy hpass hqueued (fun e he => .inl (hkept e he))

theorem conserving_doFlush {past : List (Op × Reply)} {s : Loop} (h : Conserving config past s) (now : Int)
    (send : SendEnd) {resume : Resume} (hrest : s.phase.rest = resume.rest) (htodo : s.phase.todo = [])
    (hraised : send = .raised → s.phase.rest = []) :
    Conserving config (past ++ [(.flush now send, (doFlush now send resume s).1)]) (doFlush now send resume s).2 := by
  have hkept : ∀ (phase : Phase) e, Kept config s e → resume.rest ⊆ phase.rest →
      Kept config { s with batcher := .empty now, phase := phase } e ∨ e ∈ s.batcher.events := by
    rintro phase e (he | he | he | he | he) hsub
    · exact .inl (.inl he)
    · exact .inl (.inr (.inl (hsub (hrest ▸ he))))
    · rw [htodo] at he
      exact absurd he List.not_mem_nil
    · exact .inr he
    · exact .inl (.inr (.inr (.inr (.inr he))))
  have hphase : resume.rest ⊆ resume.phase.rest := by
    rw [Resume.phase_rest]
    exact List.Subset.refl _
  simp only [doFlush]
  by_cases hempty : (Batching.flush now s.batcher).1.isEmpty = true
  · rw [if_pos hempty]
    refine conserving_same h h.tidy rfl rfl (fun e he => ?_)
    refine (hkept resume.phase e he hphase).resolve_right (fun hbatch => ?_)
    exact List.ne_nil_of_mem hbatch (List.isEmpty_iff.mp hempty)
  · rw [if_neg hempty]
    cases send with
    | accepted =>
        exact conserving_worker h h.tidy rfl rfl fun e he =>
          (hkept resume.phase e he hphase).imp_right answered_accepted
    | failed =>
        refine conserving_same h h.tidy rfl rfl (fun e he => ?_)
        rcases hkept (.spooling [] s.batcher.events resume) e he (List.Subset.refl _) with he | he
        · rcases he with he | he | he | he | he
          · exact .inl he
          · exact .inr (.inl he)
          · exact .inr (.inr (.inl he))
          · exact absurd he List.not_mem_nil
          · exact .inr (.inr (.inr (.inr he)))
        · exact .inr (.inr (.inl he))
    | raised =>
        refine conserving_worker h h.tidy rfl rfl (fun e he => ?_)
        refine (hkept resume.raised e he ?_).imp_right answered_raised
        rw [← hrest, hraised rfl]
        exact List.nil_subset _

theorem conserving_spoolStep {past : List (Op × Reply)} {s : Loop} (h : Conserving config past s)
    (fault : Option SpoolFault) {spooled todo : List Event} {event : Event} {resume : Resume}
    (hphase : s.phase = .spooling spooled (event :: todo) resume)
    (hroom : s.sync.spool.pendingBytes < config.spool.maxTotalSizeBytes)
    (hrest : fault ≠ none → resume.rest = []) :
    Conserving config (past ++ [(.spool fault, (spoolStep config fault spooled event todo resume s).1)])
      (spoolStep config fault spooled event todo resume s).2 := by
  obtain ⟨⟨htidy, hkept, hstored⟩, -⟩ := spool_spec h.tidy hroom fault (event.spooled config.dumps)
  have hfaultless := spool_faultless config.spool (event.spooled config.dumps) s.sync.spool
  rw [spoolStep]
  cases hspool : spool config.spool fault (event.spooled config.dumps) s.sync.spool with
  | mk outcome spool' =>
      rw [hspool] at htidy hkept hstored
      cases outcome with
      | returned accepted =>
          refine conserving_same h htidy rfl rfl ?_
          rintro e (he | he | he | he | he)
          · exact .inl he
          · exact .inr (.inl (by simpa [hphase, Phase.rest] using he))
          · rw [hphase] at he
            rcases List.mem_cons.mp he with rfl | he
            · exact .inr (.inr (.inr (.inr hstored)))
            · exact .inr (.inr (.inl he))
          · exact .inr (.inr (.inr (.inl he)))
          · exact .inr (.inr (.inr (.inr (hkept _ he))))
      | raised =>
          have hfault : fault ≠ none := by
            rintro rfl
            rw [hfaultless] at hspool
            cases (Prod.mk.inj hspool).1
          refine conserving_worker h htidy rfl rfl ?_
          rintro e (he | he | he | he | he)
          · exact .inl (.inl he)
          · rw [hphase, Phase.rest, hrest hfault] at he
            exact absurd he List.not_mem_nil
          · rw [hphase] at he
            exact .inr (answered_raised (List.mem_append_right _ he))
          · exact .inl (.inr (.inr (.inr (.inl he))))
          · exact .inl (.inr (.inr (.inr (.inr (hkept _ he)))))

theorem conserving_flushAllStep {past : List (Op × Reply)} {s : Loop} (h : Conserving config past s)
    (fault : Option Nat) {spooled : List Event} {resume : Resume} (hphase : s.phase = .spooling spooled [] resume)
    (hrest : fault ≠ none → resume.rest = []) :
    Conserving config (past ++ [(.flushAll fault, (flushAllStep fault spooled resume s).1)])
      (flushAllStep fault spooled resume s).2 := by
  obtain ⟨htidy, hkept⟩ := flushAll_spec fault h.tidy
  have hfaultless := flushAll_faultless s.sync.spool
  have hkeeps : ∀ (phase : Phase) (spool' : Spool), phase.rest = resume.rest →
    (∀ e, Stored s.sync.spool e → Stored spool' e) →
      ∀ e, Kept config s e → Kept config { s with sync := { s.sync with spool := spool' }, phase := phase } e := by
    rintro phase spool' hsame hkept e (he | he | he | he | he)
    · exact .inl he
    · rw [hphase, Phase.rest, ← hsame] at he
      exact .inr (.inl he)
    · rw [hphase] at he
      exact absurd he List.not_mem_nil
    · exact .inr (.inr (.inr (.inl he)))
    · exact .inr (.inr (.inr (.inr (hkept _ he))))
  rw [flushAllStep]
  cases hflush : flushAll fault s.sync.spool with
  | mk outcome spool' =>
      rw [hflush] at htidy hkept
      cases outcome with
      | returned value => exact conserving_same h htidy rfl rfl (hkeeps resume.phase spool' resume.phase_rest hkept)
      | raised =>
          have hfault : fault ≠ none := by
            rintro rfl
            rw [hfaultless] at hflush
            cases (Prod.mk.inj hflush).1
          refine conserving_same h htidy rfl rfl (hkeeps resume.raised spool' ?_ hkept)
          rw [hrest hfault]
          cases resume <;> rfl

theorem conserving_idle {past : List (Op × Reply)} {s : Loop} {op : Op} (h : Conserving config past s)
    (hqueued : queuedEvents [(op, .done)] = []) : Conserving config (past ++ [(op, .done)]) s :=
  conserving_same h h.tidy rfl hqueued (fun _ => id)

theorem addAll_events (hplain : ∀ now event b, (Batching.add config.floatLength config.batch now event b).2.events =
    b.events ++ [event]) (now : Int) (events : List Event) (b : AdaptiveBatcher) :
    (addAll config now events b).events = b.events ++ events := by
  rw [addAll]
  induction events generalizing b with
  | nil => simp
  | cons event events ih => rw [List.foldl_cons, ih, hplain, List.append_assoc, List.singleton_append]

theorem tidy_updateStats {s : Spool} (h : Tidy s) (spool : SpoolConfig) : Tidy (DiskSpool.updateStats spool s) :=
  ⟨h.active_below, h.pending_below, h.owned, h.runs, h.paths, h.copies⟩

theorem conserving_flush {past : List (Op × Reply)} {s : Loop} (h : Conserving config past s) (now : Int)
    (send : SendEnd)
    (hraised : send = .raised → s.phase.rest = []) :
    Conserving config (past ++ [(.flush now send, (step config s (.flush now send)).1)])
      (step config s (.flush now send)).2 := by
  simp only [step]
  cases hphase : s.phase with
  | flushing rest => exact conserving_doFlush h now send (by rw [hphase]; rfl) (by rw [hphase]; rfl) hraised
  | checking =>
      have hleft : ∀ e, Kept config s e → Kept config { s with phase := .top } e :=
        fun e he => by simpa [Kept, hphase, Phase.rest, Phase.todo] using he
      dsimp only
      split
      · exact conserving_doFlush h now send (by rw [hphase]; rfl) (by rw [hphase]; rfl) hraised
      · exact conserving_same h h.tidy rfl rfl hleft
  | closing =>
      have hleft : ∀ e, Kept config s e → Kept config { s with phase := .ended } e :=
        fun e he => by simpa [Kept, hphase, Phase.rest, Phase.todo] using he
      dsimp only
      split
      · exact conserving_same h h.tidy rfl rfl hleft
      · exact conserving_doFlush h now send (by rw [hphase]; rfl) (by rw [hphase]; rfl) hraised
  | top | draining | adding | spooling | ended => exact conserving_idle h rfl

theorem conserving_pass {past : List (Op × Reply)} {s : Loop} (h : Conserving config past s) {op : SyncOp}
    (hdropped : op ≠ .send .dropped) (hmoved : op ≠ .markSynced) :
    Conserving config (past ++ [(.sync op, (step config s (.sync op)).1)]) (step config s (.sync op)).2 := by
  have hstep : SpoolSyncer.step config.spool s.sync op.op = (SpoolSyncer.syncReply op.op s.sync.pass,
      { s.sync with pass := SpoolSyncer.syncStep s.sync.spool.dir op.op s.sync.pass }) := by
    cases op with
    | markSynced => exact absurd rfl hmoved
    | list | read | send | raise | stop => rfl
  have hreply : ∀ path events, SpoolSyncer.syncReply op.op s.sync.pass = .sent path events →
      replayedEvents [(.sync op, .ofSync (SpoolSyncer.syncReply op.op s.sync.pass))] = events := by
    intro path events heq
    rw [heq]
    cases op with
    | send outcome =>
        cases outcome with
        | accepted => exact List.append_nil events
        | dropped => exact absurd rfl hdropped
        | failed => cases heq
    | list | read | markSynced | raise | stop => cases heq
  simp only [step, hstep]
  refine conserving_of h h.tidy ?_ ?_ (fun e he => .inl he)
  · intro path events files heq
    rcases SpoolSyncer.syncStep_sent heq with rfl | hpass | hsent
    · exact List.nil_subset _
    · exact List.Subset.trans (h.replayed path events files hpass) (List.subset_append_left _ _)
    · rw [hreply path events hsent]
      exact List.subset_append_right _ _
  · exact fun e he => absurd he List.not_mem_nil

theorem conserving_markSynced {past : List (Op × Reply)} {s : Loop} (h : Conserving config past s)
    (hread : RenamesRead [] s.sync .markSynced) :
    Conserving config (past ++ [(.sync .markSynced, (step config s (.sync .markSynced)).1)])
      (step config s (.sync .markSynced)).2 := by
  simp only [step, SyncOp.op, SpoolSyncer.step]
  cases hpass : s.sync.pass with
  | sent path events files =>
      simp only [RenamesRead, hpass] at hread
      refine conserving_of h (SpoolSyncer.tidy_markSynced h.tidy path) ?_ ?_ ?_
      · intro path' events' files' heq
        cases heq
      · exact fun e he => absurd he List.not_mem_nil
      · rintro e (he | he | he | he | he)
        · exact .inl (.inl he)
        · exact .inl (.inr (.inl he))
        · exact .inl (.inr (.inr (.inl he)))
        · exact .inl (.inr (.inr (.inr (.inl he))))
        · rcases SpoolSyncer.stored_markSynced h.tidy hread he with he | he
          · exact .inl (.inr (.inr (.inr (.inr he))))
          · exact .inr (answered_append.mpr (.inl (.inr (.inr (h.replayed path events files hpass he)))))
  | idle | next | read => exact conserving_same h h.tidy rfl rfl (fun _ => id)

theorem conserving_put {past : List (Op × Reply)} {s : Loop} (h : Conserving config past s) (event : Event) :
    Conserving config (past ++ [(.put event, (step config s (.put event)).1)]) (step config s (.put event)).2 := by
  refine conserving_of h h.tidy ?_ ?_ ?_
  · exact fun path events files heq => List.Subset.trans (h.replayed path events files heq)
      (List.subset_append_left _ _)
  · intro e he
    obtain ⟨haccepted, rfl⟩ : (put event s.queue).1 = true ∧ event = e := by
      simp only [step] at he
      cases haccepted : (put event s.queue).1 with
      | true => simpa [queuedEvents, haccepted, eq_comm] using he
      | false => simp [queuedEvents, haccepted] at he
    refine .inl ?_
    change event ∈ (put event s.queue).2.events
    rw [put_accepted haccepted]
    exact List.mem_append_right _ (List.mem_singleton_self _)
  · exact fun e he => .inl (he.imp_left mem_put)

theorem conserving_wake {past : List (Op × Reply)} {s : Loop} (h : Conserving config past s) :
    Conserving config (past ++ [(.wake, (step config s .wake).1)]) (step config s .wake).2 := by
  simp only [step]
  cases hphase : s.phase with
  | top => exact conserving_same h h.tidy rfl rfl (fun e he => by simpa [Kept, hphase, Phase.rest, Phase.todo] using he)
  | draining | adding | flushing | checking | closing | spooling | ended => exact conserving_idle h rfl

theorem conserving_getBatch {past : List (Op × Reply)} {s : Loop} (h : Conserving config past s) (arrived : Nat) :
    Conserving config (past ++ [(.getBatch arrived, (step config s (.getBatch arrived)).1)])
      (step config s (.getBatch arrived)).2 := by
  simp only [step]
  cases hphase : s.phase with
  | draining =>
      refine conserving_same h h.tidy rfl rfl (fun e he => ?_)
      rcases he with he | he | he | he
      · rcases (mem_getBatch config.batch.maxItems arrived).mpr he with hbatch | hqueue
        · refine .inr (.inl ?_)
          rw [if_neg]
          · exact hbatch
          · rw [List.isEmpty_iff]
            exact List.ne_nil_of_mem hbatch
        · exact .inl hqueue
      · rw [hphase] at he
        cases he
      · rw [hphase] at he
        cases he
      · exact .inr (.inr (.inr he))
  | top | adding | flushing | checking | closing | spooling | ended => exact conserving_idle h rfl

theorem conserving_add (hplain : ∀ now event b, (Batching.add config.floatLength config.batch now event b).2.events =
    b.events ++ [event]) {past : List (Op × Reply)} {s : Loop} (h : Conserving config past s) (now : Int) :
    Conserving config (past ++ [(.add now, (step config s (.add now)).1)]) (step config s (.add now)).2 := by
  simp only [step]
  cases hphase : s.phase with
  | adding rest =>
      cases rest with
      | nil =>
          refine conserving_same h h.tidy rfl rfl (fun e he => ?_)
          rcases he with he | he | he | he
          · exact .inl he
          · rw [hphase] at he
            cases he
          · rw [hphase] at he
            cases he
          · exact .inr (.inr (.inr he))
      | cons event rest =>
          refine conserving_same h h.tidy rfl rfl (fun e he => ?_)
          have hbatcher := hplain now event s.batcher
          rcases he with he | he | he | he | he
          · exact .inl he
          · rw [hphase] at he
            rcases List.mem_cons.mp he with rfl | he
            · refine .inr (.inr (.inr (.inl ?_)))
              rw [hbatcher]
              exact List.mem_append_right _ (List.mem_singleton_self _)
            · refine .inr (.inl ?_)
              simp only
              split <;> exact he
          · rw [hphase] at he
            cases he
          · refine .inr (.inr (.inr (.inl ?_)))
            rw [hbatcher]
            exact List.mem_append_left _ he
          · exact .inr (.inr (.inr (.inr he)))
  | top | draining | flushing | checking | closing | spooling | ended => exact conserving_idle h rfl

theorem conserving_spool {past : List (Op × Reply)} {s : Loop} (h : Conserving config past s)
    (fault : Option SpoolFault) (hg : Careful config past s (.spool fault)) :
    Conserving config (past ++ [(.spool fault, (step config s (.spool fault)).1)])
      (step config s (.spool fault)).2 := by
  simp only [step]
  cases hphase : s.phase with
  | spooling spooled todo resume =>
      cases todo with
      | nil => exact conserving_idle h rfl
      | cons event todo =>
          apply conserving_spoolStep h fault hphase hg.1
          exact fun hfault => by simpa only [hphase, Phase.rest] using hg.2 hfault
  | top | draining | adding | flushing | checking | closing | ended => exact conserving_idle h rfl

theorem conserving_flushAll {past : List (Op × Reply)} {s : Loop} (h : Conserving config past s)
    (fault : Option Nat) (hg : Careful config past s (.flushAll fault)) :
    Conserving config (past ++ [(.flushAll fault, (step config s (.flushAll fault)).1)])
      (step config s (.flushAll fault)).2 := by
  simp only [step]
  cases hphase : s.phase with
  | spooling spooled todo resume =>
      cases todo with
      | nil =>
          apply conserving_flushAllStep h fault hphase
          exact fun hfault => by simpa only [hphase, Phase.rest] using hg hfault
      | cons event todo => exact conserving_idle h rfl
  | top | draining | adding | flushing | checking | closing | ended => exact conserving_idle h rfl

theorem conserving_shutdown (hplain : ∀ now event b,
    (Batching.add config.floatLength config.batch now event b).2.events =
    b.events ++ [event]) {past : List (Op × Reply)} {s : Loop} (h : Conserving config past s) (now : Int) :
    Conserving config (past ++ [(.shutdown now, (step config s (.shutdown now)).1)])
      (step config s (.shutdown now)).2 := by
  simp only [step]
  cases hphase : s.phase with
  | top =>
      refine conserving_same h h.tidy rfl rfl (fun e he => ?_)
      have hbatcher := addAll_events hplain now s.queue.events s.batcher
      rcases he with he | he | he | he | he
      · refine .inr (.inr (.inr (.inl ?_)))
        exact hbatcher.symm ▸ List.mem_append_right _ he
      · rw [hphase] at he
        cases he
      · rw [hphase] at he
        cases he
      · refine .inr (.inr (.inr (.inl ?_)))
        exact hbatcher.symm ▸ List.mem_append_left _ he
      · exact .inr (.inr (.inr (.inr he)))
  | draining | adding | flushing | checking | closing | spooling | ended => exact conserving_idle h rfl

theorem conserving_stop {past : List (Op × Reply)} {s : Loop} (h : Conserving config past s) (fault : Option Nat) :
    Conserving config (past ++ [(.stop fault, (step config s (.stop fault)).1)]) (step config s (.stop fault)).2 := by
  obtain ⟨htidy, hkept⟩ := flushAll_spec fault h.tidy
  exact conserving_same h htidy rfl rfl
    (fun e he => he.imp_right (Or.imp_right (Or.imp_right (Or.imp_right (hkept _)))))

theorem conserving_step (hplain : ∀ now event b, (Batching.add config.floatLength config.batch now event b).2.events =
    b.events ++ [event]) (past : List (Op × Reply)) (s : Loop) (op : Op) (h : Conserving config past s)
    (hg : Careful config past s op) :
      Conserving config (past ++ [(op, (step config s op).1)]) (step config s op).2 := by
  cases op with
  | put event => exact conserving_put h event
  | wake => exact conserving_wake h
  | getBatch arrived => exact conserving_getBatch h arrived
  | add now => exact conserving_add hplain h now
  | flush now send => exact conserving_flush h now send hg
  | spool fault => exact conserving_spool h fault hg
  | flushAll fault => exact conserving_flushAll h fault hg
  | shutdown now => exact conserving_shutdown hplain h now
  | stop fault => exact conserving_stop h fault
  | stats => exact conserving_same h (tidy_updateStats h.tidy config.spool) rfl rfl (fun _ => id)
  | sync op =>
      by_cases hmarked : op = .markSynced
      · subst hmarked
        exact conserving_markSynced h hg.2
      · exact conserving_pass h hg.1 hmarked

/-- Every queued event is accounted for after each turn of the loop and at its
end, in a run in which no call raises while events wait to be added. -/
theorem conserved_of_careful (config : LoopConfig) (hmetrics : config.batch.coalesceMetrics = false)
    (hparams : config.batch.dedupeParams = false) (htags : config.batch.dedupeTags = false) (maxSize : Int)
    (contents : List (List DiskSpool.Event)) (ops : List Op)
    (hg : Guarded (step config) (Careful config) [] (.start maxSize contents) ops)
    (hphase : (after (step config) (.start maxSize contents) ops).phase = .top ∨
      (after (step config) (.start maxSize contents) ops).phase = .ended) :
    Conserved config (history (step config) (.start maxSize contents) ops)
      (after (step config) (.start maxSize contents) ops) := by
  have hstart : Conserving config [] (.start maxSize contents) :=
    ⟨(SpoolSyncer.kept_start contents).tidy, nofun, fun _ h => absurd h List.not_mem_nil⟩
  have h := invariant_history (Conserving config) (conserving_step (add_events_of_plain hmetrics hparams htags)) []
    (.start maxSize contents) ops hstart hg
  have hidle : (after (step config) (.start maxSize contents) ops).phase.rest = [] ∧
      (after (step config) (.start maxSize contents) ops).phase.todo = [] := by
    rcases hphase with hphase | hphase <;> simp only [hphase] <;> exact ⟨rfl, rfl⟩
  intro e he
  rcases h.conserved e he with (he | he | he | he | he) | he | he | he
  · exact .inl he
  · rw [hidle.1] at he
    exact absurd he List.not_mem_nil
  · rw [hidle.2] at he
    exact absurd he List.not_mem_nil
  · exact .inr (.inl he)
  · exact .inr (.inr (.inl he))
  · exact .inr (.inr (.inr (.inl he)))
  · exact .inr (.inr (.inr (.inr (.inr he))))
  · exact .inr (.inr (.inr (.inr (.inl he))))

instance (past : List (Op × Reply)) (s : Loop) (op : Op) : Decidable (Careful config past s op) := by
  unfold Careful
  split <;> infer_instance

instance (past : List (Op × Reply)) (s : Loop) : Decidable (Conserved config past s) :=
  inferInstanceAs (Decidable (∀ e ∈ queuedEvents past, _))

def single : LoopConfig where
  batch := ⟨10, 1, 1000, false, false, false⟩
  spool := DiskSpool.unitLengths
  floatLength := fun _ => 0
  dumps := fun _ => ""

def metricAt (step : Int) : Event := ⟨.metric, "run", 0, [("name", .str "loss"), ("step", .int step)]⟩

def twoQueued : List Op := [.put (metricAt 1), .put (metricAt 2), .wake, .getBatch 2, .add 0]

theorem conserved_raised_last :
    Conserved single
      (history (step single) (.start 0 []) (twoQueued ++ [.flush 0 .accepted, .add 0, .flush 0 .raised]))
      (after (step single) (.start 0 []) (twoQueued ++ [.flush 0 .accepted, .add 0, .flush 0 .raised])) :=
  conserved_of_careful single rfl rfl rfl 0 [] _ (by decide) (by decide)

theorem waiting_event_lost :
    (after (step single) (.start 0 []) (twoQueued ++ [.flush 0 .raised])).phase = .top ∧
      ¬ Conserved single (history (step single) (.start 0 []) (twoQueued ++ [.flush 0 .raised]))
        (after (step single) (.start 0 []) (twoQueued ++ [.flush 0 .raised])) := by
  decide

end MLRunX.WorkerLoop
