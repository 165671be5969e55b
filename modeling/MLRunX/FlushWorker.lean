import MLRunX.SpoolReplay
import MLRunX.SpoolSyncer

namespace MLRunX.FlushWorker

open DiskSpool Runs
open SpoolReplay (ConnectionState TransportError isTerminalSpoolError sendBatch sendLoop Attempt)
open SpoolSyncer (Pass Sync)

structure Sending where
  events : List Event
  retriesLeft : Nat
  deriving DecidableEq, Repr

/-- A worker with its syncer. `replaying` holds the retries that are left to the
send of the file that the syncer has read, once it has begun. -/
structure Worker where
  conn : ConnectionState
  batcher : List Event
  flushing : Option Sending
  replaying : Option Nat
  sync : Sync

def Worker.start (contents : List (List Event)) : Worker := ⟨{}, [], none, none, .start contents⟩

inductive Op
  | add (event : Event)
  | flush
  | call (result : Except TransportError Unit)
  | setOffline
  | stats
  | list
  | read
  | replay
  | replayCall (result : Except TransportError Unit)
  | markSynced
  | raise
  | stop

structure WorkerConfig where
  maxRetries : Nat
  spool : SpoolConfig

variable (config : WorkerConfig)

def Worker.syncOp (s : Worker) (op : SpoolSyncer.Op) : Worker :=
  { s with sync := (SpoolSyncer.step config.spool s.sync op).2 }

def spoolOps (events : List Event) : List SpoolSyncer.Op := events.map .spool ++ [.flushAll]

def Worker.spoolEvents (s : Worker) (events : List Event) : Worker :=
  { s with sync := after (SpoolSyncer.step config.spool) s.sync (spoolOps events) }

def flush (s : Worker) : Worker :=
  match s.flushing, s.batcher with
  | none, event :: events =>
      let s := { s with batcher := [] }
      if s.conn.online then { s with flushing := some ⟨event :: events, config.maxRetries⟩ }
      else s.spoolEvents config (event :: events)
  | _, _ => s

/-- What the answer to a call means for a send: it is over, or goes on with
fewer retries. -/
inductive Verdict
  | delivered
  | dropped
  | retry (retriesLeft : Nat)
  | failed
  deriving DecidableEq, Repr

def verdict (replaying : Bool) (retriesLeft : Nat) : Except TransportError Unit → Verdict
  | .ok () => .delivered
  | .error e =>
      if replaying && isTerminalSpoolError e then .dropped
      else match retriesLeft with
        | 0 => .failed
        | left + 1 => if e.retryable then .retry left else .failed

def Verdict.record : Verdict → ConnectionState → ConnectionState
  | .delivered, conn | .dropped, conn => conn.recordSuccess
  | .retry _, conn | .failed, conn => conn.recordFailure

def call (result : Except TransportError Unit) (s : Worker) : Worker :=
  match s.flushing with
  | none => s
  | some sending =>
      let v := verdict false sending.retriesLeft result
      let s := { s with conn := v.record s.conn }
      match v with
      | .delivered | .dropped => { s with flushing := none }
      | .retry left => { s with flushing := some { sending with retriesLeft := left } }
      | .failed => { s.spoolEvents config sending.events with flushing := none }

def replay (s : Worker) : Worker :=
  match s.sync.pass, s.replaying with
  | .read _ _ _, none =>
      if s.conn.online then { s with replaying := some config.maxRetries } else s.syncOp config (.send false)
  | _, _ => s

def replayCall (result : Except TransportError Unit) (s : Worker) : SpoolSyncer.Reply × Worker :=
  match s.sync.pass, s.replaying with
  | .read path events _, some left =>
      let v := verdict true left result
      let s := { s with conn := v.record s.conn }
      match v with
      | .delivered => (.sent path events, { s.syncOp config (.send true) with replaying := none })
      | .dropped => (.done, { s.syncOp config (.send true) with replaying := none })
      | .retry left => (.done, { s with replaying := some left })
      | .failed => (.done, { s.syncOp config (.send false) with replaying := none })
  | _, _ => (.done, s)

def step : Machine Worker Op SpoolSyncer.Reply
  | s, .add event => (.done, if s.flushing.isSome then s else { s with batcher := s.batcher ++ [event] })
  | s, .flush => (.done, flush config s)
  | s, .call result => (.done, call config result s)
  | s, .setOffline => (.done, { s with conn := s.conn.setOffline })
  | s, .stats => (.done, s.syncOp config .updateStats)
  | s, .list => (.done, if s.conn.online then s.syncOp config .list else s)
  | s, .read => (.done, match s.sync.pass with
      | .next _ => { s.syncOp config .read with replaying := none }
      | _ => s)
  | s, .replay => (.done, replay config s)
  | s, .replayCall result => replayCall config result s
  | s, .markSynced => (.done, s.syncOp config .markSynced)
  | s, .raise => (.done, match s.sync.pass, s.replaying with
      | .read _ _ _, some _ => s
      | _, _ => s.syncOp config .raise)
  | s, .stop => (.done, s.syncOp config .stop)

def Worker.Replaying (s : Worker) : Prop :=
  s.replaying ≠ none ∧ ∃ path events files, s.sync.pass = .read path events files

def Worker.Sends (s : Worker) : Prop := s.flushing ≠ none ∨ s.Replaying

/-- The worker is offline, and nothing that is on its way can change that. -/
def Worker.Trapped (s : Worker) : Prop := s.conn.online = false ∧ ¬ s.Sends

/-- What the program does by itself when the transport succeeds from now on. -/
def Serving (s : Worker) : Op → Prop
  | .flush | .list | .read | .replay | .markSynced => True
  | .call result | .replayCall result => result = .ok ()
  | .stop => s.sync.pass = .next []
  | .add _ | .setOffline | .stats | .raise => False

def sentPath : SpoolSyncer.Reply → List Path
  | .sent path _ => [path]
  | _ => []

/-- A finite continuation with a transport that succeeds, and the files it sends. -/
inductive Continues : Worker → List Path → Worker → Prop
  | refl (s) : Continues s [] s
  | step {s sent t} (op) (hserves : Serving s op) (h : Continues (step config s op).2 sent t) :
      Continues s (sentPath (step config s op).1 ++ sent) t

def Worker.Sent (s : Worker) (path : Path) : Prop := ∃ events files, s.sync.pass = .sent path events files

/-- The connection can come back and every file that waits on disk be sent. -/
def Recoverable (s : Worker) : Prop :=
  ∃ sent t, Continues config s sent t ∧ t.conn.online = true ∧ t.sync.spool.dir.pending = [] ∧
    ∀ entry ∈ s.sync.spool.dir.pending, SpoolSyncer.readEvents entry.1 s.sync.spool.dir = [] ∨
      entry.1 ∈ sent ∨ s.Sent entry.1

variable {config}

theorem sync_read {s : Sync} {op : SpoolSyncer.Op} (hop : op ≠ .read) {path : Path} {events : List Event}
    {files : List Path} (h : (SpoolSyncer.step config.spool s op).2.pass = .read path events files) :
    s.pass = .read path events files := by
  cases op with
  | spool | flushAll | updateStats => exact h
  | read => exact absurd rfl hop
  | send success =>
      simp only [SpoolSyncer.step, SpoolSyncer.syncStep] at h
      cases hpass : s.pass <;> cases success <;> rw [hpass] at h <;> cases h
  | markSynced =>
      simp only [SpoolSyncer.step] at h
      split at h
      · cases h
      · exact h
  | list | raise | stop =>
      simp only [SpoolSyncer.step, SpoolSyncer.syncStep] at h
      cases hpass : s.pass with
      | next files => cases files <;> rw [hpass] at h <;> cases h
      | idle | read | sent =>
          rw [hpass] at h
          cases h <;> rfl

theorem spoolOps_pass (events : List Event) (s : Sync) :
    (after (SpoolSyncer.step config.spool) s (spoolOps events)).pass = s.pass := by
  rw [spoolOps, after_concat]
  change (after (SpoolSyncer.step config.spool) s (events.map .spool)).pass = s.pass
  induction events generalizing s with
  | nil => rfl
  | cons event events ih => exact ih _

theorem not_replaying_syncOp {s : Worker} (h : ¬ s.Replaying) {op : SpoolSyncer.Op} (hop : op ≠ .read) :
    ¬ (s.syncOp config op).Replaying := by
  rintro ⟨hsome, path, events, files, hpass⟩
  exact h ⟨hsome, path, events, files, sync_read hop hpass⟩

theorem not_replaying_spoolEvents {s : Worker} (h : ¬ s.Replaying) (events : List Event) :
    ¬ (s.spoolEvents config events).Replaying := by
  rintro ⟨hsome, path, evs, files, hpass⟩
  exact h ⟨hsome, path, evs, files, (spoolOps_pass events s.sync).symm.trans hpass⟩

theorem not_sends {s : Worker} (h : ¬ s.Sends) : s.flushing = none ∧ ¬ s.Replaying :=
  ⟨not_not.mp (fun hf => h (.inl hf)), fun hr => h (.inr hr)⟩

theorem trapped_step {s : Worker} (h : s.Trapped) (op : Op) : (step config s op).2.Trapped := by
  obtain ⟨hoffline, hsends⟩ := h
  obtain ⟨hflushing, hreplaying⟩ := not_sends hsends
  have hsync : ∀ op, op ≠ .read → (s.syncOp config op).Trapped :=
    fun op hop => ⟨hoffline, fun hs => hs.elim (fun hf => hf hflushing) (not_replaying_syncOp hreplaying hop)⟩
  cases op with
  | add event =>
      simp only [step, hflushing, Option.isSome_none, Bool.false_eq_true, if_false]
      exact ⟨hoffline, fun hs => hs.elim (fun hf => hf rfl) hreplaying⟩
  | flush =>
      simp only [step, flush, hflushing]
      cases s.batcher with
      | nil => exact ⟨hoffline, hsends⟩
      | cons event events =>
          simp only [hoffline, Bool.false_eq_true, if_false]
          exact ⟨hoffline, fun hs => hs.elim (fun hf => hf rfl) (not_replaying_spoolEvents hreplaying _)⟩
  | call result =>
      simp only [step, call, hflushing]
      exact ⟨hoffline, hsends⟩
  | setOffline => exact ⟨rfl, hsends⟩
  | stats => exact hsync _ nofun
  | list =>
      simp only [step, hoffline, Bool.false_eq_true, if_false]
      exact ⟨hoffline, hsends⟩
  | read =>
      simp only [step]
      split
      · exact ⟨hoffline, fun hs => hs.elim (fun hf => hf hflushing) (fun hr => hr.1 rfl)⟩
      · exact ⟨hoffline, hsends⟩
  | replay =>
      simp only [step, replay]
      split
      · simp only [hoffline, Bool.false_eq_true, if_false]
        exact hsync _ nofun
      · exact ⟨hoffline, hsends⟩
  | replayCall result =>
      simp only [step, replayCall]
      split
      · rename_i hpass hsome
        exact absurd ⟨by rw [hsome]; exact nofun, _, _, _, hpass⟩ hreplaying
      · exact ⟨hoffline, hsends⟩
  | markSynced => exact hsync _ nofun
  | raise =>
      simp only [step]
      split
      · exact ⟨hoffline, hsends⟩
      · exact hsync _ nofun
  | stop => exact hsync _ nofun

theorem trapped_continues {s t : Worker} {sent : List Path} (h : Continues config s sent t) (hs : s.Trapped) :
    t.Trapped := by
  induction h with
  | refl => exact hs
  | step op _ _ ih => exact ih (trapped_step hs op)

theorem Continues.trans {s t u : Worker} {sent sent' : List Path} (h : Continues config s sent t)
    (h' : Continues config t sent' u) : Continues config s (sent ++ sent') u := by
  induction h with
  | refl => exact h'
  | step op hserves _ ih =>
      rw [List.append_assoc]
      exact .step op hserves (ih h')

structure Drains (config : WorkerConfig) (s : Worker) (gone sent : List Path) (t : Worker) : Prop where
  continues : Continues config s sent t
  online : t.conn.online = true
  idle : t.sync.pass = .idle
  pending : t.sync.spool.dir.pending = s.sync.spool.dir.pending.filter (fun entry => !gone.contains entry.1)
  reason : ∀ path ∈ gone, SpoolSyncer.readEvents path s.sync.spool.dir = [] ∨ path ∈ sent ∨ s.Sent path

variable (config) in
theorem drains_stop {s : Worker} (honline : s.conn.online = true) (hpass : s.sync.pass = .next []) :
    ∃ t, Drains config s [] [] t := by
  refine ⟨(step config s .stop).2, .step .stop hpass (.refl _), honline, ?_, ?_, nofun⟩
  · simp only [step, Worker.syncOp, SpoolSyncer.step, SpoolSyncer.syncStep, hpass]
  · simp [step, Worker.syncOp, SpoolSyncer.step]

theorem drains_markSynced {s t : Worker} {path : Path} {events : List Event} {files gone sent : List Path}
    (hpass : s.sync.pass = .sent path events files) (h : Drains config (step config s .markSynced).2 gone sent t) :
    Drains config s (path :: gone) sent t := by
  have hsync : (step config s .markSynced).2.sync =
      ⟨{ s.sync.spool with dir := markSynced path s.sync.spool.dir }, .next files⟩ := by
    simp only [step, Worker.syncOp, SpoolSyncer.step, hpass]
  refine ⟨.step .markSynced trivial h.continues, h.online, h.idle, ?_, ?_⟩
  · rw [h.pending, hsync]
    simp only [markSynced, List.filter_filter]
    apply List.filter_congr
    intro entry _
    by_cases heq : entry.1 = path <;> simp [heq]
  · intro q hq
    by_cases heq : q = path
    · exact .inr (.inr (heq ▸ ⟨events, files, hpass⟩))
    · have hgone := (List.mem_cons.mp hq).resolve_left heq
      rcases h.reason q hgone with hread | hsent | ⟨_, _, hsent⟩
      · rw [hsync] at hread
        exact .inl ((SpoolSyncer.readEvents_markSynced heq s.sync.spool.dir).symm.trans hread)
      · exact .inr (.inl hsent)
      · rw [hsync] at hsent
        cases hsent

theorem drains_step {s t : Worker} (op : Op) {gone sent : List Path} (hserves : Serving s op)
    (hdir : (step config s op).2.sync.spool = s.sync.spool)
    (hsent : ∀ path, (step config s op).2.Sent path → SpoolSyncer.readEvents path s.sync.spool.dir = [] ∨
      path ∈ sentPath (step config s op).1 ∨ s.Sent path)
    (h : Drains config (step config s op).2 gone sent t) :
    Drains config s gone (sentPath (step config s op).1 ++ sent) t := by
  refine ⟨.step op hserves h.continues, h.online, h.idle, by rw [h.pending, hdir], ?_⟩
  intro path hpath
  rcases h.reason path hpath with hread | hm | hpass
  · exact .inl (hdir ▸ hread)
  · exact .inr (.inl (List.mem_append_right _ hm))
  · rcases hsent path hpass with hread | hm | hpass
    · exact .inl hread
    · exact .inr (.inl (List.mem_append_left _ hm))
    · exact .inr (.inr hpass)

variable (config) in
theorem replayCall_ok {s : Worker} {path : Path} {events : List Event} {files : List Path} {left : Nat}
    (hpass : s.sync.pass = .read path events files) (hleft : s.replaying = some left) :
    step config s (.replayCall (.ok ())) = (.sent path events,
      { s with conn := s.conn.recordSuccess, replaying := none, sync :=
        ⟨s.sync.spool, .sent path events files⟩ }) := by
  simp only [step, replayCall, hpass, hleft, verdict, Verdict.record, Worker.syncOp, SpoolSyncer.step,
    SpoolSyncer.syncStep]

theorem drains_replayCall {s t : Worker} {path : Path} {events : List Event} {files gone sent : List Path}
    {left : Nat}
    (hpass : s.sync.pass = .read path events files) (hleft : s.replaying = some left)
    (h : Drains config (step config s (.replayCall (.ok ()))).2 gone sent t) :
    Drains config s gone (path :: sent) t := by
  have hcall := replayCall_ok config hpass hleft
  have hdrains := drains_step (.replayCall (.ok ())) rfl (by rw [hcall]) ?_ h
  · rwa [hcall] at hdrains
  · intro q hq
    rw [hcall] at hq ⊢
    obtain ⟨_, _, hq⟩ := hq
    injection hq with hq
    exact .inr (.inl (List.mem_singleton.mpr hq.symm))

theorem drains_replay {s : Worker} {path : Path} {events : List Event} {files : List Path}
    (honline : s.conn.online = true) (hpass : s.sync.pass = .read path events files)
    (h : ∀ s' : Worker, s'.conn.online = true → s'.sync = ⟨s.sync.spool, .sent path events files⟩ →
      ∃ gone sent t, Drains config s' gone sent t ∧ files ⊆ gone ∧ path ∈ gone) :
    ∃ gone sent t, Drains config s gone sent t ∧ files ⊆ gone ∧ path ∈ gone := by
  have hcall : ∀ s : Worker, s.sync.pass = .read path events files → ∀ left, s.replaying = some left →
      (∀ s' : Worker, s'.conn.online = true → s'.sync = ⟨s.sync.spool, .sent path events files⟩ →
        ∃ gone sent t, Drains config s' gone sent t ∧ files ⊆ gone ∧ path ∈ gone) →
      ∃ gone sent t, Drains config s gone sent t ∧ files ⊆ gone ∧ path ∈ gone := by
    intro s hpass left hleft h
    have hnext := replayCall_ok config hpass hleft
    obtain ⟨gone, sent, t, hdrains, hgone⟩ := h (step config s (.replayCall (.ok ()))).2
      (by rw [hnext]; rfl) (by rw [hnext])
    exact ⟨gone, _, t, drains_replayCall hpass hleft hdrains, hgone⟩
  cases hleft : s.replaying with
  | some left => exact hcall s hpass left hleft h
  | none =>
      have hbegin : step config s .replay = (.done, { s with replaying := some config.maxRetries }) := by
        simp only [step, replay, hpass, hleft, honline, if_true]
      obtain ⟨gone, sent, t, hdrains, hgone⟩ := hcall { s with replaying := some config.maxRetries } hpass _ rfl h
      refine ⟨gone, _, t, drains_step .replay trivial (by rw [hbegin]) ?_ (by rw [hbegin]; exact hdrains), hgone⟩
      intro q hq
      rw [hbegin] at hq
      exact .inr (.inr hq)

variable (config) in
theorem drains_next (files : List Path) (s : Worker) (honline : s.conn.online = true)
    (hpass : s.sync.pass = .next files) : ∃ gone sent t, Drains config s gone sent t ∧ files ⊆ gone := by
  induction files generalizing s with
  | nil =>
      obtain ⟨t, h⟩ := drains_stop config honline hpass
      exact ⟨[], [], t, h, List.nil_subset _⟩
  | cons path files ih =>
      have hmark : ∀ (events : List Event) (s' : Worker), s'.conn.online = true →
          s'.sync.pass = .sent path events files →
          ∃ gone sent t, Drains config s' gone sent t ∧ files ⊆ gone ∧ path ∈ gone := by
        intro events s' honline' hsent
        obtain ⟨gone, sent, t, h, hsub⟩ := ih (step config s' .markSynced).2 honline'
          (by simp only [step, Worker.syncOp, SpoolSyncer.step, hsent])
        exact ⟨path :: gone, sent, t, drains_markSynced hsent h, List.subset_cons_of_subset _ hsub,
          List.mem_cons_self⟩
      have hread : step config s .read = (.done, { s.syncOp config .read with replaying := none }) := by
        simp only [step, hpass]
      have hstep : ∀ {gone sent t}, Drains config (step config s .read).2 gone sent t →
          (∀ q, (step config s .read).2.Sent q → SpoolSyncer.readEvents q s.sync.spool.dir = []) →
          Drains config s gone sent t := by
        intro gone sent t h hsent
        have hdrains := drains_step .read trivial (by rw [hread]; rfl) (fun q hq => .inl (hsent q hq)) h
        rwa [hread] at hdrains
      have honline' : (step config s .read).2.conn.online = true := by
        rw [hread]
        exact honline
      cases hempty : (SpoolSyncer.readEvents path s.sync.spool.dir).isEmpty with
      | true =>
          have hsync : (step config s .read).2.sync =
              ⟨s.sync.spool, .sent path (SpoolSyncer.readEvents path s.sync.spool.dir) files⟩ := by
            simp only [hread, Worker.syncOp, SpoolSyncer.step, SpoolSyncer.syncStep, hpass, hempty, if_true]
          obtain ⟨gone, sent, t, h, hsub, hm⟩ := hmark _ (step config s .read).2 honline' (by rw [hsync])
          refine ⟨gone, sent, t, hstep h ?_, List.cons_subset.mpr ⟨hm, hsub⟩⟩
          rintro q ⟨_, _, hq⟩
          rw [hsync] at hq
          injection hq with hq
          exact hq ▸ List.isEmpty_iff.mp hempty
      | false =>
          have hsync : (step config s .read).2.sync =
              ⟨s.sync.spool, .read path (SpoolSyncer.readEvents path s.sync.spool.dir) files⟩ := by
            simp only [hread, Worker.syncOp, SpoolSyncer.step, SpoolSyncer.syncStep, hpass, hempty,
              Bool.false_eq_true, if_false]
          obtain ⟨gone, sent, t, h, hsub, hm⟩ :=
            drains_replay (s := (step config s .read).2) honline' (by rw [hsync])
            (fun s' honline' hsent => hmark _ s' honline' (by rw [hsent]))
          refine ⟨gone, sent, t, hstep h ?_, List.cons_subset.mpr ⟨hm, hsub⟩⟩
          rintro q ⟨_, _, hq⟩
          rw [hsync] at hq
          cases hq

variable (config) in
theorem drains_pass {s : Worker} (honline : s.conn.online = true) :
    ∃ gone sent t, Drains config s gone sent t := by
  have hmark : ∀ (path : Path) (events : List Event) (files : List Path) (s' : Worker), s'.conn.online = true →
      s'.sync.pass = .sent path events files → ∃ gone sent t, Drains config s' gone sent t ∧ files ⊆ gone ∧
        path ∈ gone := by
    intro path events files s' honline' hsent
    obtain ⟨gone, sent, t, h, hsub⟩ := drains_next config files (step config s' .markSynced).2 honline'
      (by simp only [step, Worker.syncOp, SpoolSyncer.step, hsent])
    exact ⟨path :: gone, sent, t, drains_markSynced hsent h, List.subset_cons_of_subset _ hsub, List.mem_cons_self⟩
  cases hpass : s.sync.pass with
  | idle => exact ⟨[], [], s, .refl s, honline, hpass, by simp, fun _ h => absurd h List.not_mem_nil⟩
  | next files =>
      obtain ⟨gone, sent, t, h, -⟩ := drains_next config files s honline hpass
      exact ⟨gone, sent, t, h⟩
  | read path events files =>
      obtain ⟨gone, sent, t, h, -⟩ := drains_replay honline hpass
        (fun s' honline' hsent => hmark path events files s' honline' (by rw [hsent]))
      exact ⟨gone, sent, t, h⟩
  | sent path events files =>
      obtain ⟨gone, sent, t, h, -⟩ := hmark path events files s honline hpass
      exact ⟨gone, sent, t, h⟩

variable (config) in
theorem drains_all {s : Worker} (honline : s.conn.online = true) (hidle : s.sync.pass = .idle) :
    ∃ gone sent t, Drains config s gone sent t ∧ s.sync.spool.dir.pending.map Prod.fst ⊆ gone := by
  have hlist : step config s .list = (.done,
      { s with sync := ⟨s.sync.spool, .next (s.sync.spool.dir.pending.map Prod.fst)⟩ }) := by
    simp only [step, honline, if_true, Worker.syncOp, SpoolSyncer.step, SpoolSyncer.syncStep, hidle]
  obtain ⟨gone, sent, t, h, hsub⟩ := drains_next config (s.sync.spool.dir.pending.map Prod.fst)
    { s with sync := ⟨s.sync.spool, .next (s.sync.spool.dir.pending.map Prod.fst)⟩ } honline rfl
  refine ⟨gone, _, t, drains_step .list trivial (by rw [hlist]) ?_ (by rw [hlist]; exact h), hsub⟩
  rintro q ⟨_, _, hq⟩
  rw [hlist] at hq
  cases hq

theorem recoverable_of_online {s : Worker} (honline : s.conn.online = true) : Recoverable config s := by
  obtain ⟨gone, sent, t, h⟩ := drains_pass config honline
  obtain ⟨gone', sent', u, h', hall⟩ := drains_all config h.online h.idle
  refine ⟨sent ++ sent', u, h.continues.trans h'.continues, h'.online, ?_, ?_⟩
  · rw [h'.pending, List.filter_eq_nil_iff]
    intro entry hm
    have hgone := hall (List.mem_map_of_mem hm)
    simpa using hgone
  · intro entry hm
    by_cases hgone : entry.1 ∈ gone
    · rcases h.reason entry.1 hgone with hread | hsent | hpass
      · exact .inl hread
      · exact .inr (.inl (List.mem_append_left _ hsent))
      · exact .inr (.inr hpass)
    · have hstill : entry ∈ t.sync.spool.dir.pending := by
        rw [h.pending]
        exact List.mem_filter.mpr ⟨hm, by simpa using hgone⟩
      rcases h'.reason entry.1 (hall (List.mem_map_of_mem hstill)) with hread | hsent | ⟨_, _, hpass⟩
      · refine .inl ?_
        rw [← hread, SpoolSyncer.readEvents, SpoolSyncer.readEvents, h.pending, List.find?_filter]
        congr 3
        funext found
        by_cases heq : found.1 = entry.1
        · simp [heq, hgone]
        · simp [heq]
      · exact .inr (.inl (List.mem_append_right _ hsent))
      · rw [h.idle] at hpass
        cases hpass

theorem recoverable_step {s : Worker} (op : Op) (hserves : Serving s op)
    (hdir : (step config s op).2.sync.spool = s.sync.spool)
    (hsent : ∀ path, (step config s op).2.Sent path → path ∈ sentPath (step config s op).1 ∨ s.Sent path)
    (h : Recoverable config (step config s op).2) : Recoverable config s := by
  obtain ⟨sent, t, hcontinues, honline, hempty, hall⟩ := h
  refine ⟨_, t, .step op hserves hcontinues, honline, hempty, fun entry hm => ?_⟩
  rw [hdir] at hall
  rcases hall entry hm with hread | hm | hpass
  · exact .inl hread
  · exact .inr (.inl (List.mem_append_right _ hm))
  · exact .inr ((hsent entry.1 hpass).imp_left (List.mem_append_left _))

theorem recoverable_iff (s : Worker) : Recoverable config s ↔ ¬ s.Trapped := by
  constructor
  · rintro ⟨sent, t, hcontinues, honline, -⟩ htrapped
    have hoffline := (trapped_continues hcontinues htrapped).1
    rw [honline] at hoffline
    cases hoffline
  · intro hfree
    cases honline : s.conn.online with
    | true => exact recoverable_of_online honline
    | false =>
        rcases not_not.mp (fun hsends => hfree ⟨honline, hsends⟩) with hflushing |
          ⟨hsome, path, events, files, hpass⟩
        · obtain ⟨sending, hsending⟩ := Option.ne_none_iff_exists'.mp hflushing
          have hcall : step config s (.call (.ok ())) =
              (.done, { s with conn := s.conn.recordSuccess, flushing := none }) := by
            simp only [step, call, hsending, verdict, Verdict.record]
          refine recoverable_step (.call (.ok ())) rfl (by rw [hcall]) ?_ (recoverable_of_online (by rw [hcall]; rfl))
          intro q hq
          rw [hcall] at hq
          exact .inr hq
        · obtain ⟨left, hleft⟩ := Option.ne_none_iff_exists'.mp hsome
          have hcall := replayCall_ok config hpass hleft
          refine recoverable_step (.replayCall (.ok ())) rfl (by rw [hcall]) ?_
            (recoverable_of_online (by rw [hcall]; rfl))
          rintro q ⟨_, _, hq⟩
          rw [hcall] at hq ⊢
          injection hq with hq
          exact .inl (List.mem_singleton.mpr hq.symm)

/-- The answers to the calls of one send, whether it succeeds, and the
connection before and after. -/
inductive Send (replaying : Bool) :
    Nat → ConnectionState → List (Except TransportError Unit) → Bool → ConnectionState → Prop
  | delivered {left conn result} (h : verdict replaying left result = .delivered) :
      Send replaying left conn [result] true conn.recordSuccess
  | dropped {left conn result} (h : verdict replaying left result = .dropped) :
      Send replaying left conn [result] true conn.recordSuccess
  | failed {left conn result} (h : verdict replaying left result = .failed) :
      Send replaying left conn [result] false conn.recordFailure
  | retry {left left' conn conn' result results success} (h : verdict replaying left result = .retry left')
      (hrest : Send replaying left' conn.recordFailure results success conn') :
      Send replaying left conn (result :: results) success conn'

theorem send_sendLoop (replaying : Bool) (runId : String) (status : Option String) (count left : Nat)
    (attempts : List Attempt) (conn : ConnectionState) : ∃ results : List (Except TransportError Unit),
      (∀ r ∈ results, ∃ attempt, r = sendBatch runId status attempt) ∧
        Send replaying left conn results (sendLoop replaying runId status count left attempts conn).1.success
          (sendLoop replaying runId status count left attempts conn).2 := by
  induction left generalizing attempts conn with
  | zero =>
      refine ⟨[sendBatch runId status (attempts.headD .unreachable)], fun r hr =>
        ⟨_, List.mem_singleton.mp hr⟩, ?_⟩
      rw [sendLoop]
      cases hanswer : sendBatch runId status (attempts.headD .unreachable) with
      | ok => exact .delivered rfl
      | error e =>
          cases hterminal : replaying && isTerminalSpoolError e with
          | true =>
              have hverdict : verdict replaying 0 (.error e) =
                .dropped := by simp only [verdict, hterminal, if_true]
              simp only [hterminal, if_true]
              exact .dropped hverdict
          | false =>
              have hverdict : verdict replaying 0 (.error e) = .failed := by
                simp only [verdict, hterminal, Bool.false_eq_true, if_false]
              simp only [hterminal, Bool.false_eq_true, if_false]
              exact .failed hverdict
  | succ left ih =>
      rw [sendLoop]
      cases hanswer : sendBatch runId status (attempts.headD .unreachable) with
      | ok => exact ⟨[.ok ()], fun r hr => ⟨_, (List.mem_singleton.mp hr).trans hanswer.symm⟩, .delivered rfl⟩
      | error e =>
          have hone : ∀ r ∈ [Except.error e], ∃ attempt, r = sendBatch runId status attempt :=
            fun r hr => ⟨_, (List.mem_singleton.mp hr).trans hanswer.symm⟩
          cases hterminal : replaying && isTerminalSpoolError e with
          | true =>
              have hverdict : verdict replaying (left + 1) (.error e) = .dropped := by
                simp only [verdict, hterminal, if_true]
              refine ⟨_, hone, ?_⟩
              simp only [hterminal, if_true]
              exact .dropped hverdict
          | false =>
              cases hretry : e.retryable with
              | false =>
                  have hverdict : verdict replaying (left + 1) (.error e) = .failed := by
                    simp only [verdict, hterminal, hretry, Bool.false_eq_true, if_false]
                  refine ⟨_, hone, ?_⟩
                  simp only [hterminal, hretry, Bool.false_eq_true, if_false]
                  exact .failed hverdict
              | true =>
                  obtain ⟨results, hresults, hsend⟩ := ih attempts.tail conn.recordFailure
                  have hverdict : verdict replaying (left + 1) (.error e) = .retry left := by
                    simp only [verdict, hterminal, hretry, Bool.false_eq_true, if_false, if_true]
                  refine ⟨.error e :: results, List.forall_mem_cons.mpr
                    ⟨hone _ (List.mem_singleton_self _), hresults⟩, ?_⟩
                  simp only [hterminal, hretry, Bool.false_eq_true, if_false, if_true]
                  exact .retry hverdict hsend

theorem verdict_false_ne_dropped (left : Nat) (result : Except TransportError Unit) :
    verdict false left result ≠ .dropped := by
  cases result with
  | ok => exact nofun
  | error e =>
      simp only [verdict, Bool.false_and, Bool.false_eq_true, if_false]
      cases left with
      | zero => exact nofun
      | succ left => cases e.retryable <;> exact nofun

theorem uninterrupted_flush {left : Nat} {conn conn' : ConnectionState}
    {results : List (Except TransportError Unit)}
    {success : Bool} (h : Send false left conn results success conn') {s : Worker} {events : List Event}
    (hconn : s.conn = conn) (hsending : s.flushing = some ⟨events, left⟩) :
    after (step config) s (results.map .call) =
      { if success then s else s.spoolEvents config events with conn := conn', flushing := none } := by
  induction h generalizing s with
  | delivered hverdict =>
      subst hconn
      simp only [List.map_cons, List.map_nil, after_cons, after_nil, step, call, hsending, hverdict,
        Verdict.record, if_true]
  | dropped hverdict => exact absurd hverdict (verdict_false_ne_dropped _ _)
  | failed hverdict =>
      subst hconn
      simp only [List.map_cons, List.map_nil, after_cons, after_nil, step, call, hsending, hverdict,
        Verdict.record, Bool.false_eq_true, if_false]
      rfl
  | @retry left left' conn conn' result results success hverdict _ ih =>
      subst hconn
      have hcall := ih (s := (step config s (.call result)).2)
        (by simp only [step, call, hsending, hverdict, Verdict.record])
        (by simp only [step, call, hsending, hverdict])
      rw [List.map_cons, after_cons, hcall]
      simp only [step, call, hsending, hverdict]
      cases success <;> rfl

theorem uninterrupted_replay {left : Nat} {conn conn' : ConnectionState}
    {results : List (Except TransportError Unit)}
    {success : Bool} (h : Send true left conn results success conn') {s : Worker} {path : Path}
    {events : List Event}
    {files : List Path} (hconn : s.conn = conn) (hpass : s.sync.pass = .read path events files)
    (hleft : s.replaying = some left) :
    after (step config) s (results.map .replayCall) =
      { s.syncOp config (.send success) with conn := conn', replaying := none } := by
  induction h generalizing s with
  | delivered hverdict | dropped hverdict | failed hverdict =>
      subst hconn
      simp only [List.map_cons, List.map_nil, after_cons, after_nil, step, replayCall, hpass, hleft, hverdict,
        Verdict.record]
      rfl
  | @retry left left' conn conn' result results success hverdict _ ih =>
      subst hconn
      have hcall := ih (s := (step config s (.replayCall result)).2)
        (by simp only [step, replayCall, hpass, hleft, hverdict, Verdict.record])
        (by simp only [step, replayCall, hpass, hleft, hverdict])
          (by simp only [step, replayCall, hpass, hleft, hverdict])
      rw [List.map_cons, after_cons, hcall]
      simp only [step, replayCall, hpass, hleft, hverdict]
      rfl

/-- The worker is not put offline, and no send gives up as the third failure in
a row or behind it, unless another send is still on its way. -/
def Hopeful (_ : List (Op × SpoolSyncer.Reply)) (s : Worker) : Op → Prop
  | .setOffline => s.Sends
  | .call result => ∀ sending, s.flushing = some sending → verdict false sending.retriesLeft result = .failed →
      s.conn.online = true ∧ s.conn.consecutiveFailures + 1 < 3 ∨ s.Replaying
  | .replayCall result => ∀ left, s.Replaying → s.replaying = some left → verdict true left result = .failed →
      s.conn.online = true ∧ s.conn.consecutiveFailures + 1 < 3 ∨ s.flushing ≠ none
  | _ => True

theorem recordFailure_online (conn : ConnectionState) :
    conn.recordFailure.online = true ↔ conn.online = true ∧ conn.consecutiveFailures + 1 < 3 := by
  simp [ConnectionState.recordFailure]

theorem not_trapped_iff (s : Worker) : ¬ s.Trapped ↔ s.conn.online = true ∨ s.Sends := by
  rw [Worker.Trapped, not_and_or, not_not, Bool.not_eq_false]

theorem replaying_syncOp {s : Worker} (h : s.Replaying) {op : SpoolSyncer.Op}
    (hsend : ∀ success, op ≠ .send success)
    (hraise : op ≠ .raise) : (s.syncOp config op).Replaying := by
  obtain ⟨hsome, path, events, files, hpass⟩ := h
  refine ⟨hsome, path, events, files, ?_⟩
  cases op with
  | send success => exact absurd rfl (hsend success)
  | raise => exact absurd rfl hraise
  | spool | flushAll | updateStats => exact hpass
  | list | read | markSynced | stop => simp only [Worker.syncOp, SpoolSyncer.step, SpoolSyncer.syncStep, hpass]

theorem not_trapped_call (s : Worker) (result : Except TransportError Unit) (h : ¬ s.Trapped) :
    ¬ (call config result s).Trapped ↔ Hopeful [] s (.call result) := by
  rw [not_trapped_iff, Hopeful]
  cases hsending : s.flushing with
  | none => simpa [call, hsending, not_trapped_iff] using h
  | some sending =>
      simp only [call, hsending]
      cases hverdict : verdict false sending.retriesLeft result with
      | delivered | dropped =>
          refine ⟨fun _ other hother hfailed => ?_, fun _ => .inl rfl⟩
          cases hother
          rw [hverdict] at hfailed
          cases hfailed
      | retry left =>
          refine ⟨fun _ other hother hfailed => ?_, fun _ => .inr (.inl nofun)⟩
          cases hother
          rw [hverdict] at hfailed
          cases hfailed
      | failed =>
          have hreplaying : ({ s with conn := s.conn.recordFailure }.spoolEvents config sending.events).Replaying ↔
              s.Replaying := by
            simp only [Worker.Replaying, Worker.spoolEvents, spoolOps_pass]
          constructor
          · rintro (honline | hflushing | hr) other hother -
            · exact .inl ((recordFailure_online s.conn).mp honline)
            · exact absurd rfl hflushing
            · exact .inr (hreplaying.mp hr)
          · intro hguard
            rcases hguard sending rfl hverdict with honline | hr
            · exact .inl ((recordFailure_online s.conn).mpr honline)
            · exact .inr (.inr (hreplaying.mpr hr))

theorem not_trapped_replayCall (s : Worker) (result : Except TransportError Unit) (h : ¬ s.Trapped) :
    ¬ (replayCall config result s).2.Trapped ↔ Hopeful [] s (.replayCall result) := by
  rw [not_trapped_iff, Hopeful]
  by_cases hr : s.Replaying
  · obtain ⟨hsome, path, events, files, hpass⟩ := hr
    obtain ⟨left, hleft⟩ := Option.ne_none_iff_exists'.mp hsome
    have hvacuous : verdict true left result ≠ .failed → ∀ other, s.Replaying → some left = some other →
        verdict true other result = .failed →
        s.conn.online = true ∧ s.conn.consecutiveFailures + 1 < 3 ∨ s.flushing ≠ none := by
      intro hne other _ hother hfailed
      cases hother
      exact absurd hfailed hne
    simp only [replayCall, hpass, hleft]
    cases hverdict : verdict true left result with
    | delivered | dropped => exact ⟨fun _ => hvacuous (hverdict ▸ nofun), fun _ => .inl rfl⟩
    | retry left' => exact ⟨fun _ => hvacuous (hverdict ▸ nofun), fun _ =>
        .inr (.inr ⟨nofun, path, events, files, hpass⟩)⟩
    | failed =>
        constructor
        · rintro (honline | hflushing | ⟨hstill, -⟩) other - - -
          · exact .inl ((recordFailure_online s.conn).mp honline)
          · exact .inr hflushing
          · exact absurd rfl hstill
        · intro hguard
          rcases hguard left ⟨hsome, path, events, files, hpass⟩ rfl hverdict with honline | hflushing
          · exact .inl ((recordFailure_online s.conn).mpr honline)
          · exact .inr (.inl hflushing)
  · have hsame : replayCall config result s = (.done, s) := by
      simp only [replayCall]
      split
      · rename_i hpass hsome
        exact absurd ⟨by rw [hsome]; exact nofun, _, _, _, hpass⟩ hr
      · rfl
    rw [hsame]
    exact ⟨fun _ _ hreplaying => absurd hreplaying hr, fun _ => (not_trapped_iff s).mp h⟩

def Op.quiet : Op → Bool
  | .call _ | .replayCall _ | .setOffline => false
  | _ => true

variable (config) in
theorem quiet_step (s : Worker) {op : Op} (hquiet : op.quiet = true) : (step config s op).2.conn = s.conn ∧
    (s.flushing ≠ none → (step config s op).2.flushing ≠ none) ∧
      (s.Replaying → (step config s op).2.Replaying) := by
  cases op with
  | call | replayCall | setOffline => cases hquiet
  | add event =>
      simp only [step]
      split <;> exact ⟨rfl, id, id⟩
  | flush =>
      simp only [step, flush]
      split
      · rename_i hidle _
        split
        · exact ⟨rfl, fun h => absurd hidle h, id⟩
        · refine ⟨rfl, id, ?_⟩
          rintro ⟨hsome, path, events, files, hpass⟩
          exact ⟨hsome, path, events, files, (spoolOps_pass _ s.sync).trans hpass⟩
      · exact ⟨rfl, id, id⟩
  | list =>
      simp only [step]
      split
      · exact ⟨rfl, id, fun h => replaying_syncOp h nofun nofun⟩
      · exact ⟨rfl, id, id⟩
  | read =>
      simp only [step]
      split
      · rename_i hnext
        refine ⟨rfl, id, ?_⟩
        rintro ⟨-, path, events, files, hpass⟩
        rw [hnext] at hpass
        cases hpass
      · exact ⟨rfl, id, id⟩
  | replay =>
      simp only [step, replay]
      split
      · rename_i hnone
        split <;> exact ⟨rfl, id, fun h => absurd hnone h.1⟩
      · exact ⟨rfl, id, id⟩
  | raise =>
      simp only [step]
      split
      · exact ⟨rfl, id, id⟩
      · rename_i hother
        refine ⟨rfl, id, ?_⟩
        rintro ⟨hsome, path, events, files, hpass⟩
        obtain ⟨left, hleft⟩ := Option.ne_none_iff_exists'.mp hsome
        exact absurd hleft (hother path events files left hpass)
  | stats | markSynced | stop => exact ⟨rfl, id, fun h => replaying_syncOp h nofun nofun⟩

theorem not_trapped_step (past : List (Op × SpoolSyncer.Reply)) (s : Worker) (op : Op) (h : ¬ s.Trapped) :
    ¬ (step config s op).2.Trapped ↔ Hopeful past s op := by
  cases hquiet : op.quiet with
  | true =>
      obtain ⟨hconn, hflushing, hreplaying⟩ := quiet_step config s hquiet
      have hfree : ¬ (step config s op).2.Trapped := by
        rw [not_trapped_iff, hconn]
        exact ((not_trapped_iff s).mp h).imp_right (Or.imp hflushing hreplaying)
      refine ⟨fun _ => ?_, fun _ => hfree⟩
      cases op with
      | call | replayCall | setOffline => cases hquiet
      | add | flush | stats | list | read | replay | markSynced | raise | stop => trivial
  | false =>
      cases op with
      | call result => exact not_trapped_call s result h
      | replayCall result => exact not_trapped_replayCall s result h
      | setOffline =>
          rw [not_trapped_iff]
          exact ⟨fun hfree => hfree.resolve_left nofun, .inr⟩
      | add | flush | stats | list | read | replay | markSynced | raise | stop => cases hquiet

/-- In exactly these runs the worker can come back from every state it is in. -/
theorem recoverable_throughout_iff (config : WorkerConfig) (contents : List (List Event)) (ops : List Op) :
    (∀ before, before <+: ops → Recoverable config (after (step config) (.start contents) before)) ↔
      Guarded (step config) Hopeful [] (.start contents) ops := by
  have hstart : ¬ (Worker.start contents).Trapped := fun h => nomatch h.1
  rw [← forall_prefix_iff_guarded (fun past s op h _ => not_trapped_step past s op h) [] hstart ops
    (guarded_true _ _ _ _)]
  exact forall₂_congr (fun before _ => recoverable_iff _)

def twoRetries : WorkerConfig := ⟨2, unitLengths⟩

theorem never_recovers :
    ¬ Recoverable twoRetries (after (step twoRetries) (.start []) [.setOffline]) ∧
      ¬ Recoverable twoRetries (after (step twoRetries) (.start []) [.add (metricAt 1), .flush,
        .call (.error ⟨"Server error: 503", some 503, true⟩),
          .call (.error ⟨"Server error: 503", some 503, true⟩),
        .call (.error ⟨"Server error: 503", some 503, true⟩)]) := by
  constructor
  · intro h
    exact (recoverable_iff _).mp h ⟨rfl, fun hs => hs.elim (fun hf => hf rfl) (fun hr => hr.1 rfl)⟩
  · intro h
    exact (recoverable_iff _).mp h ⟨rfl, fun hs => hs.elim (fun hf => hf rfl) (fun hr => hr.1 rfl)⟩

end MLRunX.FlushWorker
