import MLRunX.FlushWorker

namespace MLRunX.OfflineRuns

open DiskSpool Runs SpoolReplay Text
open FlushWorker (Verdict verdict)
open SpoolSyncer (Pass readEvents syncStep)

structure SdkConfig where
  maxRetries : Nat
  spoolEnabled : Bool
  spool : SpoolConfig

inductive Phase
  | opening | live | stopped | closed
  deriving DecidableEq, Repr

/-- The batch that a worker has taken from its queue: it is on its way to the
server, or its events go to the spool one after the other. -/
inductive Flush
  | idle
  | sending (events : List Event) (retriesLeft : Nat)
  | spooling (events : List Event)
  deriving DecidableEq, Repr

def Flush.events : Flush → List Event
  | .idle => []
  | .sending events _ | .spooling events => events

def passEvents : Pass → List Event
  | .read _ events _ => events
  | .idle | .next _ | .sent _ _ _ => []

/-- One `Run` object with its worker and its syncer, in whatever process it lives.
`replaying` holds the retries that are left to the replay of the file that was read. -/
structure Client where
  runId : String
  phase : Phase
  conn : ConnectionState
  queue : List Event
  flushing : Flush
  pass : Pass
  replaying : Option Nat
  activeFiles : List SpoolFile
  pendingBytes : Nat

def Client.opened (runId : String) : Client := ⟨runId, .opening, {}, [], .idle, .idle, none, [], 0⟩

structure World (τ : Type) where
  runs : String → Option String
  dir : SpoolDir
  nextPath : Path
  clients : τ → Option Client

/-- How the registration of a run ends. A request that fails for the moment may
still have reached the server. -/
inductive InitOutcome
  | offlineMode
  | registered
  | connectError (localRunId : String)
  | transportError (reached : Bool)
  | refused

inductive FinishOutcome
  | unreachable
  | failed (reached : Bool)
  | answered (refusal : Option Refusal)

def FinishOutcome.reaches : FinishOutcome → Bool
  | .unreachable | .answered (some _) => false
  | .failed reached => reached
  | .answered none => true

inductive Act
  | initRun (outcome : InitOutcome)
  | log (event : Event)
  | flush (count : Nat)
  | call (attempt : Attempt)
  | spoolNext
  | abandon
  | stats
  | list
  | read
  | replay
  | replayCall (attempt : Attempt)
  | markSynced
  | raise
  | halt
  | stop (alive : Bool)
  | finishRun (status : String) (outcome : FinishOutcome)

inductive Op (τ : Type)
  | openRun (c : τ) (runId : String)
  | act (c : τ) (a : Act)
  | crash (c : τ)

inductive Reply
  | done
  | replayed (result : SpoolReplaySendResult)
  deriving DecidableEq, Repr

def register (runs : String → Option String) (runId : String) : String → Option String :=
  if (runs runId).isSome then runs else Function.update runs runId (some "running")

def setStatus (runs : String → Option String) (runId status : String) : String → Option String :=
  if (runs runId).isSome then Function.update runs runId (some status) else runs

def sendEvents (runs : String → Option String) (events : List Event) (attempt : Attempt) :
    Except TransportError Unit :=
  match events with
  | [] => .ok ()
  | event :: _ => sendBatch event.runId (runs event.runId) attempt

def replayReply (events : List Event) (result : Except TransportError Unit) : Verdict → Reply :=
  let runId := events.head?.map Event.runId
  let error := match result with
    | .ok () => none
    | .error e => some e
  fun
    | .delivered => .replayed ⟨.synced, runId, events.length, none⟩
    | .dropped => .replayed ⟨.droppedTerminal, runId, events.length, error⟩
    | .failed => .replayed ⟨.failed, runId, events.length, error⟩
    | .retry _ => .done

section System

variable {τ : Type} [DecidableEq τ] (config : SdkConfig)

def World.spoolOf (w : World τ) (client : Client) : Spool :=
  ⟨w.dir, client.activeFiles, client.pendingBytes, w.nextPath⟩

def World.put (w : World τ) (c : τ) (client : Client) (s : Spool) : World τ :=
  { w with
    dir := s.dir
    nextPath := s.nextPath
    clients := Function.update w.clients c
      (some { client with activeFiles := s.activeFiles, pendingBytes := s.pendingBytes }) }

def initRun (c : τ) (client : Client) (outcome : InitOutcome) (w : World τ) : World τ :=
  let live := { client with phase := .live }
  let offline := { live with conn := client.conn.setOffline }
  match outcome with
  | .offlineMode => w.put c offline (w.spoolOf client)
  | .registered => { w.put c live (w.spoolOf client) with runs := register w.runs client.runId }
  | .connectError localRunId => w.put c { offline with runId := localRunId } (w.spoolOf client)
  | .transportError reached =>
      { w.put c offline (w.spoolOf client) with
        runs := if reached then register w.runs client.runId else w.runs }
  | .refused => w.put c { client with phase := .closed } (w.spoolOf client)

def failedBatch (events : List Event) : Flush := if config.spoolEnabled then .spooling events else .idle

def flush (count : Nat) (c : τ) (client : Client) (w : World τ) : World τ :=
  match client.flushing, client.queue.take count with
  | .idle, event :: events =>
      let flushing := if client.conn.online then .sending (event :: events) config.maxRetries
        else failedBatch config (event :: events)
      w.put c { client with queue := client.queue.drop count, flushing } (w.spoolOf client)
  | _, _ => w

def call (attempt : Attempt) (c : τ) (client : Client) (w : World τ) : World τ :=
  match client.flushing with
  | .sending events left =>
      let v := verdict false left (sendEvents w.runs events attempt)
      let flushing := match v with
        | .delivered | .dropped => .idle
        | .retry left => .sending events left
        | .failed => failedBatch config events
      w.put c { client with conn := v.record client.conn, flushing } (w.spoolOf client)
  | _ => w

def spoolNext (c : τ) (client : Client) (w : World τ) : World τ :=
  match client.flushing with
  | .spooling (event :: events) =>
      w.put c { client with flushing := .spooling events } (DiskSpool.spool config.spool event (w.spoolOf client)).2
  | .spooling [] => w.put c { client with flushing := .idle } (flushAll (w.spoolOf client))
  | _ => w

def visit (op : SpoolSyncer.Op) (c : τ) (client : Client) (w : World τ) : World τ :=
  if client.replaying.isSome then w
  else w.put c { client with pass := syncStep w.dir op client.pass } (w.spoolOf client)

def replay (c : τ) (client : Client) (w : World τ) : Reply × World τ :=
  match client.pass, client.replaying with
  | .read _ events _, none =>
      if client.conn.online then
        (.done, w.put c { client with replaying := some config.maxRetries } (w.spoolOf client))
      else
        (replayReply events (.error ⟨"connection offline", none, true⟩) .failed,
          w.put c { client with pass := syncStep w.dir (.send false) client.pass } (w.spoolOf client))
  | _, _ => (.done, w)

def replayCall (attempt : Attempt) (c : τ) (client : Client) (w : World τ) : Reply × World τ :=
  match client.pass, client.replaying with
  | .read _ events _, some left =>
      let result := sendEvents w.runs events attempt
      let v := verdict true left result
      let told := { client with conn := v.record client.conn }
      let next := match v with
        | .retry left => { told with replaying := some left }
        | .failed => { told with pass := syncStep w.dir (.send false) client.pass, replaying := none }
        | .delivered | .dropped => { told with pass := syncStep w.dir (.send true) client.pass, replaying := none }
      (replayReply events result v, w.put c next (w.spoolOf client))
  | _, _ => (.done, w)

def mark (c : τ) (client : Client) (w : World τ) : World τ :=
  match client.pass with
  | .sent path _ files =>
      w.put c { client with pass := .next files } { w.spoolOf client with dir := markSynced path w.dir }
  | _ => w

/-- An exception ends the visit of a file, also while it is replayed. -/
def raise (c : τ) (client : Client) (w : World τ) : World τ :=
  w.put c { client with pass := syncStep w.dir .raise client.pass, replaying := none } (w.spoolOf client)

/-- `finish` waits some time for the worker and the syncer to stop, writes the files in
memory unless the worker is dead, and tells the server. What the threads do from then on
they do in any order with it. -/
def act (a : Act) (c : τ) (client : Client) (w : World τ) : Reply × World τ :=
  match a with
  | .initRun outcome => (.done, if client.phase = .opening then initRun c client outcome w else w)
  | .log event => (.done,
      if client.phase = .opening ∨ client.phase = .live then
        w.put c { client with queue := client.queue ++ [{ event with runId := client.runId }] } (w.spoolOf client)
      else w)
  | .flush count => (.done, flush config count c client w)
  | .call attempt => (.done, call config attempt c client w)
  | .spoolNext => (.done, spoolNext config c client w)
  | .abandon => (.done, w.put c { client with flushing := .idle } (w.spoolOf client))
  | .stats => (.done, w.put c client (updateStats config.spool (w.spoolOf client)))
  | .list => (.done, if client.conn.online && config.spoolEnabled then visit .list c client w else w)
  | .read => (.done, visit .read c client w)
  | .replay => replay config c client w
  | .replayCall attempt => replayCall attempt c client w
  | .markSynced => (.done, mark c client w)
  | .raise => (.done, raise c client w)
  | .halt => (.done, visit .stop c client w)
  | .stop alive => (.done,
      if client.phase = .live then
        w.put c { client with phase := .stopped } (if alive then flushAll (w.spoolOf client) else w.spoolOf client)
      else w)
  | .finishRun status outcome => (.done,
      if client.phase = .stopped then
        { w.put c { client with phase := .closed } (w.spoolOf client) with
          runs := if outcome.reaches then setStatus w.runs client.runId status else w.runs }
      else w)

def step : Machine (World τ) (Op τ) Reply
  | w, .openRun c runId => (.done, match w.clients c with
      | none => w.put c (.opened runId) ⟨w.dir, [], 0, w.nextPath⟩
      | some _ => w)
  | w, .act c a => match w.clients c with
      | none => (.done, w)
      | some client => act config a c client w
  | w, .crash c => (.done, { w with clients := Function.update w.clients c none })

def World.start : World τ := ⟨fun _ => none, ⟨[], []⟩, 0, fun _ => none⟩

def replays (past : List (Op τ × Reply)) : List SpoolReplaySendResult :=
  past.filterMap fun
    | (_, .replayed result) => some result
    | _ => none

/-- No spool file was ever retired because its run looked gone or over. -/
def NothingDropped (past : List (Op τ × Reply)) : Prop :=
  ∀ r ∈ replays past, r.outcome ≠ .droppedTerminal

instance (past : List (Op τ × Reply)) : Decidable (NothingDropped past) :=
  inferInstanceAs (Decidable (∀ r ∈ replays past, r.outcome ≠ .droppedTerminal))

def Running (w : World τ) (runId : String) : Prop := isRunning (w.runs runId) = true

/-- An event is in the spool as the client sees it, in the batch that it flushes,
or in the file that it replays. -/
def Client.Carries (client : Client) (s : Spool) (e : Event) : Prop :=
  s.Holds e ∨ e ∈ client.flushing.events ∨ e ∈ passEvents client.pass

/-- An event in a file that waits on disk or is kept in memory, or in a batch on its way. -/
def Undelivered (w : World τ) (e : Event) : Prop :=
  (∃ entry ∈ w.dir.pending, e ∈ entry.2) ∨
    ∃ c client, w.clients c = some client ∧ ((∃ file ∈ client.activeFiles, e ∈ file.events) ∨
      e ∈ client.flushing.events ∨ e ∈ passEvents client.pass)

/-- Where events are spooled at all, batches are flushed for registered, running runs only,
and the server ends no run of which an event is in the spool or on its way. -/
def SafeUse (_ : List (Op τ × Reply)) (w : World τ) : Op τ → Prop
  | .act c (.flush count) => config.spoolEnabled = true → ∀ client, w.clients c = some client →
      client.flushing = .idle → ∀ e ∈ client.queue.take count, Running w e.runId
  | .act c (.finishRun status outcome) => config.spoolEnabled = true → ∀ client, w.clients c = some client →
      client.phase = .stopped → outcome.reaches = true → eqIgnoreAsciiCase status "running" = false →
        ∀ e, Undelivered w e → e.runId ≠ client.runId
  | _ => True

variable {config}

theorem undelivered_put {w : World τ} {c : τ} {client : Client} {s : Spool} {e : Event}
    (h : Undelivered (w.put c client s) e) : client.Carries s e ∨ Undelivered w e := by
  rcases h with hd | ⟨c', client', hc, hcarries⟩
  · exact .inl (.inl (.inl hd))
  · by_cases hcc : c' = c
    · subst hcc
      simp only [World.put, Function.update_self, Option.some.injEq] at hc
      subst hc
      exact .inl (hcarries.imp_left .inr)
    · simp only [World.put, Function.update_of_ne hcc] at hc
      exact .inr (.inr ⟨c', client', hc, hcarries⟩)

omit [DecidableEq τ] in
theorem undelivered_of_carries {w : World τ} {c : τ} {client : Client} (hc : w.clients c = some client) {e : Event}
    (h : client.Carries (w.spoolOf client) e) : Undelivered w e := by
  rcases h with (hd | hact) | hbatch
  · exact .inl hd
  · exact .inr ⟨c, client, hc, .inl hact⟩
  · exact .inr ⟨c, client, hc, .inr hbatch⟩

/-- Whatever is undelivered belongs to a run that the server still takes events for. -/
structure Replayable (config : SdkConfig) (past : List (Op τ × Reply)) (w : World τ) : Prop where
  running : config.spoolEnabled = true → ∀ e, Undelivered w e → Running w e.runId
  idle : config.spoolEnabled = false → ∀ c client, w.clients c = some client → client.pass = .idle
  kept : NothingDropped past

section Steps

variable {past : List (Op τ × Reply)} {w : World τ} {op : Op τ} {reply : Reply} {c : τ} {client client' : Client}
  {s : Spool}

omit [DecidableEq τ] in
theorem nothingDropped_concat (h : NothingDropped past)
    (hr : ∀ r, reply = .replayed r → r.outcome ≠ .droppedTerminal) : NothingDropped (past ++ [(op, reply)]) := by
  intro r hm
  rw [replays, List.filterMap_append, List.mem_append] at hm
  rcases hm with hm | hm
  · exact h r hm
  · cases reply with
    | replayed result => exact hr r (by rw [show r = result by simpa using hm])
    | done => simp at hm

omit [DecidableEq τ] in
theorem Replayable.same (h : Replayable config past w) : Replayable config (past ++ [(op, .done)]) w :=
  ⟨h.running, h.idle, nothingDropped_concat h.kept nofun⟩

theorem Replayable.put (h : Replayable config past w)
    (hr : ∀ r, reply = .replayed r → r.outcome ≠ .droppedTerminal)
    (hcarries : config.spoolEnabled = true → ∀ e, client'.Carries s e → Running w e.runId)
    (hidle : config.spoolEnabled = false → client'.pass = .idle) :
    Replayable config (past ++ [(op, reply)]) (w.put c client' s) where
  running hs e he := (undelivered_put he).elim (hcarries hs e) (h.running hs e)
  idle hs c' client'' hc' := by
    by_cases hcc : c' = c
    · subst hcc
      simp only [World.put, Function.update_self, Option.some.injEq] at hc'
      subst hc'
      exact hidle hs
    · simp only [World.put, Function.update_of_ne hcc] at hc'
      exact h.idle hs c' client'' hc'
  kept := nothingDropped_concat h.kept hr

omit [DecidableEq τ] in
theorem Replayable.carried (h : Replayable config past w) (hc : w.clients c = some client)
    (hs : config.spoolEnabled = true) (e : Event) (he : client.Carries (w.spoolOf client) e) : Running w e.runId :=
  h.running hs e (undelivered_of_carries hc he)

theorem Replayable.put_less (h : Replayable config past w) (hc : w.clients c = some client)
    (hholds : ∀ e, s.Holds e → (w.spoolOf client).Holds e)
    (hflushing : client'.flushing.events ⊆ client.flushing.events) (hpass : client'.pass = client.pass) :
    Replayable config (past ++ [(op, .done)]) (w.put c client' s) := by
  refine h.put nofun (fun hs e he => h.carried hc hs e ?_) (fun hs => hpass.trans (h.idle hs c client hc))
  exact he.imp (hholds e) (Or.imp (fun he => hflushing he) (fun he => hpass ▸ he))

theorem running_register {runs : String → Option String} {runId : String} (r : String)
    (h : isRunning (runs r) = true) : isRunning (register runs runId r) = true := by
  simp only [register]
  split
  · exact h
  · rename_i hnone
    have hne : r ≠ runId := by
      rintro rfl
      cases hr : runs r with
      | none => rw [hr] at h; cases h
      | some st => simp [hr] at hnone
    rwa [Function.update_of_ne hne]

theorem running_setStatus {runs : String → Option String} {runId status : String} (r : String)
    (h : isRunning (runs r) = true) (hs : eqIgnoreAsciiCase status "running" = true ∨ r ≠ runId) :
    isRunning (setStatus runs runId status r) = true := by
  simp only [setStatus]
  split
  · by_cases hr : r = runId
    · subst hr
      rw [Function.update_self]
      exact hs.resolve_right (fun hne => hne rfl)
    · rwa [Function.update_of_ne hr]
  · exact h

omit [DecidableEq τ] in
theorem Replayable.with_runs (h : Replayable config past w) {runs : String → Option String}
    (hruns : config.spoolEnabled = true → ∀ e, Undelivered w e → Running w e.runId →
      isRunning (runs e.runId) = true) :
    Replayable config past { w with runs } :=
  ⟨fun hs e he => hruns hs e he (h.running hs e he), h.idle, h.kept⟩

theorem replayable_initRun (h : Replayable config past w) (hc : w.clients c = some client) (outcome : InitOutcome) :
    Replayable config (past ++ [(op, .done)]) (initRun c client outcome w) := by
  have hput : ∀ (runId : String) (phase : Phase) (conn : ConnectionState), Replayable config (past ++ [(op, .done)])
      (w.put c { client with runId, phase, conn } (w.spoolOf client)) :=
    fun _ _ _ => h.put_less hc (fun _ he => he) (List.Subset.refl _) rfl
  cases outcome with
  | offlineMode | connectError | refused => exact hput _ _ _
  | registered =>
      exact (hput client.runId .live client.conn).with_runs (fun _ e _ hrun => running_register _ hrun)
  | transportError reached =>
      refine (hput client.runId .live client.conn.setOffline).with_runs (fun _ e _ hrun => ?_)
      cases reached with
      | true => exact running_register _ hrun
      | false => exact hrun

theorem failedBatch_events (events : List Event) : (failedBatch config events).events ⊆ events := by
  rw [failedBatch]
  split
  · exact List.Subset.refl _
  · exact List.nil_subset _

theorem replayable_flush (h : Replayable config past w) (hc : w.clients c = some client) {count : Nat}
    (hg : SafeUse config past w (.act c (.flush count))) :
    Replayable config (past ++ [(op, .done)]) (flush config count c client w) := by
  rw [flush]
  split
  · rename_i event events hidle hbatch
    refine h.put nofun (fun hs e he => ?_) (fun hs => h.idle hs c client hc)
    have hrun := hg hs client hc hidle
    rw [hbatch] at hrun
    rcases he with he | he | he
    · exact h.carried hc hs e (.inl he)
    · refine hrun e ?_
      dsimp only at he
      split at he
      · exact he
      · exact failedBatch_events _ he
    · exact h.carried hc hs e (.inr (.inr he))
  · exact h.same

theorem replayable_call (h : Replayable config past w) (hc : w.clients c = some client) (attempt : Attempt) :
    Replayable config (past ++ [(op, .done)]) (call config attempt c client w) := by
  rw [call]
  split
  · rename_i events left hflushing
    refine h.put_less hc (fun _ he => he) ?_ rfl
    rw [hflushing]
    dsimp only
    split
    · exact List.nil_subset _
    · exact List.nil_subset _
    · exact List.Subset.refl _
    · exact failedBatch_events events
  · exact h.same

theorem replayable_spoolNext (h : Replayable config past w) (hc : w.clients c = some client) :
    Replayable config (past ++ [(op, .done)]) (spoolNext config c client w) := by
  rw [spoolNext]
  split
  · rename_i event events hflushing
    refine h.put nofun (fun hs e he => h.carried hc hs e ?_) (fun hs => h.idle hs c client hc)
    rw [Client.Carries, hflushing]
    rcases he with he | he | he
    · rcases holds_spool he with he | rfl
      · exact .inl he
      · exact .inr (.inl List.mem_cons_self)
    · exact .inr (.inl (List.mem_cons_of_mem _ he))
    · exact .inr (.inr he)
  · exact h.put_less hc (fun _ he => holds_flushAll he) (List.nil_subset _) rfl
  · exact h.same

theorem passEvents_syncStep {dir : SpoolDir} {op : SpoolSyncer.Op} {pass : Pass} {e : Event}
    (h : e ∈ passEvents (syncStep dir op pass)) :
    e ∈ passEvents pass ∨ ∃ entry ∈ dir.pending, e ∈ entry.2 := by
  unfold syncStep at h
  split at h
  · cases h
  · rename_i path files
    dsimp only at h
    split at h
    · cases h
    · refine .inr ?_
      simp only [passEvents, readEvents] at h
      cases hfound : dir.pending.find? (fun entry => entry.1 == path) with
      | none =>
          rw [hfound] at h
          cases h
      | some entry =>
          rw [hfound] at h
          exact ⟨entry, List.mem_of_find?_eq_some hfound, h⟩
  all_goals first | cases h | exact .inl h

theorem syncStep_idle {dir : SpoolDir} {op : SpoolSyncer.Op} (hop : op ≠ .list) : syncStep dir op .idle = .idle := by
  cases op with
  | list => exact absurd rfl hop
  | send success => cases success <;> rfl
  | spool | flushAll | updateStats | read | markSynced | raise | stop => rfl

omit [DecidableEq τ] in
theorem carries_syncStep {op : SpoolSyncer.Op} {e : Event} (he : client'.Carries (w.spoolOf client) e)
    (hflushing : client'.flushing = client.flushing)
    (hpass : client'.pass = client.pass ∨ client'.pass = syncStep w.dir op client.pass) :
    client.Carries (w.spoolOf client) e := by
  rcases he with he | he | he
  · exact .inl he
  · exact .inr (.inl (hflushing ▸ he))
  · rcases hpass with hpass | hpass
    · exact .inr (.inr (hpass ▸ he))
    · rw [hpass] at he
      exact (passEvents_syncStep he).elim (fun he => .inr (.inr he)) (fun hread => .inl (.inl hread))

theorem replayable_visit (h : Replayable config past w) (hc : w.clients c = some client) (visited : SpoolSyncer.Op)
    (hs : config.spoolEnabled = true ∨ visited ≠ .list) :
    Replayable config (past ++ [(op, .done)]) (visit visited c client w) := by
  rw [visit]
  split
  · exact h.same
  · refine h.put nofun (fun hs e he => h.carried hc hs e (carries_syncStep he rfl (.inr rfl))) (fun hoff => ?_)
    rcases hs with hon | hop
    · exact absurd (hon.symm.trans hoff) nofun
    · show syncStep w.dir visited client.pass = .idle
      rw [h.idle hoff c client hc]
      exact syncStep_idle hop

theorem replayable_raise (h : Replayable config past w) (hc : w.clients c = some client) :
    Replayable config (past ++ [(op, .done)]) (raise c client w) := by
  refine h.put (fun r hr => by cases hr) (fun hs e he => h.carried hc hs e (carries_syncStep he rfl (.inr rfl)))
    (fun hoff => ?_)
  show syncStep w.dir .raise client.pass = .idle
  rw [h.idle hoff c client hc]
  exact syncStep_idle (fun hlist => by cases hlist)

theorem replayable_replay (h : Replayable config past w) (hc : w.clients c = some client) :
    Replayable config (past ++ [(op, (replay config c client w).1)]) (replay config c client w).2 := by
  rw [replay]
  split
  · rename_i path events files hpass hnone
    split
    · exact h.put_less hc (fun _ he => he) (List.Subset.refl _) rfl
    · refine h.put ?_ (fun hs e he => h.carried hc hs e (carries_syncStep he rfl (.inr rfl))) (fun hoff => ?_)
      · rintro r hr
        rw [← Reply.replayed.inj hr]
        exact nofun
      · exact absurd ((h.idle hoff c client hc).symm.trans hpass) nofun
  · exact h.same

omit [DecidableEq τ] in
theorem verdict_not_dropped {events : List Event} (hrun : ∀ e ∈ events, Running w e.runId) (replaying : Bool)
    (left : Nat) (attempt : Attempt) : verdict replaying left (sendEvents w.runs events attempt) ≠ .dropped := by
  cases events with
  | nil =>
      intro hdropped
      cases hdropped
  | cons event events =>
      rw [sendEvents]
      cases hanswer : sendBatch event.runId (w.runs event.runId) attempt with
      | ok =>
          intro hdropped
          cases hdropped
      | error e =>
          have hterminal := sendBatch_not_terminal (hrun event List.mem_cons_self) hanswer
          simp only [verdict, hterminal, Bool.and_false, Bool.false_eq_true, if_false]
          intro hdropped
          cases left with
          | zero => cases hdropped
          | succ left =>
              dsimp only at hdropped
              split at hdropped <;> cases hdropped

theorem replayable_replayCall (h : Replayable config past w) (hc : w.clients c = some client) (attempt : Attempt) :
    Replayable config (past ++ [(op, (replayCall attempt c client w).1)]) (replayCall attempt c client w).2 := by
  rw [replayCall]
  split
  · rename_i path events files left hpass hleft
    have hon : config.spoolEnabled = true := by
      cases hoff : config.spoolEnabled with
      | true => rfl
      | false => exact absurd ((h.idle hoff c client hc).symm.trans hpass) nofun
    have hrun : ∀ e ∈ events, Running w e.runId := by
      intro e he
      refine h.carried hc hon e (.inr (.inr ?_))
      rw [hpass]
      exact he
    have hverdict := verdict_not_dropped hrun true left attempt
    dsimp only
    generalize verdict true left (sendEvents w.runs events attempt) = v at hverdict ⊢
    refine h.put ?_ (fun hs e he => h.carried hc hs e ?_) (fun hoff => absurd (hon.symm.trans hoff) nofun)
    · rintro r hr
      cases v with
      | dropped => exact absurd rfl hverdict
      | retry => cases hr
      | delivered | failed =>
          rw [← Reply.replayed.inj hr]
          exact nofun
    · cases v with
      | retry =>
          exact he
      | failed | delivered | dropped => exact carries_syncStep he rfl (.inr rfl)
  · exact h.same

theorem replayable_mark (h : Replayable config past w) (hc : w.clients c = some client) :
    Replayable config (past ++ [(op, .done)]) (mark c client w) := by
  rw [mark]
  split
  · rename_i path events files hpass
    refine h.put (fun r hr => by cases hr) (fun hs e he => h.carried hc hs e ?_) (fun hoff => ?_)
    · rcases he with (⟨entry, hm, he⟩ | hact) | he | he
      · exact .inl (.inl ⟨entry, (List.mem_filter.mp hm).1, he⟩)
      · exact .inl (.inr hact)
      · exact .inr (.inl he)
      · cases he
    · have hidle := (h.idle hoff c client hc).symm.trans hpass
      cases hidle
  · exact h.same

theorem replayable_finishRun (h : Replayable config past w) (hc : w.clients c = some client) {status : String}
    {outcome : FinishOutcome} (hg : SafeUse config past w (.act c (.finishRun status outcome)))
    (hphase : client.phase = .stopped) :
    Replayable config (past ++ [(op, .done)]) { w.put c { client with phase := .closed } (w.spoolOf client) with
      runs := if outcome.reaches then setStatus w.runs client.runId status else w.runs } := by
  have hclosed : Replayable config (past ++ [(op, .done)])
      (w.put c { client with phase := .closed } (w.spoolOf client)) :=
    h.put_less hc (fun _ he => he) (List.Subset.refl _) rfl
  refine hclosed.with_runs (fun hs e he hrun => ?_)
  cases hreach : outcome.reaches with
  | false => exact hrun
  | true =>
      refine running_setStatus _ hrun ?_
      cases hst : eqIgnoreAsciiCase status "running" with
      | true => exact .inl rfl
      | false =>
          refine .inr (hg hs client hc hphase hreach hst e ?_)
          exact (undelivered_put he).elim (undelivered_of_carries hc) id

theorem replayable_act (h : Replayable config past w) (hc : w.clients c = some client) (a : Act)
    (hg : SafeUse config past w (.act c a)) :
    Replayable config (past ++ [(op, (act config a c client w).1)]) (act config a c client w).2 := by
  have hsame : Replayable config (past ++ [(op, .done)]) w := h.same
  cases a with
  | initRun outcome =>
      simp only [act]
      split
      · exact replayable_initRun h hc outcome
      · exact hsame
  | log event =>
      simp only [act]
      split
      · exact h.put_less hc (fun _ he => he) (List.Subset.refl _) rfl
      · exact hsame
  | flush count => exact replayable_flush h hc hg
  | call attempt => exact replayable_call h hc attempt
  | spoolNext => exact replayable_spoolNext h hc
  | abandon => exact h.put_less hc (fun _ he => he) (List.nil_subset _) rfl
  | stats => exact h.put_less hc (fun _ he => he) (List.Subset.refl _) rfl
  | list =>
      simp only [act]
      split
      · rename_i hs
        exact replayable_visit h hc .list (.inl (Bool.and_eq_true_iff.mp hs).2)
      · exact hsame
  | read => exact replayable_visit h hc .read (.inr nofun)
  | replay => exact replayable_replay h hc
  | replayCall attempt => exact replayable_replayCall h hc attempt
  | markSynced => exact replayable_mark h hc
  | raise => exact replayable_raise h hc
  | halt => exact replayable_visit h hc .stop (.inr nofun)
  | stop alive =>
      simp only [act]
      split
      · cases alive with
        | true => exact h.put_less hc (fun _ he => holds_flushAll he) (List.Subset.refl _) rfl
        | false => exact h.put_less hc (fun _ he => he) (List.Subset.refl _) rfl
      · exact hsame
  | finishRun status outcome =>
      simp only [act]
      split
      · rename_i hphase
        exact replayable_finishRun h hc hg hphase
      · exact hsame

end Steps

theorem replayable_step (past : List (Op τ × Reply)) (w : World τ) (op : Op τ) (h : Replayable config past w)
    (hg : SafeUse config past w op) :
    Replayable config (past ++ [(op, (step config w op).1)]) (step config w op).2 := by
  cases op with
  | openRun c runId =>
      simp only [step]
      split
      · refine h.put nofun (fun hs e he => ?_) (fun _ => rfl)
        rcases he with (hd | ⟨file, hm, -⟩) | he | he
        · exact h.running hs e (.inl hd)
        · cases hm
        · cases he
        · cases he
      · exact h.same
  | act c a =>
      simp only [step]
      cases hc : w.clients c with
      | none => exact h.same
      | some client => exact replayable_act h hc a hg
  | crash c =>
      have hclient : ∀ c' client, (step config w (.crash c)).2.clients c' = some client →
          w.clients c' = some client := by
        intro c' client hc
        by_cases hcc : c' = c
        · subst hcc
          simp [step] at hc
        · simpa only [step, Function.update_of_ne hcc] using hc
      refine ⟨fun hs e he => ?_, fun hs c' client hc => h.idle hs c' client (hclient c' client hc),
        nothingDropped_concat h.kept nofun⟩
      rcases he with hd | ⟨c', client, hc, hcarries⟩
      · exact h.running hs e (.inl hd)
      · exact h.running hs e (.inr ⟨c', client, hclient c' client hc, hcarries⟩)

/-- Safe use of the spool by any number of clients never drops a spool file. -/
theorem nothingDropped_of_safeUse (config : SdkConfig) (ops : List (Op τ))
    (hg : Guarded (step config) (SafeUse config) [] .start ops) :
    NothingDropped (history (step config) .start ops) := by
  have hstart : Replayable config [] (World.start : World τ) := by
    refine ⟨?_, fun _ _ _ hc => absurd hc nofun, nofun⟩
    rintro - e (⟨entry, hm, -⟩ | ⟨c, client, hc, -⟩)
    · cases hm
    · cases hc
  exact (invariant_history (Replayable config) replayable_step [] .start ops hstart hg).kept

def lossEvent : Event := ⟨.metric, "", 1, "loss"⟩

def retriesOf (maxRetries : Nat) : SdkConfig := ⟨maxRetries, true, ⟨10, 100, fun _ => 1, List.length⟩⟩

def spooledFlush (c : Bool) (attempt : Attempt) : List (Op Bool) :=
  [.act c (.flush 1), .act c (.call attempt), .act c .spoolNext, .act c .spoolNext]

def lateReplay (c : Bool) : List (Op Bool) :=
  [.openRun c "s", .act c (.initRun .registered), .act c .list, .act c .read, .act c .replay,
    .act c (.replayCall (.answered none)), .act c .markSynced]

theorem nothingDropped_late_replay :
    NothingDropped (history (step (retriesOf 0)) .start
      ([.openRun true "r", .act true (.initRun .registered), .act true (.log lossEvent)] ++
        spooledFlush true .timedOut ++ [.crash true] ++ lateReplay false)) := by
  refine nothingDropped_of_safeUse (retriesOf 0) _ ⟨trivial, trivial, trivial, ?_, trivial, trivial, trivial, trivial,
    trivial, trivial, trivial, trivial, trivial, trivial, trivial, trivial⟩
  rintro - client hc - e he
  obtain rfl := Option.some.inj hc
  obtain rfl := List.mem_singleton.mp he
  rfl

/-- A run that began without a server is unknown to it later, a run that was
finished after a failed batch is no longer running, and a batch may still be
on its way when `finish` has waited long enough and ends the run. -/
theorem spooled_events_dropped :
    ¬ NothingDropped (history (step (retriesOf 0)) .start
        ([.openRun true "r", .act true (.initRun (.connectError "local")), .act true (.log lossEvent),
          .act true (.flush 1), .act true .spoolNext, .act true .spoolNext] ++ lateReplay false)) ∧
      ¬ NothingDropped (history (step (retriesOf 0)) .start
        ([.openRun true "r", .act true (.initRun .registered), .act true (.log lossEvent)] ++
          spooledFlush true .timedOut ++ [.act true (.stop true), .act true (.finishRun "finished" (.answered none))] ++
          lateReplay false)) ∧
      ¬ NothingDropped (history (step (retriesOf 1)) .start
        ([.openRun true "r", .act true (.initRun .registered), .act true (.log lossEvent), .act true (.flush 1),
          .act true (.call .timedOut), .act true (.stop true), .act true (.finishRun "finished" (.answered none)),
          .act true (.call (.answered none)), .act true .spoolNext, .act true .spoolNext] ++ lateReplay false)) := by
  refine ⟨?_, ?_, ?_⟩ <;> decide

end System

end MLRunX.OfflineRuns
