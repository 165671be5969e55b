import MLRunX.FlushWorker

namespace MLRunX.RejectedBatches

open FlushWorker Runs
open DiskSpool (Event Path metricAt unitLengths)
open SpoolReplay (TransportError handleError isTerminalSpoolError)
open SpoolSyncer (Pass Reply)

structure Rejection where
  code : Nat
  text : String
  client : 400 ≤ code ∧ code < 500

def Rejection.error (r : Rejection) : TransportError := handleError r.code r.text

variable (judge : List Event → Option Rejection) (config : WorkerConfig)

/-- The answer of a server that takes every batch but those it rejects. -/
def answer (events : List Event) : Except TransportError Unit :=
  match judge events with
  | none => .ok ()
  | some r => .error r.error

/-- The server answers every call, and the run was registered with it. -/
def Answered (_ : List (Op × Reply)) (s : Worker) : Op → Prop
  | .call result => ∀ sending, s.flushing = some sending → result = answer judge sending.events
  | .replayCall result => ∀ path events files, s.sync.pass = .read path events files → result = answer judge events
  | .setOffline => False
  | _ => True

def remaining : Pass → List Path
  | .idle => []
  | .next files | .read _ _ files | .sent _ _ files => files

/-- Behind the answer for a file the pass goes on with the files after it. -/
def GoesOn (_ : List (Op × Reply)) (s : Worker) : Op → Prop
  | .replayCall result => remaining (step config s (.replayCall result)).2.sync.pass = remaining s.sync.pass
  | _ => True

instance (past : List (Op × Reply)) (s : Worker) (op : Op) : Decidable (GoesOn config past s op) := by
  cases op <;> unfold GoesOn <;> infer_instance

def refused (events : List Event) : Bool := (judge events).any (fun r => !isTerminalSpoolError r.error)

def FewRejections (_ : List (Op × Reply)) (s : Worker) : Op → Prop
  | .call _ => ∀ sending, s.flushing = some sending → judge sending.events ≠ none →
      s.conn.consecutiveFailures + 1 < 3
  | .replayCall _ => ∀ path events files, s.replaying ≠ none → s.sync.pass = .read path events files →
      refused judge events = true → s.conn.consecutiveFailures + 1 < 3
  | _ => True

def RefusedLast (_ : List (Op × Reply)) (s : Worker) : Op → Prop
  | .replayCall _ => ∀ path events files, s.replaying ≠ none → s.sync.pass = .read path events files →
      refused judge events = true → files = []
  | _ => True

variable {judge config}

theorem verdict_rejection (r : Rejection) (replaying : Bool)
    (h : (replaying && isTerminalSpoolError r.error) = false) (left : Nat) :
    verdict replaying left (.error r.error) = .failed := by
  have hretry : r.error.retryable = false := by
    rw [Rejection.error, handleError, if_neg (Nat.not_le.mpr r.client.2)]
  simp only [verdict, h, hretry, Bool.false_eq_true, if_false]
  cases left <;> rfl

variable (judge config) in
theorem replayCall_answer {s : Worker} {path : Path} {events : List Event} {files : List Path} {left : Nat}
    (hpass : s.sync.pass = .read path events files) (hleft : s.replaying = some left) :
    (refused judge events = false →
      (step config s (.replayCall (answer judge events))).2.conn = s.conn.recordSuccess ∧
        (step config s (.replayCall (answer judge events))).2.sync.pass = .sent path events files) ∧
    (refused judge events = true →
      (step config s (.replayCall (answer judge events))).2.conn = s.conn.recordFailure ∧
        (step config s (.replayCall (answer judge events))).2.sync.pass = .idle) := by
  simp only [step, replayCall, hpass, hleft, answer, refused]
  cases judge events with
  | none =>
      refine ⟨fun _ => ⟨rfl, ?_⟩, fun h => absurd h Bool.false_ne_true⟩
      simp only [verdict, Worker.syncOp, SpoolSyncer.step, SpoolSyncer.syncStep, hpass]
  | some r =>
      cases hterminal : isTerminalSpoolError r.error with
      | true =>
          refine ⟨fun _ => ?_, fun h => ?_⟩
          · simp only [verdict, hterminal, Bool.and_self, if_true, Verdict.record, Worker.syncOp, SpoolSyncer.step,
              SpoolSyncer.syncStep, hpass, and_self]
          · simp [hterminal] at h
      | false =>
          refine ⟨fun h => ?_, fun _ => ?_⟩
          · simp [hterminal] at h
          · have hfailed := verdict_rejection r true hterminal left
            simp only [hfailed, Verdict.record, Worker.syncOp, SpoolSyncer.step,
              SpoolSyncer.syncStep, hpass, and_self]

theorem replayCall_of_not_read (s : Worker) (result : Except TransportError Unit)
    (h : ∀ path events files left, s.sync.pass = .read path events files → s.replaying ≠ some left) :
    step config s (.replayCall result) = (.done, s) := by
  simp only [step, replayCall]

theorem online_step (past : List (Op × Reply)) (s : Worker) (op : Op) (honline : s.conn.online = true)
    (hanswered : Answered judge past s op) :
    (step config s op).2.conn.online = true ↔ FewRejections judge past s op := by
  cases op with
  | setOffline => exact absurd hanswered id
  | call result =>
      simp only [step, call, FewRejections]
      cases hsending : s.flushing with
      | none => exact ⟨fun _ _ h => absurd h (Option.some_ne_none _).symm, fun _ => honline⟩
      | some sending =>
          obtain rfl := hanswered sending hsending
          cases hjudge : judge sending.events with
          | none =>
              simp only [answer, hjudge, verdict, Verdict.record]
              refine ⟨fun _ other hother hrejected => ?_, fun _ => rfl⟩
              cases hother
              exact absurd hjudge hrejected
          | some r =>
              simp only [answer, hjudge, verdict_rejection r false (Bool.false_and _), Verdict.record]
              refine Iff.trans (recordFailure_online s.conn) ⟨fun h _ _ _ => h.2, fun h => ⟨honline, ?_⟩⟩
              exact h sending rfl (by rw [hjudge]; exact Option.some_ne_none r)
  | replayCall result =>
      by_cases hread : ∃ path events files left, s.sync.pass = .read path events files ∧ s.replaying = some left
      · obtain ⟨path, events, files, left, hpass, hleft⟩ := hread
        obtain rfl := hanswered path events files hpass
        obtain ⟨htaken, hrefused⟩ := replayCall_answer judge config hpass hleft
        cases h : refused judge events with
        | false =>
            rw [(htaken h).1]
            refine ⟨fun _ path' events' files' _ hpass' hrejected => ?_, fun _ => rfl⟩
            rw [hpass] at hpass'
            cases hpass'
            rw [h] at hrejected
            cases hrejected
        | true =>
            rw [(hrefused h).1, recordFailure_online]
            refine ⟨fun hfew _ _ _ _ _ _ => hfew.2, fun hfew => ⟨honline, ?_⟩⟩
            exact hfew path events files (by rw [hleft]; exact Option.some_ne_none left) hpass h
      · rw [replayCall_of_not_read]
        · refine ⟨fun _ path events files hsome hpass => ?_, fun _ => honline⟩
          obtain ⟨left, hleft⟩ := Option.ne_none_iff_exists'.mp hsome
          exact absurd ⟨path, events, files, left, hpass, hleft⟩ hread
        · exact fun path events files left hpass hleft => hread ⟨path, events, files, left, hpass, hleft⟩
  | add | flush | stats | list | read | replay | markSynced | raise | stop =>
      rw [(quiet_step config s rfl).1]
      exact ⟨fun _ => trivial, fun _ => honline⟩

theorem goesOn_step (past : List (Op × Reply)) (s : Worker) (op : Op) (hanswered : Answered judge past s op) :
    GoesOn config past s op ↔ RefusedLast judge past s op := by
  cases op with
  | replayCall result =>
      simp only [GoesOn, RefusedLast]
      by_cases hread : ∃ path events files left, s.sync.pass = .read path events files ∧ s.replaying = some left
      · obtain ⟨path, events, files, left, hpass, hleft⟩ := hread
        obtain rfl := hanswered path events files hpass
        obtain ⟨htaken, hrefused⟩ := replayCall_answer judge config hpass hleft
        cases h : refused judge events with
        | false =>
            rw [(htaken h).2, hpass]
            refine ⟨fun _ path' events' files' _ hpass' hrejected => ?_, fun _ => rfl⟩
            cases hpass'
            rw [h] at hrejected
            cases hrejected
        | true =>
            rw [(hrefused h).2, hpass]
            constructor
            · intro hnone path' events' files' _ hpass' _
              cases hpass'
              exact hnone.symm
            · intro hlast
              exact (hlast path events files (by rw [hleft]; exact Option.some_ne_none left) rfl h).symm
      · rw [replayCall_of_not_read]
        · refine ⟨fun _ path events files hsome hpass => ?_, fun _ => rfl⟩
          obtain ⟨left, hleft⟩ := Option.ne_none_iff_exists'.mp hsome
          exact absurd ⟨path, events, files, left, hpass, hleft⟩ hread
        · exact fun path events files left hpass hleft => hread ⟨path, events, files, left, hpass, hleft⟩
  | call | setOffline | add | flush | stats | list | read | replay | markSynced | raise | stop => exact Iff.rfl

/-- The connection outlives the rejections, and every pass gets past its
rejected files, in exactly the runs whose rejections are few and last. -/
theorem unharmed_iff (contents : List (List Event)) (ops : List Op)
    (hanswered : Guarded (step config) (Answered judge) [] (.start contents) ops) :
    ((∀ before, before <+: ops → (after (step config) (.start contents) before).conn.online = true) ∧
        Guarded (step config) (GoesOn config) [] (.start contents) ops) ↔
      Guarded (step config) (fun past s op => FewRejections judge past s op ∧ RefusedLast judge past s op) []
        (.start contents) ops := by
  rw [guarded_and]
  exact and_congr (forall_prefix_iff_guarded online_step [] rfl ops hanswered)
    (guarded_congr goesOn_step [] (.start contents) ops hanswered)

def poisonEvent : Event := { metricAt 1 with data := "poison" }

def rejectPoison (events : List Event) : Option Rejection :=
  if events.contains poisonEvent then some ⟨400, "bad batch", by decide⟩ else none

def spooledPoison : List Op :=
  [.add poisonEvent, .flush, .call (answer rejectPoison [poisonEvent]), .list, .read, .replay,
    .replayCall (answer rejectPoison [poisonEvent])]

theorem unharmed_by_one :
    (∀ before, before <+: spooledPoison → (after (step twoRetries) (.start []) before).conn.online = true) ∧
      Guarded (step twoRetries) (GoesOn twoRetries) [] (.start []) spooledPoison := by
  have hanswered : Guarded (step twoRetries) (Answered rejectPoison) [] (.start []) spooledPoison := by
    refine ⟨trivial, trivial, ?_, trivial, trivial, trivial, ?_, trivial⟩
    · intro sending h
      obtain rfl := Option.some.inj h
      rfl
    · intro path events files h
      injection h with _ hevents _
      exact congrArg (answer rejectPoison) hevents
  apply (unharmed_iff [] spooledPoison hanswered).mpr
  refine ⟨⟨trivial, trivial⟩, ⟨trivial, trivial⟩, ⟨?_, trivial⟩, ⟨trivial, trivial⟩,
    ⟨trivial, trivial⟩,
    ⟨trivial, trivial⟩, ⟨?_, ?_⟩, trivial⟩
  · exact fun _ _ _ => by decide
  · exact fun _ _ _ _ _ _ => by decide
  · intro path events files _ h _
    injection h with _ _ hfiles
    exact hfiles.symm

def poisonFlushes : List Op :=
  [.add poisonEvent, .flush, .call (answer rejectPoison [poisonEvent]), .add poisonEvent, .flush,
    .call (answer rejectPoison [poisonEvent]), .add poisonEvent, .flush, .call (answer rejectPoison [poisonEvent])]

def poisonPass : List Op := [.list, .read, .replay, .replayCall (answer rejectPoison [poisonEvent])]

theorem rejections_harm :
    (Guarded (step twoRetries) (Answered rejectPoison) [] (.start []) poisonFlushes ∧
      (after (step twoRetries) (.start []) poisonFlushes).conn.online = false) ∧
    Guarded (step twoRetries) (Answered rejectPoison) [] (.start [[poisonEvent], [metricAt 1]]) poisonPass ∧
      ¬ Guarded (step twoRetries) (GoesOn twoRetries) [] (.start [[poisonEvent], [metricAt 1]]) poisonPass := by
  refine ⟨⟨⟨trivial, trivial, ?_, trivial, trivial, ?_, trivial, trivial, ?_, trivial⟩, by decide⟩,
    ⟨trivial, trivial, trivial, ?_, trivial⟩, by decide⟩
  · intro sending h
    obtain rfl := Option.some.inj h
    rfl
  · intro sending h
    obtain rfl := Option.some.inj h
    rfl
  · intro sending h
    obtain rfl := Option.some.inj h
    rfl
  · intro path events files h
    injection h with _ hevents _
    exact congrArg (answer rejectPoison) hevents

end MLRunX.RejectedBatches
