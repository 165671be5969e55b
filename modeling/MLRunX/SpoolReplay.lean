import MLRunX.Http
import MLRunX.Text

namespace MLRunX.SpoolReplay

open Http Text

structure TransportError where
  message : String
  statusCode : Option Nat
  retryable : Bool
  deriving DecidableEq, Repr

def handleError (code : Nat) (text : String) : TransportError :=
  if 500 ≤ code then ⟨s!"Server error: {code}", some code, true⟩
  else ⟨s!"Client error: {code} - {text}", some code, false⟩

/-- A refusal by the server that has nothing to do with the run's existence or
status: credentials, rates, the payload. Such refusals have other codes. -/
structure Refusal where
  status : StatusCode
  text : String
  not_missing : status ≠ .notFound
  not_stopped : status ≠ .preconditionFailed

/-- How one request to the ingest endpoint ends. -/
inductive Attempt
  | unreachable
  | timedOut
  | unexpected
  | answered (refusal : Option Refusal)

def isRunning (status : Option String) : Bool := status.any (fun s => eqIgnoreAsciiCase s "running")

def serverIngest (runId : String) (status : Option String) (refusal : Option Refusal) :
    Except TransportError Unit :=
  match refusal, status with
  | some r, _ => .error (handleError r.status.code r.text)
  | none, none => .error (handleError 404 s!"Run not found: {runId}")
  | none, some _ =>
      if isRunning status then .ok ()
      else .error (handleError 412 s!"Run {runId} is not running")

def sendBatch (runId : String) (status : Option String) : Attempt → Except TransportError Unit
  | .unreachable => .error ⟨"Connection failed", none, true⟩
  | .timedOut => .error ⟨"Request timed out", none, true⟩
  | .unexpected => .error ⟨"Unexpected error", none, false⟩
  | .answered refusal => serverIngest runId status refusal

def isTerminalSpoolError (e : TransportError) : Bool :=
  (e.statusCode == some 404 && containsText "run not found" (toAsciiLowercase e.message)) ||
    (e.statusCode == some 412 && containsText "not running" (toAsciiLowercase e.message))

structure ConnectionState where
  online : Bool := true
  consecutiveFailures : Nat := 0
  deriving DecidableEq, Repr

def ConnectionState.recordSuccess (_ : ConnectionState) : ConnectionState := ⟨true, 0⟩

def ConnectionState.recordFailure (conn : ConnectionState) : ConnectionState :=
  ⟨conn.online && conn.consecutiveFailures + 1 < 3, conn.consecutiveFailures + 1⟩

def ConnectionState.setOffline (conn : ConnectionState) : ConnectionState :=
  ⟨false, max 3 conn.consecutiveFailures⟩

inductive SpoolReplayOutcome
  | synced | droppedTerminal | failed
  deriving DecidableEq, Repr

structure SpoolReplaySendResult where
  outcome : SpoolReplayOutcome
  runId : Option String
  eventCount : Nat
  error : Option TransportError
  deriving DecidableEq, Repr

def SpoolReplaySendResult.success (r : SpoolReplaySendResult) : Bool := r.outcome != .failed

/-- The retry loop of a send. Attempts that are not listed find no server. -/
def sendLoop (replaying : Bool) (runId : String) (status : Option String) (eventCount : Nat) :
    Nat → List Attempt → ConnectionState → SpoolReplaySendResult × ConnectionState
  | retriesLeft, attempts, conn =>
      match sendBatch runId status (attempts.headD .unreachable) with
      | .ok () => (⟨.synced, some runId, eventCount, none⟩, conn.recordSuccess)
      | .error e =>
          if replaying && isTerminalSpoolError e then
            (⟨.droppedTerminal, some runId, eventCount, some e⟩, conn.recordSuccess)
          else match retriesLeft with
            | 0 => (⟨.failed, some runId, eventCount, some e⟩, conn.recordFailure)
            | left + 1 =>
                if e.retryable then
                  sendLoop replaying runId status eventCount left attempts.tail conn.recordFailure
                else
                  (⟨.failed, some runId, eventCount, some e⟩, conn.recordFailure)

theorem sendBatch_not_terminal {runId : String} {status : Option String} (hrun : isRunning status = true)
    {attempt : Attempt} {e : TransportError} (he : sendBatch runId status attempt = .error e) :
    isTerminalSpoolError e = false := by
  cases attempt with
  | unreachable | timedOut | unexpected =>
      obtain rfl := Except.error.inj he
      simp [isTerminalSpoolError]
  | answered refusal =>
      cases refusal with
      | none =>
          cases status with
          | none => cases hrun
          | some st =>
              simp only [sendBatch, serverIngest, hrun, if_true] at he
              cases he
      | some r =>
          obtain rfl := Except.error.inj he
          have h₁ := r.not_missing
          have h₂ := r.not_stopped
          simp only [isTerminalSpoolError, handleError]
          cases hst : r.status <;> simp_all [StatusCode.code]

end MLRunX.SpoolReplay
