import MLRunX.DiskSpool
import MLRunX.PayloadHash

namespace MLRunX.EventQueues

open DiskSpool (EventType)
open PayloadHash (F64)

/-- What the SDK puts into the data of an event. -/
inductive Value
  | str (s : String)
  | int (n : Int)
  | float (x : F64)
  | none
  deriving DecidableEq, Repr

abbrev Data := List (String × Value)

def Data.get (data : Data) (key : String) (default : Value) : Value := (data.lookup key).getD default

/-- An event on its way to a batch, with its data still a dictionary. -/
structure Event where
  type : EventType
  runId : String
  timestamp : Nat
  data : Data
  deriving DecidableEq, Repr

def Event.spooled (dumps : Data → String) (event : Event) : DiskSpool.Event :=
  ⟨event.type, event.runId, event.timestamp, dumps event.data⟩

structure EventQueue where
  maxSize : Int
  events : List Event
  droppedCount : Nat
  deriving DecidableEq, Repr

def EventQueue.empty (maxSize : Int) : EventQueue := ⟨maxSize, [], 0⟩

def EventQueue.full (q : EventQueue) : Bool := 0 < q.maxSize && q.maxSize ≤ q.events.length

def put (event : Event) (q : EventQueue) : Bool × EventQueue :=
  if q.full then (false, { q with droppedCount := q.droppedCount + 1 })
  else (true, { q with events := q.events ++ [event] })

/-- No more than `maxItems` events, nor than had arrived in time. -/
def getBatch (maxItems arrived : Nat) (q : EventQueue) : List Event × EventQueue :=
  let count := min maxItems arrived
  (q.events.take count, { q with events := q.events.drop count })

def drain (q : EventQueue) : List Event × EventQueue := (q.events, { q with events := [] })

theorem put_accepted {event : Event} {q : EventQueue} (h : (put event q).1 = true) :
    (put event q).2 = { q with events := q.events ++ [event] } := by
  simp only [put] at h ⊢
  split at h
  · cases h
  · rename_i hfull
    rw [if_neg hfull]

theorem mem_put {event e : Event} {q : EventQueue} (h : e ∈ q.events) : e ∈ (put event q).2.events := by
  simp only [put]
  split
  · exact h
  · exact List.mem_append_left _ h

theorem mem_getBatch (maxItems arrived : Nat) {q : EventQueue} {e : Event} :
    e ∈ (getBatch maxItems arrived q).1 ∨ e ∈ (getBatch maxItems arrived q).2.events ↔ e ∈ q.events := by
  rw [getBatch, ← List.mem_append, List.take_append_drop]

end MLRunX.EventQueues
