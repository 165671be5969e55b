import Mathlib.Algebra.BigOperators.Group.List.Basic
import Mathlib.Algebra.Ring.Int.Defs
import MLRunX.Batching

namespace MLRunX.BatchFolding

open Batching Coalescing
open DiskSpool (EventType)
open EventQueues (Event)
open PayloadHash (F64)

variable {floatLength : F64 → Nat} {config : BatchConfig}

structure Tally (floatLength : F64 → Nat) (adds : Nat) (events : List Event) (stats : BatchStats) : Prop where
  eventCount : stats.eventCount = events.length
  coalescedCount : stats.eventCount + stats.coalescedCount = adds
  metricCount : stats.metricCount = (events.map Event.type).count .metric
  paramCount : stats.paramCount = (events.map Event.type).count .param
  tagCount : stats.tagCount = (events.map Event.type).count .tag
  estimatedBytes : stats.estimatedBytes = (events.map (estimateEventSize floatLength)).sum

theorem tally_append {adds : Nat} {b : AdaptiveBatcher} (h : Tally floatLength adds b.events b.stats)
    (event : Event) :
    Tally floatLength (adds + 1) (append floatLength event b).events (append floatLength event b).stats := by
  have hcount : ∀ t, ((b.events ++ [event]).map Event.type).count t =
      if event.type = t then (b.events.map Event.type).count t + 1 else (b.events.map Event.type).count t := by
    intro t
    rw [List.map_append, List.count_append, List.map_singleton, List.count_singleton]
    by_cases ht : event.type = t <;> simp [ht]
  constructor
  · simp [append, updateStats, h.eventCount]
  · rw [← h.coalescedCount]
    exact Nat.add_right_comm _ _ _
  · exact (congrArg (fun n => if event.type = .metric then n + 1 else n) h.metricCount).trans (hcount .metric).symm
  · exact (congrArg (fun n => if event.type = .param then n + 1 else n) h.paramCount).trans (hcount .param).symm
  · exact (congrArg (fun n => if event.type = .tag then n + 1 else n) h.tagCount).trans (hcount .tag).symm
  · simp [append, updateStats, h.estimatedBytes]

theorem tally_replaceAt {adds : Nat} {b : AdaptiveBatcher} (h : Tally floatLength adds b.events b.stats) {i : Nat}
    {oldEvent event : Event} (hi : b.events[i]? = some oldEvent) (htype : oldEvent.type = event.type) :
    Tally floatLength (adds + 1) (replaceAt floatLength i oldEvent event b).events
      (replaceAt floatLength i oldEvent event b).stats := by
  have htypes : (b.events.set i event).map Event.type = b.events.map Event.type := by
    rw [List.map_set]
    apply List.ext_getElem?
    intro j
    rw [List.getElem?_set]
    split
    · subst j
      obtain ⟨hlt, hold⟩ := List.getElem?_eq_some_iff.mp hi
      simp [hlt, hold, htype]
    · rfl
  have hcount : ∀ t, ((b.events.set i event).map Event.type).count t = (b.events.map Event.type).count t :=
    fun t => congrArg (List.count t) htypes
  constructor
  · exact h.eventCount.trans List.length_set.symm
  · rw [← h.coalescedCount]
    rfl
  · exact h.metricCount.trans (hcount .metric).symm
  · exact h.paramCount.trans (hcount .param).symm
  · exact h.tagCount.trans (hcount .tag).symm
  · obtain ⟨hlt, hold⟩ := List.getElem?_eq_some_iff.mp hi
    have hsum : ((b.events.set i event).map (estimateEventSize floatLength)).sum =
        (b.events.map (estimateEventSize floatLength)).sum +
          (-estimateEventSize floatLength oldEvent + estimateEventSize floatLength event) := by
      rw [List.map_set, List.sum_set']
      simp [hlt, hold]
    refine Eq.trans ?_ hsum.symm
    change b.stats.estimatedBytes - _ + _ = _
    rw [h.estimatedBytes]
    omega

theorem tally_addKeyed {κ : Type} [DecidableEq κ] {adds : Nat} {b : AdaptiveBatcher}
    (h : Tally floatLength adds b.events b.stats) {index : Index κ} {k : κ} {event : Event}
    (hindex : ∀ i, index.lookup k = some i → ∃ e, b.events[i]? = some e ∧ e.type = event.type) :
    Tally floatLength (adds + 1) (addKeyed floatLength index k event b).2.events
      (addKeyed floatLength index k event b).2.stats := by
  rw [addKeyed]
  cases hlookup : index.lookup k with
  | none => exact tally_append h event
  | some i =>
      obtain ⟨oldEvent, hi, htype⟩ := hindex i hlookup
      dsimp only
      rw [hi]
      exact tally_replaceAt h hi htype

def typeOf : CoalesceKey → EventType
  | .metric _ => .metric
  | .param _ => .param
  | .tag _ => .tag

theorem type_of_coalesceKey {event : Event} {k : CoalesceKey} (h : coalesceKey config event = some k) :
    event.type = typeOf k := by
  rw [coalesceKey] at h
  split at h
  · obtain rfl := Option.some.inj h
    exact And.left ‹_›
  · split at h
    · obtain rfl := Option.some.inj h
      exact And.left ‹_›
    · split at h
      · obtain rfl := Option.some.inj h
        exact And.left ‹_›
      · cases h

theorem position_iff {b : AdaptiveBatcher} (h : Indexed config b) {k : CoalesceKey} {i : Nat} :
    b.position k = some i ↔ ∃ e, b.events[i]? = some e ∧ coalesceKey config e = some k := by
  rw [h.position, List.findIdx?_eq_some_iff_getElem]
  constructor
  · rintro ⟨hi, hkey, -⟩
    exact ⟨_, List.getElem?_eq_getElem hi, of_decide_eq_true hkey⟩
  · rintro ⟨e, hi, hkey⟩
    obtain ⟨hlt, rfl⟩ := List.getElem?_eq_some_iff.mp hi
    refine ⟨hlt, decide_eq_true hkey, fun j hj => ?_⟩
    have hne := List.pairwise_iff_getElem.mp h.distinct j i (Nat.lt_trans hj hlt) hlt hj
    rw [hkey] at hne
    exact fun heq => hne (of_decide_eq_true heq ▸ Option.some_ne_none k) (of_decide_eq_true heq)

theorem tally_add {adds : Nat} {b : AdaptiveBatcher} (hindexed : Indexed config b)
    (h : Tally floatLength adds b.events b.stats) (now : Int) (event : Event) :
    Tally floatLength (adds + 1) (add floatLength config now event b).2.events
      (add floatLength config now event b).2.stats := by
  have htyped : ∀ k i, b.position k = some i → ∃ e, b.events[i]? = some e ∧ e.type = typeOf k := by
    intro k i hi
    obtain ⟨e, he, hkey⟩ := (position_iff hindexed).mp hi
    exact ⟨e, he, type_of_coalesceKey hkey⟩
  simp only [add]
  generalize hb : (if b.stats.eventCount = 0 then { b with stats := { b.stats with createdAt := now } } else b) = b'
  have hevents : b'.events = b.events := by rw [← hb]; split <;> rfl
  have hposition : ∀ k, b'.position k = b.position k := by intro k; cases k <;> rw [← hb] <;> split <;> rfl
  have hstamped : Tally floatLength adds b'.events b'.stats := by
    rw [← hb]
    split
    · exact ⟨h.eventCount, h.coalescedCount, h.metricCount, h.paramCount, h.tagCount, h.estimatedBytes⟩
    · exact h
  have hkeyed : ∀ k i, b'.position k = some i → typeOf k = event.type →
      ∃ e, b'.events[i]? = some e ∧ e.type = event.type := by
    intro k i hi htype
    rw [hevents, ← htype]
    exact htyped k i (hposition k ▸ hi)
  split
  · rename_i hmetric
    exact tally_addKeyed hstamped (fun i hi => hkeyed (.metric (metricKey event)) i hi hmetric.1.symm)
  · split
    · rename_i hparam
      exact tally_addKeyed hstamped (fun i hi => hkeyed (.param (paramKey event)) i hi hparam.1.symm)
    · split
      · rename_i htag
        exact tally_addKeyed hstamped (fun i hi => hkeyed (.tag (tagKey event)) i hi htag.1.symm)
      · exact tally_append hstamped event

/-- What a batch hands out, for what has been added to it. -/
structure Folds (floatLength : F64 → Nat) (config : BatchConfig) (added events : List Event) (stats : BatchStats) :
    Prop where
  lastValues : events = lastValues (coalesceKey config) added
  once : Distinct (coalesceKey config) events
  stats : Tally floatLength added.length events stats

theorem indexed_foldl (added : List (Int × Event)) {adds : Nat} {b : AdaptiveBatcher} (hindexed : Indexed config b)
    (h : Tally floatLength adds b.events b.stats) :
    let b' := added.foldl (fun b a => (add floatLength config a.1 a.2 b).2) b
    Indexed config b' ∧ Tally floatLength (adds + added.length) b'.events b'.stats := by
  induction added generalizing adds b with
  | nil => exact ⟨hindexed, h⟩
  | cons a added ih =>
      rw [List.length_cons, Nat.add_comm added.length, ← Nat.add_assoc]
      exact ih (add_place a.1 a.2 hindexed).2 (tally_add hindexed h a.1 a.2)

end MLRunX.BatchFolding
