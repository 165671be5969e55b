import MLRunX.Coalescing
import MLRunX.EventQueues

namespace MLRunX.Batching

open Coalescing
open DiskSpool (EventType)
open EventQueues (Data Event Value)
open PayloadHash (F64)

structure BatchConfig where
  maxItems : Nat
  maxBytes : Int
  maxAgeMs : Int
  coalesceMetrics : Bool
  dedupeParams : Bool
  dedupeTags : Bool
  deriving DecidableEq, Repr

structure BatchStats where
  eventCount : Nat := 0
  metricCount : Nat := 0
  paramCount : Nat := 0
  tagCount : Nat := 0
  estimatedBytes : Int := 0
  coalescedCount : Nat := 0
  createdAt : Int := 0
  deriving DecidableEq, Repr

abbrev Index (κ : Type) := List (κ × Nat)

structure AdaptiveBatcher where
  events : List Event
  stats : BatchStats
  metricIndex : Index (Value × Value)
  paramIndex : Index Value
  tagIndex : Index Value
  deriving DecidableEq, Repr

def AdaptiveBatcher.empty (now : Int) : AdaptiveBatcher := ⟨[], { createdAt := now }, [], [], []⟩

-- How long a floating point number is once printed.
variable (floatLength : F64 → Nat)

def Value.strLength : Value → Nat
  | .str s => s.length
  | .int n => (toString n).length
  | .float x => floatLength x
  | .none => 4

def estimateEventSize (event : Event) : Int :=
  event.data.foldl (fun size entry => size + (entry.1.length + Value.strLength floatLength entry.2 + 10 : Int)) 50

def updateStats (event : Event) (stats : BatchStats) : BatchStats :=
  { stats with
    eventCount := stats.eventCount + 1
    estimatedBytes := stats.estimatedBytes + estimateEventSize floatLength event
    metricCount := if event.type = .metric then stats.metricCount + 1 else stats.metricCount
    paramCount := if event.type = .param then stats.paramCount + 1 else stats.paramCount
    tagCount := if event.type = .tag then stats.tagCount + 1 else stats.tagCount }

def append (event : Event) (b : AdaptiveBatcher) : AdaptiveBatcher :=
  { b with events := b.events ++ [event], stats := updateStats floatLength event b.stats }

def replaceAt (index : Nat) (oldEvent event : Event) (b : AdaptiveBatcher) : AdaptiveBatcher :=
  { b with
    events := b.events.set index event
    stats := { b.stats with
      coalescedCount := b.stats.coalescedCount + 1
      estimatedBytes := b.stats.estimatedBytes - estimateEventSize floatLength oldEvent +
        estimateEventSize floatLength event } }

/-- An event takes the place of the one with its key, if there is one. -/
def addKeyed {κ : Type} [DecidableEq κ] (index : Index κ) (key : κ) (event : Event) (b : AdaptiveBatcher) :
    Index κ × AdaptiveBatcher :=
  match index.lookup key with
  | some i => match b.events[i]? with
      | some oldEvent => (index, replaceAt floatLength i oldEvent event b)
      | none => (index, b)
  | none => ((key, b.events.length) :: index, append floatLength event b)

def metricKey (event : Event) : Value × Value :=
  (event.data.get "name" (.str ""), event.data.get "step" (.int 0))

def paramKey (event : Event) : Value := event.data.get "name" (.str "")

def tagKey (event : Event) : Value := event.data.get "key" (.str "")

def addMetricCoalesced (event : Event) (b : AdaptiveBatcher) : AdaptiveBatcher :=
  let r := addKeyed floatLength b.metricIndex (metricKey event) event b
  { r.2 with metricIndex := r.1 }

def addParamDeduped (event : Event) (b : AdaptiveBatcher) : AdaptiveBatcher :=
  let r := addKeyed floatLength b.paramIndex (paramKey event) event b
  { r.2 with paramIndex := r.1 }

def addTagDeduped (event : Event) (b : AdaptiveBatcher) : AdaptiveBatcher :=
  let r := addKeyed floatLength b.tagIndex (tagKey event) event b
  { r.2 with tagIndex := r.1 }

variable (config : BatchConfig)

def shouldFlush (now : Int) (b : AdaptiveBatcher) : Bool :=
  config.maxItems ≤ b.stats.eventCount || config.maxBytes ≤ b.stats.estimatedBytes ||
    config.maxAgeMs ≤ now - b.stats.createdAt

def add (now : Int) (event : Event) (b : AdaptiveBatcher) : Bool × AdaptiveBatcher :=
  let b := if b.stats.eventCount = 0 then { b with stats := { b.stats with createdAt := now } } else b
  let b :=
    if event.type = .metric ∧ config.coalesceMetrics then addMetricCoalesced floatLength event b
    else if event.type = .param ∧ config.dedupeParams then addParamDeduped floatLength event b
    else if event.type = .tag ∧ config.dedupeTags then addTagDeduped floatLength event b
    else append floatLength event b
  (shouldFlush config now b, b)

def flush (now : Int) (b : AdaptiveBatcher) : List Event × BatchStats × AdaptiveBatcher :=
  (b.events, b.stats, .empty now)

def AdaptiveBatcher.isEmpty (b : AdaptiveBatcher) : Bool := b.stats.eventCount == 0

variable {floatLength config}

theorem addKeyed_events {κ : Type} [DecidableEq κ] (index : Index κ) (key : κ) (event : Event)
    (b : AdaptiveBatcher) :
    (addKeyed floatLength index key event b).2.events = b.events ++ [event] ∨
      ∃ i, (addKeyed floatLength index key event b).2.events = b.events.set i event := by
  rw [addKeyed]
  cases index.lookup key with
  | none => exact .inl rfl
  | some i =>
      refine .inr ⟨i, ?_⟩
      dsimp only
      cases hi : b.events[i]? with
      | some oldEvent => rfl
      | none => exact (List.set_eq_of_length_le (List.getElem?_eq_none_iff.mp hi)).symm

/-- An event goes to the end of the batch or takes a place in it. -/
theorem add_events (now : Int) (event : Event) (b : AdaptiveBatcher) :
    (add floatLength config now event b).2.events = b.events ++ [event] ∨
      ∃ i, (add floatLength config now event b).2.events = b.events.set i event := by
  have hstamped : (if b.stats.eventCount = 0 then { b with stats := { b.stats with createdAt := now } } else b).events =
      b.events := by
    split <;> rfl
  rw [← hstamped]
  simp only [add]
  generalize (if b.stats.eventCount = 0 then { b with stats := { b.stats with createdAt := now } } else b) = stamped
  split
  · exact addKeyed_events stamped.metricIndex (metricKey event) event stamped
  · split
    · exact addKeyed_events stamped.paramIndex (paramKey event) event stamped
    · split
      · exact addKeyed_events stamped.tagIndex (tagKey event) event stamped
      · exact .inl rfl

theorem add_events_of_plain (hmetrics : config.coalesceMetrics = false) (hparams : config.dedupeParams = false)
    (htags : config.dedupeTags = false) (now : Int) (event : Event) (b : AdaptiveBatcher) :
    (add floatLength config now event b).2.events = b.events ++ [event] := by
  simp only [add, hmetrics, hparams, htags, Bool.false_eq_true, and_false, if_false, append]
  split <;> rfl

/-- What an event is known by in a batch. -/
inductive CoalesceKey
  | metric (key : Value × Value)
  | param (name : Value)
  | tag (key : Value)
  deriving DecidableEq, Repr

/-- The key under which another event takes the place of an event. -/
def coalesceKey (config : BatchConfig) (event : Event) : Option CoalesceKey :=
  if event.type = .metric ∧ config.coalesceMetrics then some (.metric (metricKey event))
  else if event.type = .param ∧ config.dedupeParams then some (.param (paramKey event))
  else if event.type = .tag ∧ config.dedupeTags then some (.tag (tagKey event))
  else none

def Index.position {κ : Type} [DecidableEq κ] (index : Index κ) (key : κ) : Option Nat := index.lookup key

def AdaptiveBatcher.position (b : AdaptiveBatcher) : CoalesceKey → Option Nat
  | .metric key => Index.position b.metricIndex key
  | .param name => Index.position b.paramIndex name
  | .tag key => Index.position b.tagIndex key

/-- The indexes of a batch say where its events stand. -/
structure Indexed (config : BatchConfig) (b : AdaptiveBatcher) : Prop where
  position : ∀ k, b.position k = b.events.findIdx? (fun e => coalesceKey config e = some k)
  distinct : Distinct (coalesceKey config) b.events

theorem addKeyed_spec {κ : Type} [DecidableEq κ] {wrap : κ → CoalesceKey} (hwrap : Function.Injective wrap)
    (index : Index κ) {k : κ} {event : Event} {b : AdaptiveBatcher}
    (hdistinct : Distinct (coalesceKey config) b.events)
    (hindex : ∀ k', index.lookup k' = b.events.findIdx? (fun e => coalesceKey config e = some (wrap k')))
    (hkey : coalesceKey config event = some (wrap k)) :
    (addKeyed floatLength index k event b).2.events = place (coalesceKey config) b.events event ∧
      ∀ k', (addKeyed floatLength index k event b).1.lookup k' =
        (place (coalesceKey config) b.events event).findIdx? (fun e => coalesceKey config e = some (wrap k')) := by
  have hlookup := hindex k
  rw [addKeyed]
  cases hfound : index.lookup k with
  | none =>
      have hfresh : some (wrap k) ∉ b.events.map (coalesceKey config) := by
        intro hmem
        obtain ⟨e, he, heq⟩ := List.mem_map.mp hmem
        rw [hfound] at hlookup
        exact of_decide_eq_false (List.findIdx?_eq_none_iff.mp hlookup.symm e he) heq
      refine ⟨(place_fresh (fun _ => hkey ▸ hfresh)).symm, fun k' => ?_⟩
      rw [findIdx?_place, hkey, List.lookup_cons]
      by_cases hk : k' = k
      · subst hk
        simp [hfresh]
      · have hne : wrap k ≠ wrap k' := fun heq => hk (hwrap heq).symm
        have hbeq : (k' == k) = false := beq_false_of_ne hk
        simp [hbeq, hne, hindex k']
  | some i =>
      rw [hfound] at hlookup
      obtain ⟨hi, hpos, -⟩ := List.findIdx?_eq_some_iff_getElem.mp hlookup.symm
      have hold : b.events[i]? = some b.events[i] := List.getElem?_eq_getElem hi
      have hsame : coalesceKey config b.events[i] = coalesceKey config event :=
        (of_decide_eq_true hpos).trans hkey.symm
      have hne : coalesceKey config event ≠ none := hkey ▸ Option.some_ne_none _
      have hmem : coalesceKey config event ∈ b.events.map (coalesceKey config) :=
        hsame ▸ List.mem_map_of_mem (List.getElem_mem hi)
      dsimp only
      rw [hold]
      refine ⟨?_, fun k' => ?_⟩
      · rw [place_taken hne hmem, ← set_eq_map hdistinct hold hsame hne]
        rfl
      · rw [findIdx?_place, if_neg]
        · exact hindex k'
        · rintro ⟨heq, hnot⟩
          exact hnot (heq ▸ hmem)

theorem addKeyed_indexes {κ : Type} [DecidableEq κ] (index : Index κ) (k : κ) (event : Event)
    (b : AdaptiveBatcher) :
    (addKeyed floatLength index k event b).2.metricIndex = b.metricIndex ∧
      (addKeyed floatLength index k event b).2.paramIndex = b.paramIndex ∧
        (addKeyed floatLength index k event b).2.tagIndex = b.tagIndex := by
  rw [addKeyed]
  cases index.lookup k with
  | none => exact ⟨rfl, rfl, rfl⟩
  | some i =>
      dsimp only
      cases b.events[i]? with
      | none => exact ⟨rfl, rfl, rfl⟩
      | some oldEvent => exact ⟨rfl, rfl, rfl⟩

theorem findIdx?_other {as : List Event} {event : Event} {k : CoalesceKey}
    (h : coalesceKey config event ≠ some k) :
    (place (coalesceKey config) as event).findIdx? (fun e => coalesceKey config e = some k) =
      as.findIdx? (fun e => coalesceKey config e = some k) := by
  rw [findIdx?_place, if_neg]
  exact fun hk => h hk.1

theorem add_place (now : Int) (event : Event) {b : AdaptiveBatcher} (h : Indexed config b) :
    (add floatLength config now event b).2.events = place (coalesceKey config) b.events event ∧
      Indexed config (add floatLength config now event b).2 := by
  have hstamped : ∀ b', b'.events = b.events → b'.metricIndex = b.metricIndex → b'.paramIndex = b.paramIndex →
      b'.tagIndex = b.tagIndex → Indexed config b' := by
    intro b' hevents hmetrics hparams htags
    refine ⟨fun k => ?_, hevents ▸ h.distinct⟩
    rw [hevents, ← h.position k]
    cases k with
    | metric key => exact congrArg (Index.position · key) hmetrics
    | param name => exact congrArg (Index.position · name) hparams
    | tag key => exact congrArg (Index.position · key) htags
  simp only [add]
  generalize hb : (if b.stats.eventCount = 0 then { b with stats := { b.stats with createdAt := now } } else b) = b'
  have hevents : b'.events = b.events := by rw [← hb]; split <;> rfl
  have hindexed : Indexed config b' := by
    apply hstamped b' hevents <;> rw [← hb] <;> split <;> rfl
  rw [← hevents]
  have hdistinct := distinct_place hindexed.distinct event
  have hother : ∀ k {k'}, coalesceKey config event = some k' → k' ≠ k → b'.position k =
      (place (coalesceKey config) b'.events event).findIdx? (fun e => coalesceKey config e = some k) := by
    intro k k' hkey hne
    rw [findIdx?_other (fun heq => hne (Option.some.inj (hkey.symm.trans heq))), hindexed.position]
  split
  · rename_i hmetric
    have hkey : coalesceKey config event = some (.metric (metricKey event)) := by rw [coalesceKey, if_pos hmetric]
    obtain ⟨hplaced, hlookup⟩ := @addKeyed_spec floatLength config _ _ _ (fun _ _ => CoalesceKey.metric.inj)
      b'.metricIndex _ event b' hindexed.distinct (fun k' => hindexed.position (.metric k')) hkey
    obtain ⟨-, hparams, htags⟩ := @addKeyed_indexes floatLength _ _ b'.metricIndex (metricKey event) event b'
    refine ⟨hplaced, fun k => ?_, hplaced.symm ▸ hdistinct⟩
    simp only [addMetricCoalesced, hplaced]
    cases k with
    | metric key => exact hlookup key
    | param name => exact (congrArg (Index.position · name) hparams).trans (hother (.param name) hkey (by simp))
    | tag key => exact (congrArg (Index.position · key) htags).trans (hother (.tag key) hkey (by simp))
  rename_i hmetric
  split
  · rename_i hparam
    have hkey : coalesceKey config event = some (.param (paramKey event)) := by
      rw [coalesceKey, if_neg hmetric, if_pos hparam]
    obtain ⟨hplaced, hlookup⟩ := @addKeyed_spec floatLength config _ _ _ (fun _ _ => CoalesceKey.param.inj)
      b'.paramIndex _ event b' hindexed.distinct (fun k' => hindexed.position (.param k')) hkey
    obtain ⟨hmetrics, -, htags⟩ := @addKeyed_indexes floatLength _ _ b'.paramIndex (paramKey event) event b'
    refine ⟨hplaced, fun k => ?_, hplaced.symm ▸ hdistinct⟩
    simp only [addParamDeduped, hplaced]
    cases k with
    | metric key => exact (congrArg (Index.position · key) hmetrics).trans (hother (.metric key) hkey (by simp))
    | param name => exact hlookup name
    | tag key => exact (congrArg (Index.position · key) htags).trans (hother (.tag key) hkey (by simp))
  rename_i hparam
  split
  · rename_i htag
    have hkey : coalesceKey config event = some (.tag (tagKey event)) := by
      rw [coalesceKey, if_neg hmetric, if_neg hparam, if_pos htag]
    obtain ⟨hplaced, hlookup⟩ := @addKeyed_spec floatLength config _ _ _ (fun _ _ => CoalesceKey.tag.inj)
      b'.tagIndex _ event b' hindexed.distinct (fun k' => hindexed.position (.tag k')) hkey
    obtain ⟨hmetrics, hparams, -⟩ := @addKeyed_indexes floatLength _ _ b'.tagIndex (tagKey event) event b'
    refine ⟨hplaced, fun k => ?_, hplaced.symm ▸ hdistinct⟩
    simp only [addTagDeduped, hplaced]
    cases k with
    | metric key => exact (congrArg (Index.position · key) hmetrics).trans (hother (.metric key) hkey (by simp))
    | param name => exact (congrArg (Index.position · name) hparams).trans (hother (.param name) hkey (by simp))
    | tag key => exact hlookup key
  · rename_i htag
    have hkey : coalesceKey config event = none := by
      rw [coalesceKey, if_neg hmetric, if_neg hparam, if_neg htag]
    have hplaced : (append floatLength event b').events = place (coalesceKey config) b'.events event :=
      (place_fresh (fun hne => absurd hkey hne)).symm
    refine ⟨hplaced, fun k => ?_, hplaced.symm ▸ hdistinct⟩
    rw [hplaced, findIdx?_other (hkey ▸ (Option.some_ne_none k).symm)]
    exact hindexed.position k

theorem indexed_empty (now : Int) : Indexed config (.empty now) where
  position k := by cases k <;> rfl
  distinct := List.Pairwise.nil

/-- A batch holds what was added to it since the last flush, coalesced by the keys. -/
theorem foldl_add (created : Int) (added : List (Int × Event)) :
    (added.foldl (fun b a => (add floatLength config a.1 a.2 b).2) (.empty created)).events =
      coalesce (coalesceKey config) (added.map Prod.snd) := by
  have hfold : ∀ b, Indexed config b → (added.foldl (fun b a => (add floatLength config a.1 a.2 b).2) b).events =
      (added.map Prod.snd).foldl (place (coalesceKey config)) b.events := by
    induction added with
    | nil => exact fun _ _ => rfl
    | cons a added ih =>
        intro b hb
        obtain ⟨hplaced, hindexed⟩ := add_place a.1 a.2 hb
        rw [List.foldl_cons, ih _ hindexed, hplaced]
        rfl
  exact hfold _ (indexed_empty created)

end MLRunX.Batching
