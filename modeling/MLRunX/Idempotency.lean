import Mathlib.Logic.Function.Basic
import MLRunX.Runs

namespace MLRunX.Idempotency

open Runs

inductive IdempotencyResult
  | new
  | duplicate
  | conflict (expectedHash actualHash : String)
  | outOfOrder (expectedSeq actualSeq : Int)
  deriving DecidableEq, Repr

def IdempotencyResult.shouldProcess : IdempotencyResult → Bool
  | .new | .outOfOrder _ _ => true
  | .duplicate | .conflict _ _ => false

structure BatchRecord where
  projectId : String
  runId : String
  batchId : String
  seq : Int
  payloadHash : String
  metricCount : Nat
  paramCount : Nat
  tagCount : Nat
  eventCount : Nat
  createdAt : Nat
  deriving DecidableEq, Repr

/-- The two maps of the service, each behind a lock of its own. -/
structure IdempotencyStore where
  batches : String × String → Option BatchRecord
  sequences : String → Option Int

def IdempotencyStore.empty : IdempotencyStore := ⟨fun _ => none, fun _ => none⟩

abbrev Call := BatchRecord

def BatchRecord.key (call : Call) : String × String := (call.runId, call.batchId)

def answerTo (existing : BatchRecord) (call : Call) : IdempotencyResult :=
  if existing.payloadHash = call.payloadHash then .duplicate
  else .conflict existing.payloadHash call.payloadHash

def lookup (call : Call) (store : IdempotencyStore) : Option IdempotencyResult :=
  (store.batches call.key).map (fun existing => answerTo existing call)

def orderSequence (call : Call) (store : IdempotencyStore) : Option IdempotencyResult × IdempotencyStore :=
  let currentSeq := (store.sequences call.runId).getD 0
  if 0 < call.seq ∧ call.seq < currentSeq then
    (some (.outOfOrder currentSeq call.seq), store)
  else if currentSeq < call.seq then
    (none, { store with sequences := Function.update store.sequences call.runId (some call.seq) })
  else
    (none, store)

def record (call : Call) (store : IdempotencyStore) : IdempotencyStore :=
  { store with batches := Function.update store.batches call.key (some call) }

def checkAndRecord (call : Call) (store : IdempotencyStore) : IdempotencyResult × IdempotencyStore :=
  match lookup call store with
  | some result => (result, store)
  | none =>
      let ordered := orderSequence call store
      (ordered.1.getD .new, record call ordered.2)

def IdempotencyStore.clearRun (runId : String) (store : IdempotencyStore) : IdempotencyStore where
  batches := fun key => if key.1 = runId then none else store.batches key
  sequences := Function.update store.sequences runId none

@[simp] theorem orderSequence_batches (call : Call) (store : IdempotencyStore) :
    (orderSequence call store).2.batches = store.batches := by
  simp only [orderSequence]
  split
  · rfl
  split <;> rfl

theorem orderSequence_shouldProcess (call : Call) (store : IdempotencyStore) :
    ((orderSequence call store).1.getD .new).shouldProcess = true := by
  simp only [orderSequence]
  split
  · rfl
  split <;> rfl

theorem answerTo_shouldProcess (existing : BatchRecord) (call : Call) :
    (answerTo existing call).shouldProcess = false := by
  simp only [answerTo]
  split <;> rfl

theorem answerTo_eq_duplicate_iff (existing : BatchRecord) (call : Call) :
    answerTo existing call = .duplicate ↔ existing.payloadHash = call.payloadHash := by
  simp only [answerTo]
  split <;> simp [*]

theorem checkAndRecord_recorded {call : Call} {store : IdempotencyStore} {existing : BatchRecord}
    (h : store.batches call.key = some existing) :
    checkAndRecord call store = (answerTo existing call, store) := by
  simp [checkAndRecord, lookup, h]

theorem checkAndRecord_unrecorded {call : Call} {store : IdempotencyStore}
    (h : store.batches call.key = none) :
    (checkAndRecord call store).1.shouldProcess = true ∧
      (checkAndRecord call store).2.batches = Function.update store.batches call.key (some call) := by
  have hl : lookup call store = none := by simp [lookup, h]
  rw [checkAndRecord, hl]
  refine ⟨orderSequence_shouldProcess call store, ?_⟩
  simp [record]

/-- How far a call has come: each block runs under a lock, and calls take turns
between blocks. -/
inductive Phase
  | ready
  | missed
  | ordered (seqResult : Option IdempotencyResult)
  | done (result : IdempotencyResult)
  deriving DecidableEq, Repr

def Phase.isPending : Phase → Bool
  | .missed | .ordered _ => true
  | .ready | .done _ => false

section Interleaving

variable {τ : Type} [DecidableEq τ]

/-- Any number of calls on one store. -/
structure Config (τ : Type) where
  store : IdempotencyStore
  phase : τ → Phase

def advance (calls : τ → Call) : Machine (Config τ) τ Unit
  | cfg, t => ((), match cfg.phase t with
    | .ready => match lookup (calls t) cfg.store with
      | some result => { cfg with phase := Function.update cfg.phase t (.done result) }
      | none => { cfg with phase := Function.update cfg.phase t .missed }
    | .missed =>
        let ordered := orderSequence (calls t) cfg.store
        ⟨ordered.2, Function.update cfg.phase t (.ordered ordered.1)⟩
    | .ordered seqResult =>
        ⟨record (calls t) cfg.store, Function.update cfg.phase t (.done (seqResult.getD .new))⟩
    | .done _ => cfg)

theorem advance_sequential (calls : τ → Call) (cfg : Config τ) (t : τ) (h : cfg.phase t = .ready) :
    (after (advance calls) cfg [t, t, t]).store = (checkAndRecord (calls t) cfg.store).2 ∧
      (after (advance calls) cfg [t, t, t]).phase t = .done (checkAndRecord (calls t) cfg.store).1 := by
  cases hl : lookup (calls t) cfg.store with
  | some result => simp [advance, h, hl, checkAndRecord]
  | none => simp [advance, h, hl, checkAndRecord]

def Won (cfg : Config τ) (t : τ) : Prop :=
  ∃ result, cfg.phase t = .done result ∧ result.shouldProcess = true

/-- One winner for each batch at most: it is the stored record, and whoever
else has finished was answered from it. -/
structure OneWinner (calls : τ → Call) (cfg : Config τ) : Prop where
  unique : ∀ t u, Won cfg t → Won cfg u → (calls t).key = (calls u).key → t = u
  stored : ∀ t, Won cfg t → cfg.store.batches (calls t).key = some (calls t)
  others : ∀ t, Won cfg t → ∀ u, u ≠ t → (calls u).key = (calls t).key →
    ∀ result, cfg.phase u = .done result →
      result = if (calls t).payloadHash = (calls u).payloadHash then .duplicate
        else .conflict (calls t).payloadHash (calls u).payloadHash
  losers : ∀ u result, cfg.phase u = .done result → ¬ Won cfg u →
    ∃ existing, cfg.store.batches (calls u).key = some existing ∧ result = answerTo existing (calls u)

/-- No call looks a batch up while another call stands between its lookup and
its insertion of the same batch. -/
def NoOverlap (calls : τ → Call) (_ : List (τ × Unit)) (cfg : Config τ) (t : τ) : Prop :=
  cfg.phase t = .ready → ∀ u, (calls u).key = (calls t).key → (cfg.phase u).isPending = false

structure Serial (calls : τ → Call) (cfg : Config τ) : Prop where
  pending : ∀ t, (cfg.phase t).isPending = true → cfg.store.batches (calls t).key = none
  alone : ∀ t u, (cfg.phase t).isPending = true → (cfg.phase u).isPending = true →
    (calls t).key = (calls u).key → t = u
  won : ∀ t, Won cfg t → cfg.store.batches (calls t).key = some (calls t)
  unique : ∀ t u, Won cfg t → Won cfg u → (calls t).key = (calls u).key → t = u
  outcome : ∀ t seqResult, cfg.phase t = .ordered seqResult → (seqResult.getD .new).shouldProcess = true
  lost : ∀ t result, cfg.phase t = .done result → ¬ Won cfg t →
    ∃ existing, cfg.store.batches (calls t).key = some existing ∧ result = answerTo existing (calls t)

omit [DecidableEq τ] in
theorem serial_recorded {calls : τ → Call} {cfg : Config τ} (h : Serial calls cfg) {t : τ}
    {result : IdempotencyResult} (ht : cfg.phase t = .done result) :
    cfg.store.batches (calls t).key ≠ none := by
  by_cases hw : Won cfg t
  · simp [h.won t hw]
  · obtain ⟨existing, he, -⟩ := h.lost t result ht hw
    simp [he]

omit [DecidableEq τ] in
theorem serial_oneWinner {calls : τ → Call} {cfg : Config τ} (h : Serial calls cfg) :
    OneWinner calls cfg where
  unique := h.unique
  stored := h.won
  others := by
    intro t ht u hne hk result hu
    have hlost : ¬ Won cfg u := fun hw => hne (h.unique u t hw ht hk)
    obtain ⟨existing, he, rfl⟩ := h.lost u result hu hlost
    rw [hk, h.won t ht] at he
    obtain rfl := Option.some.inj he
    rfl
  losers := h.lost

theorem won_update_ne {cfg : Config τ} {t u : τ} (hne : u ≠ t) (store : IdempotencyStore) (p : Phase) :
    Won ⟨store, Function.update cfg.phase t p⟩ u ↔ Won cfg u := by
  simp [Won, Function.update_of_ne hne]

theorem won_update_self {cfg : Config τ} {t : τ} (store : IdempotencyStore) (p : Phase) :
    Won ⟨store, Function.update cfg.phase t p⟩ t ↔
      ∃ result, p = .done result ∧ result.shouldProcess = true := by
  simp [Won]

theorem serial_move {calls : τ → Call} {cfg : Config τ} (h : Serial calls cfg) {t : τ} {store : IdempotencyStore}
    {p : Phase} (hstore : store.batches = cfg.store.batches)
    (hpend : p.isPending = true → cfg.store.batches (calls t).key = none ∧
      ∀ u, u ≠ t → (calls u).key = (calls t).key → (cfg.phase u).isPending = false)
    (hordered : ∀ seqResult, p = .ordered seqResult → (seqResult.getD .new).shouldProcess = true)
    (hdone : ∀ result, p = .done result →
      ∃ existing, cfg.store.batches (calls t).key = some existing ∧ result = answerTo existing (calls t)) :
    Serial calls ⟨store, Function.update cfg.phase t p⟩ := by
  have hnot : ¬ Won ⟨store, Function.update cfg.phase t p⟩ t := by
    rw [won_update_self]
    rintro ⟨result, hp, hs⟩
    obtain ⟨existing, -, rfl⟩ := hdone result hp
    simp [answerTo_shouldProcess] at hs
  have hwon : ∀ u, Won ⟨store, Function.update cfg.phase t p⟩ u → u ≠ t ∧ Won cfg u := by
    intro u hu
    by_cases hut : u = t
    · exact absurd (hut ▸ hu) hnot
    · exact ⟨hut, (won_update_ne hut store p).mp hu⟩
  refine ⟨?_, ?_, ?_, ?_, ?_, ?_⟩
  · intro u hu
    rw [hstore]
    by_cases hut : u = t
    · subst hut
      exact (hpend (by simpa using hu)).1
    · exact h.pending u (by simpa [Function.update_of_ne hut] using hu)
  · intro u v hu hv hk
    by_cases hut : u = t <;> by_cases hvt : v = t
    · exact hut.trans hvt.symm
    · subst hut
      have := (hpend (by simpa using hu)).2 v hvt hk.symm
      simp [Function.update_of_ne hvt, this] at hv
    · subst hvt
      have := (hpend (by simpa using hv)).2 u hut hk
      simp [Function.update_of_ne hut, this] at hu
    · exact h.alone u v (by simpa [Function.update_of_ne hut] using hu)
        (by simpa [Function.update_of_ne hvt] using hv) hk
  · intro u hu
    rw [hstore]
    exact h.won u (hwon u hu).2
  · intro u v hu hv hk
    exact h.unique u v (hwon u hu).2 (hwon v hv).2 hk
  · intro u seqResult hu
    by_cases hut : u = t
    · subst hut
      exact hordered seqResult (by simpa using hu)
    · exact h.outcome u seqResult (by simpa [Function.update_of_ne hut] using hu)
  · intro u result hu hw
    rw [hstore]
    by_cases hut : u = t
    · subst hut
      exact hdone result (by simpa using hu)
    · exact h.lost u result (by simpa [Function.update_of_ne hut] using hu)
        (fun hwu => hw ((won_update_ne hut store p).mpr hwu))

theorem serial_record {calls : τ → Call} {cfg : Config τ} (h : Serial calls cfg) {t : τ}
    (ht : (cfg.phase t).isPending = true) {result : IdempotencyResult} (hr : result.shouldProcess = true) :
    Serial calls ⟨record (calls t) cfg.store, Function.update cfg.phase t (.done result)⟩ := by
  have hnone := h.pending t ht
  have hfree : ∀ u r, cfg.phase u = .done r → (calls u).key ≠ (calls t).key := by
    intro u r hu hk
    exact serial_recorded h hu (hk ▸ hnone)
  have hother : ∀ k, k ≠ (calls t).key → (record (calls t) cfg.store).batches k = cfg.store.batches k :=
    fun k hk => Function.update_of_ne hk _ _
  have hwon : ∀ u, Won ⟨record (calls t) cfg.store, Function.update cfg.phase t (.done result)⟩ u →
      u = t ∨ (u ≠ t ∧ Won cfg u) := by
    intro u hu
    by_cases hut : u = t
    · exact .inl hut
    · exact .inr ⟨hut, (won_update_ne hut _ _).mp hu⟩
  refine ⟨?_, ?_, ?_, ?_, ?_, ?_⟩
  · intro u hu
    by_cases hut : u = t
    · simp [hut, Phase.isPending] at hu
    · have hpu : (cfg.phase u).isPending = true := by simpa [Function.update_of_ne hut] using hu
      have hk : (calls u).key ≠ (calls t).key := fun hk => hut (h.alone u t hpu ht hk)
      rw [hother _ hk]
      exact h.pending u hpu
  · intro u v hu hv hk
    have hut : u ≠ t := by rintro rfl; simp [Phase.isPending] at hu
    have hvt : v ≠ t := by rintro rfl; simp [Phase.isPending] at hv
    exact h.alone u v (by simpa [Function.update_of_ne hut] using hu)
      (by simpa [Function.update_of_ne hvt] using hv) hk
  · intro u hu
    rcases hwon u hu with rfl | ⟨hut, hwu⟩
    · simp [record]
    · obtain ⟨r, hur, hrs⟩ := hwu
      rw [hother _ (hfree u r hur)]
      exact h.won u ⟨r, hur, hrs⟩
  · intro u v hu hv hk
    rcases hwon u hu with rfl | ⟨hut, ru, hur, -⟩ <;> rcases hwon v hv with rfl | ⟨hvt, rv, hvr, -⟩
    · rfl
    · exact absurd hk.symm (hfree v rv hvr)
    · exact absurd hk (hfree u ru hur)
    · exact h.unique u v ((won_update_ne hut _ _).mp hu) ((won_update_ne hvt _ _).mp hv) hk
  · intro u seqResult hu
    by_cases hut : u = t
    · simp [hut] at hu
    · exact h.outcome u seqResult (by simpa [Function.update_of_ne hut] using hu)
  · intro u r hu hw
    by_cases hut : u = t
    · subst hut
      refine absurd ((won_update_self _ _).mpr ⟨result, rfl, hr⟩) hw
    · have hur : cfg.phase u = .done r := by simpa [Function.update_of_ne hut] using hu
      rw [hother _ (hfree u r hur)]
      exact h.lost u r hur (fun hwu => hw ((won_update_ne hut _ _).mpr hwu))

theorem serial_step (calls : τ → Call) (past : List (τ × Unit)) (cfg : Config τ) (t : τ)
    (h : Serial calls cfg) (hg : NoOverlap calls past cfg t) : Serial calls (advance calls cfg t).2 := by
  simp only [advance]
  cases hp : cfg.phase t with
  | ready =>
      cases hl : lookup (calls t) cfg.store with
      | some result =>
          obtain ⟨existing, he, hres⟩ := Option.map_eq_some_iff.mp hl
          refine serial_move h rfl nofun nofun (fun r hr => ⟨existing, he, ?_⟩)
          obtain rfl := Phase.done.inj hr
          exact hres.symm
      | none =>
          refine serial_move h rfl (fun _ => ⟨?_, fun u _ hk => hg hp u hk⟩) nofun nofun
          exact Option.map_eq_none_iff.mp hl
  | missed =>
      have hpt : (cfg.phase t).isPending = true := by rw [hp]; rfl
      refine serial_move h (orderSequence_batches _ _) (fun _ => ⟨h.pending t hpt, ?_⟩) ?_ nofun
      · intro u hut hk
        by_contra hu
        exact hut (h.alone u t (by simpa using hu) hpt hk)
      · intro seqResult hs
        rw [← Phase.ordered.inj hs]
        exact orderSequence_shouldProcess _ _
  | ordered seqResult =>
      exact serial_record h (by rw [hp]; rfl) (h.outcome t seqResult hp)
  | done result => exact h

omit [DecidableEq τ] in
theorem serial_start (calls : τ → Call) (store : IdempotencyStore) : Serial calls ⟨store, fun _ => .ready⟩ where
  pending := nofun
  alone := nofun
  won := by rintro t ⟨result, h, -⟩; cases h
  unique := by rintro t u ⟨result, h, -⟩; cases h
  outcome := nofun
  lost := nofun

/-- Every schedule of any calls on any store has one winner a batch, as long as
no two lookups of a batch both precede its insertion. -/
theorem oneWinner_of_noOverlap (calls : τ → Call) (store : IdempotencyStore) (schedule : List τ)
    (hg : Guarded (advance calls) (NoOverlap calls) [] ⟨store, fun _ => .ready⟩ schedule) :
    OneWinner calls (after (advance calls) ⟨store, fun _ => .ready⟩ schedule) :=
  serial_oneWinner (invariant_history (fun _ cfg => Serial calls cfg) (serial_step calls) [] _ schedule
    (serial_start calls store) hg)

def sameBatch : Bool → Call := fun _ => ⟨"p", "r", "b", 1, "h", 1, 0, 0, 0, 0⟩

theorem oneWinner_one_after_the_other :
    OneWinner sameBatch (after (advance sameBatch) ⟨.empty, fun _ => .ready⟩
      [true, true, true, false]) := by
  refine oneWinner_of_noOverlap sameBatch .empty [true, true, true, false] ?_
  refine ⟨fun _ _ _ => rfl, nofun, nofun, fun _ u _ => ?_, trivial⟩
  cases u <;> rfl

theorem two_winners :
    ¬ OneWinner sameBatch (after (advance sameBatch) ⟨.empty, fun _ => .ready⟩
      [true, false, true, false, true, false]) := by
  intro h
  have htrue : Won (after (advance sameBatch) ⟨.empty, fun _ => .ready⟩
      [true, false, true, false, true, false]) true := ⟨.new, by rfl, rfl⟩
  have hfalse : Won (after (advance sameBatch) ⟨.empty, fun _ => .ready⟩
      [true, false, true, false, true, false]) false := ⟨.new, by rfl, rfl⟩
  exact Bool.noConfusion (h.unique true false htrue hfalse rfl)

end Interleaving

end MLRunX.Idempotency
