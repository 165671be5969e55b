import MLRunX.PayloadOrder
import MLRunX.RetrySafety

namespace MLRunX.PayloadFrames

open Idempotency Ingest IngestRequest PayloadHash PayloadOrder RunTables StableSort Text

/-! Texts and numbers as bytes. -/

theorem bytes_inj {s t : String} (h : Text.bytes s = Text.bytes t) : s = t := by
  apply String.toByteArray_inj.1
  rw [← String.utf8Encode_toList, ← String.utf8Encode_toList, List.utf8Encode, List.utf8Encode]
  exact congrArg List.toByteArray h

theorem length_bytes (s : String) : (Text.bytes s).length = byteLength s := by
  simp [Text.bytes, byteLength, List.length_flatMap]

theorem leBytes_inj {x y : UInt64} (h : leBytes x = leBytes y) : x = y := by
  simp only [leBytes, List.range, List.range.loop, List.map_cons, List.map_nil, List.cons.injEq, and_true] at h
  simp only [← UInt8.toNat_inj, UInt64.toNat_toUInt8, UInt64.toNat_shiftRight] at h
  simp [Nat.shiftRight_eq_div_pow] at h
  have hx := x.toNat_lt
  have hy := y.toNat_lt
  apply UInt64.toNat.inj
  omega

theorem toUInt64_inj {a b : Int64} (h : a.toUInt64 = b.toUInt64) : a = b := by
  cases a
  cases b
  exact congrArg Int64.ofUInt64 h

theorem bytes_split {s t : String} {r r' : List UInt8} (hlen : byteLength s = byteLength t)
    (h : Text.bytes s ++ r = Text.bytes t ++ r') : s = t ∧ r = r' := by
  rw [← length_bytes, ← length_bytes] at hlen
  obtain ⟨hs, hr⟩ := List.append_inj h hlen
  exact ⟨bytes_inj hs, hr⟩

theorem leBytes_split {x y : UInt64} {r r' : List UInt8} (h : leBytes x ++ r = leBytes y ++ r') :
    x = y ∧ r = r' := by
  obtain ⟨hx, hr⟩ := List.append_inj h (by simp [leBytes])
  exact ⟨leBytes_inj hx, hr⟩

/-- The bytes of a list of items, of which one can tell where each ends, can be
told from what is behind them. -/
theorem flatMap_split {α φ : Type} {bytes : α → List UInt8} {frame : α → φ}
    (hsplit : ∀ {a b r r'}, frame a = frame b → bytes a ++ r = bytes b ++ r' → a = b ∧ r = r') {as bs : List α}
    {r r' : List UInt8} (hframes : as.map frame = bs.map frame)
    (h : as.flatMap bytes ++ r = bs.flatMap bytes ++ r') : as = bs ∧ r = r' := by
  induction as generalizing bs with
  | nil =>
      obtain rfl := List.map_eq_nil_iff.1 hframes.symm
      exact ⟨rfl, h⟩
  | cons a as ih =>
      cases bs with
      | nil => simp at hframes
      | cons b bs =>
          rw [List.map_cons, List.map_cons, List.cons.injEq] at hframes
          rw [List.flatMap_cons, List.flatMap_cons, List.append_assoc, List.append_assoc] at h
          obtain ⟨rfl, hrest⟩ := hsplit hframes.1 h
          obtain ⟨rfl, hend⟩ := ih hframes.2 hrest
          exact ⟨rfl, hend⟩

/-- The data that a batch carries. -/
structure Data where
  metrics : List ExpandedMetricData
  params : List (String × String)
  tags : List (String × String)
  events : List EventPayload
  deriving DecidableEq

def dataOf (batch : ValidatedBatch) (events : List LogEventData) : Data :=
  ⟨batch.metrics, batch.params, batch.tags, events.map eventPayload⟩

def metricPayload (m : ExpandedMetricData) : MetricPayload := ⟨m.name, m.value, m.step⟩

def paramPayload (p : String × String) : ParamPayload := ⟨p.1, p.2⟩

def tagPayload (t : String × String) : TagPayload := ⟨t.1, t.2⟩

/-- What is hashed of the data. -/
def Data.stream (d : Data) : List UInt8 :=
  payloadBytes (d.metrics.map metricPayload) (d.params.map paramPayload) (d.tags.map tagPayload) d.events

theorem hashBatch_eq (sha256 : List UInt8 → List UInt8) (batch : ValidatedBatch) (events : List LogEventData) :
    hashBatch sha256 batch events = hexEncode (sha256 (dataOf batch events).stream) := rfl

/-- The same items, in any order. -/
structure SameData (a b : Data) : Prop where
  metrics : a.metrics.Perm b.metrics
  params : a.params.Perm b.params
  tags : a.tags.Perm b.tags
  events : a.events.Perm b.events

def metricCmp (m n : ExpandedMetricData) : Ordering := (metricPayload m).cmp (metricPayload n)

def fieldCmp (p q : String × String) : Ordering := compare p.1 q.1

/-! What of an item is not hashed: where its texts end, whether an optional
number is given, and the timestamp of a metric. -/

def metricFrame (m : ExpandedMetricData) : Nat × Option F64 := (byteLength m.name, m.timestamp)

def fieldFrame (p : String × String) : Nat × Nat := (byteLength p.1, byteLength p.2)

def eventFrame (e : EventPayload) : Nat × Nat × Nat × Bool × Bool :=
  (byteLength e.level, byteLength e.source, byteLength e.message, e.step.isSome, e.timestamp.isSome)

/-- The items, in the order in which they are hashed, agree in what is not
hashed. -/
structure FramedAlike (a b : Data) : Prop where
  metrics : (sortBy metricCmp a.metrics).map metricFrame = (sortBy metricCmp b.metrics).map metricFrame
  params : (sortBy fieldCmp a.params).map fieldFrame = (sortBy fieldCmp b.params).map fieldFrame
  tags : (sortBy fieldCmp a.tags).map fieldFrame = (sortBy fieldCmp b.tags).map fieldFrame
  events : (sortBy EventPayload.cmp a.events).map eventFrame = (sortBy EventPayload.cmp b.events).map eventFrame

/-- No two different items have one sort key. -/
structure KeysDiffer (d : Data) : Prop where
  metrics : ∀ m ∈ d.metrics, ∀ n ∈ d.metrics, metricCmp m n = .eq → m = n
  params : ∀ p ∈ d.params, ∀ q ∈ d.params, fieldCmp p q = .eq → p = q
  tags : ∀ t ∈ d.tags, ∀ u ∈ d.tags, fieldCmp t u = .eq → t = u
  events : ∀ e ∈ d.events, ∀ f ∈ d.events, EventPayload.cmp e f = .eq → e = f

theorem metric_split {m n : ExpandedMetricData} {r r' : List UInt8} (hframe : metricFrame m = metricFrame n)
    (h : (metricPayload m).bytes ++ r = (metricPayload n).bytes ++ r') : m = n ∧ r = r' := by
  obtain ⟨hlen, htimestamp⟩ := Prod.mk.inj hframe
  simp only [MetricPayload.bytes, List.append_assoc] at h
  obtain ⟨hname, hafterName⟩ := bytes_split hlen h
  obtain ⟨hstep, hafterStep⟩ := leBytes_split hafterName
  obtain ⟨hvalue, hend⟩ := leBytes_split hafterStep
  refine ⟨?_, hend⟩
  cases m
  cases n
  obtain rfl := hname
  obtain rfl := toUInt64_inj hstep
  obtain rfl := hvalue
  obtain rfl := htimestamp
  rfl

theorem field_split {p q : String × String} {r r' : List UInt8} (hframe : fieldFrame p = fieldFrame q)
    (h : Text.bytes p.1 ++ Text.bytes p.2 ++ r = Text.bytes q.1 ++ Text.bytes q.2 ++ r') : p = q ∧ r = r' := by
  obtain ⟨hkey, hvalue⟩ := Prod.mk.inj hframe
  rw [List.append_assoc, List.append_assoc] at h
  obtain ⟨hkey, h⟩ := bytes_split hkey h
  obtain ⟨hvalue, h⟩ := bytes_split hvalue h
  exact ⟨Prod.ext hkey hvalue, h⟩

theorem eq_of_getD {α : Type} {x y : Option α} {d : α} (hpresent : x.isSome = y.isSome)
    (h : x.getD d = y.getD d) : x = y := by
  cases x <;> cases y <;> simp_all

theorem event_split {e f : EventPayload} {r r' : List UInt8} (hframe : eventFrame e = eventFrame f)
    (h : e.bytes ++ r = f.bytes ++ r') : e = f ∧ r = r' := by
  simp only [eventFrame, Prod.mk.injEq] at hframe
  obtain ⟨hlevel, hsource, hmessage, hstep, htimestamp⟩ := hframe
  simp only [EventPayload.bytes, List.append_assoc] at h
  obtain ⟨hlevel, h⟩ := bytes_split hlevel h
  obtain ⟨hsource, h⟩ := bytes_split hsource h
  obtain ⟨hmessage, h⟩ := bytes_split hmessage h
  obtain ⟨hstep', h⟩ := leBytes_split h
  obtain ⟨htimestamp', h⟩ := leBytes_split h
  have hsteps := eq_of_getD hstep (toUInt64_inj hstep')
  have htimestamps := eq_of_getD htimestamp htimestamp'
  cases e
  cases f
  simp_all

theorem section_eq {α γ : Type} (payload : α → γ) {cmp : γ → γ → Ordering} (bytes : γ → List UInt8)
    (items : List α) :
    (sortBy cmp (items.map payload)).flatMap bytes =
      (sortBy (fun x y => cmp (payload x) (payload y)) items).flatMap (fun x => bytes (payload x)) := by
  have hsort : (sortBy (fun x y => cmp (payload x) (payload y)) items).map payload =
      sortBy cmp (items.map payload) :=
    List.map_insertionSort _ _ _ _ (fun _ _ _ _ => Iff.rfl)
  rw [← hsort, List.flatMap_map]

theorem stream_eq (d : Data) : d.stream =
    (sortBy metricCmp d.metrics).flatMap (fun m => (metricPayload m).bytes) ++
      ((sortBy fieldCmp d.params).flatMap (fun p => Text.bytes p.1 ++ Text.bytes p.2) ++
        ((sortBy fieldCmp d.tags).flatMap (fun t => Text.bytes t.1 ++ Text.bytes t.2) ++
          ((sortBy EventPayload.cmp d.events).flatMap EventPayload.bytes ++ []))) := by
  rw [Data.stream, payloadBytes, section_eq, section_eq, section_eq, List.append_nil, List.append_assoc,
    List.append_assoc]
  rfl

theorem perm_of_sortBy {α : Type} {cmp : α → α → Ordering} {items items' : List α}
    (h : sortBy cmp items = sortBy cmp items') : items.Perm items' := by
  have hperm := List.perm_insertionSort (fun a b => cmp a b ≠ .gt) items
  rw [show items.insertionSort (fun a b => cmp a b ≠ .gt) = _ from h] at hperm
  exact hperm.symm.trans (List.perm_insertionSort _ items')

theorem sameData_of_framedAlike {a b : Data} (hframes : FramedAlike a b) (h : a.stream = b.stream) :
    SameData a b := by
  rw [stream_eq, stream_eq] at h
  obtain ⟨hmetrics, h⟩ := flatMap_split metric_split hframes.metrics h
  obtain ⟨hparams, h⟩ := flatMap_split field_split hframes.params h
  obtain ⟨htags, h⟩ := flatMap_split field_split hframes.tags h
  obtain ⟨hevents, -⟩ := flatMap_split event_split hframes.events h
  exact ⟨perm_of_sortBy hmetrics, perm_of_sortBy hparams, perm_of_sortBy htags, perm_of_sortBy hevents⟩

instance : Std.TransCmp metricCmp := inferInstanceAs (Std.TransCmp (compareLex
  (compareOn (fun m => (metricPayload m).name)) (compareOn (fun m => (metricPayload m).step))))

instance : Std.TransCmp fieldCmp := inferInstanceAs (Std.TransCmp (compareOn Prod.fst))

theorem sortBy_perm {α : Type} {cmp : α → α → Ordering} [Std.TransCmp cmp] {items items' : List α}
    (hkeys : ∀ x ∈ items, ∀ y ∈ items, cmp x y = .eq → x = y) (h : items.Perm items') :
    sortBy cmp items = sortBy cmp items' := by
  apply List.Perm.eq_of_pairwise _ (pairwise_insertionSort items) (pairwise_insertionSort items')
    ((List.perm_insertionSort _ items).trans (h.trans (List.perm_insertionSort _ items').symm))
  intro x y hx hy hxy hyx
  exact hkeys x ((List.mem_insertionSort _).1 hx) y (h.mem_iff.2 ((List.mem_insertionSort _).1 hy))
    (eq_of_le_of_le hxy hyx)

theorem framedAlike_of_sameData {a b : Data} (hkeys : KeysDiffer a) (h : SameData a b) : FramedAlike a b where
  metrics := by rw [sortBy_perm hkeys.metrics h.metrics]
  params := by rw [sortBy_perm hkeys.params h.params]
  tags := by rw [sortBy_perm hkeys.tags h.tags]
  events := by rw [sortBy_perm hkeys.events h.events]

theorem digitChar_inj {m n : Nat} (hm : m < 16) (hn : n < 16) (h : m.digitChar = n.digitChar) : m = n := by
  have hall : ∀ i j : Fin 16, i.val.digitChar = j.val.digitChar → i = j := by decide
  exact congrArg Fin.val (hall ⟨m, hm⟩ ⟨n, hn⟩ h)

theorem hexEncode_inj {bs cs : List UInt8} (h : hexEncode bs = hexEncode cs) : bs = cs := by
  replace h := String.ofList_injective h
  induction bs generalizing cs with
  | nil =>
      cases cs with
      | nil => rfl
      | cons c cs => cases h
  | cons b bs ih =>
      cases cs with
      | nil => cases h
      | cons c cs =>
          simp only [List.flatMap_cons, List.cons_append, List.nil_append, List.cons.injEq] at h
          obtain ⟨hhigh, hlow, hrest⟩ := h
          have hb := b.toNat_lt
          have hc := c.toNat_lt
          have h₁ := digitChar_inj (by omega) (by omega) hhigh
          have h₂ := digitChar_inj (by omega) (by omega) hlow
          rw [ih hrest, show b = c from UInt8.toNat.inj (by omega)]

variable (env : Env)

/-- A batch is reported as a duplicate of another one when their streams agree.
What agrees is the data, up to order, where the two are framed alike; and when no
two items of a batch share a key, nowhere else. -/
theorem duplicate_framedAlike (hsha : Function.Injective env.sha256) (sent sent' : Sent) (run run' : RunRow)
    (batch batch' : ValidatedBatch) :
    (answerTo (prepare env sent run batch).record (prepare env sent' run' batch').record = .duplicate ↔
      (dataOf batch sent.request.events).stream = (dataOf batch' sent'.request.events).stream) ∧
    ((dataOf batch sent.request.events).stream = (dataOf batch' sent'.request.events).stream →
      (FramedAlike (dataOf batch sent.request.events) (dataOf batch' sent'.request.events) →
        SameData (dataOf batch sent.request.events) (dataOf batch' sent'.request.events)) ∧
      (KeysDiffer (dataOf batch sent.request.events) →
        SameData (dataOf batch sent.request.events) (dataOf batch' sent'.request.events) →
        FramedAlike (dataOf batch sent.request.events) (dataOf batch' sent'.request.events))) := by
  refine ⟨?_, fun h => ⟨fun hframes => sameData_of_framedAlike hframes h, framedAlike_of_sameData⟩⟩
  rw [answerTo_eq_duplicate_iff]
  change hashBatch env.sha256 batch sent.request.events = hashBatch env.sha256 batch' sent'.request.events ↔ _
  rw [hashBatch_eq, hashBatch_eq]
  constructor
  · intro h
    exact hsha (hexEncode_inj h)
  · intro h
    rw [h]

def ascending : ValidatedBatch := ⟨[], [], [⟨"acc", 1, 1, some 0⟩, ⟨"loss", 1, 2, none⟩]⟩

def descending : ValidatedBatch := ⟨[], [], [⟨"loss", 1, 2, none⟩, ⟨"acc", 1, 1, some 0⟩]⟩

def openRun : RunRow := ⟨"r", "p", none, "running", none, none, 0, 0⟩

theorem duplicate_framedAlike_descending : SameData (dataOf ascending []) (dataOf descending []) := by
  have hframes : FramedAlike (dataOf ascending []) (dataOf descending []) :=
    ⟨by decide +kernel, rfl, rfl, rfl⟩
  exact ((duplicate_framedAlike RetrySafety.devServer (fun _ _ h => h) RetrySafety.lossBatch RetrySafety.lossBatch
    openRun openRun ascending descending).2 (by decide +kernel)).1 hframes

def shortName : Payload := { params := [⟨"a", "bc"⟩] }

def longName : Payload := { params := [⟨"ab", "c"⟩] }

theorem moved_letter : ¬ ∀ (maxTagValueLen : Nat) (first second : Payload) (batch batch' : ValidatedBatch),
    validateRequest maxTagValueLen first = .ok batch → validateRequest maxTagValueLen second = .ok batch' →
    (dataOf batch first.events).stream = (dataOf batch' second.events).stream →
    SameData (dataOf batch first.events) (dataOf batch' second.events) := by
  intro h
  have hsame := h 256 shortName longName ⟨[("parameters.a", "bc")], [], []⟩ ⟨[("parameters.ab", "c")], [], []⟩
    (by decide +kernel) (by decide +kernel) (by decide +kernel)
  have hparams := List.singleton_perm_singleton.1 hsame.params
  revert hparams
  decide

end MLRunX.PayloadFrames
