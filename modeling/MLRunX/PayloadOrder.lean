import MLRunX.PayloadHash
import MLRunX.StableSort

namespace MLRunX.PayloadOrder

open PayloadHash StableSort Std

/-! What each comparison of the hash tells apart. -/

instance : TransCmp MetricPayload.cmp :=
  inferInstanceAs (TransCmp (compareLex (compareOn MetricPayload.name) (compareOn MetricPayload.step)))

instance : TransCmp ParamPayload.cmp := inferInstanceAs (TransCmp (compareOn ParamPayload.name))

instance : TransCmp TagPayload.cmp := inferInstanceAs (TransCmp (compareOn TagPayload.key))

def timestampBits (e : EventPayload) : F64 := e.timestamp.getD 0

instance : TransCmp EventPayload.cmp :=
  inferInstanceAs (TransCmp (compareLex (compareOn EventPayload.step) <| compareLex (compareOn EventPayload.level) <|
    compareLex (compareOn EventPayload.source) <| compareLex (compareOn EventPayload.message)
      (compareOn timestampBits)))

theorem metricCmp_eq_iff (a b : MetricPayload) : a.cmp b = .eq ↔ (a.name, a.step) = (b.name, b.step) := by
  rw [MetricPayload.cmp, Ordering.then_eq_eq, LawfulEqOrd.compare_eq_iff_eq, LawfulEqOrd.compare_eq_iff_eq,
    Prod.mk.injEq]

theorem paramCmp_eq_iff (a b : ParamPayload) : a.cmp b = .eq ↔ a.name = b.name := LawfulEqOrd.compare_eq_iff_eq

theorem tagCmp_eq_iff (a b : TagPayload) : a.cmp b = .eq ↔ a.key = b.key := LawfulEqOrd.compare_eq_iff_eq

/-- Events that compare equal differ at most in whether a zero timestamp is
given. -/
theorem eventCmp_eq_iff (a b : EventPayload) : a.cmp b = .eq ↔ a.step = b.step ∧ a.level = b.level ∧
    a.source = b.source ∧ a.message = b.message ∧ a.timestamp.getD 0 = b.timestamp.getD 0 := by
  simp only [EventPayload.cmp, Ordering.then_eq_eq, LawfulEqOrd.compare_eq_iff_eq]

theorem eventBytes_eq {a b : EventPayload} (h : a.cmp b = .eq) : a.bytes = b.bytes := by
  obtain ⟨hstep, hlevel, hsource, hmessage, htimestamp⟩ := (eventCmp_eq_iff a b).1 h
  rw [EventPayload.bytes, hstep, hlevel, hsource, hmessage, htimestamp]
  rfl

theorem sortBy_rearranged {α κ : Type} {cmp : α → α → Ordering} [TransCmp cmp] {key : α → κ}
    (hkey : ∀ a b, cmp a b = .eq ↔ key a = key b) {items items' : List α} (h : Rearranges key items items') :
    sortBy cmp items = sortBy cmp items' :=
  insertionSort_eq_of_rearranges (fun a b hab => (hkey a b).1 hab) h

theorem map_sortBy_perm {α β : Type} {cmp : α → α → Ordering} [TransCmp cmp] {f : α → β}
    (hf : ∀ a b, cmp a b = .eq → f a = f b) {items items' : List α} (h : items.Perm items') :
    (sortBy cmp items).map f = (sortBy cmp items').map f :=
  map_insertionSort_eq_of_perm hf h

theorem eventBytes_perm {events events' : List EventPayload} (h : events.Perm events') :
    (sortBy EventPayload.cmp events).flatMap EventPayload.bytes =
      (sortBy EventPayload.cmp events').flatMap EventPayload.bytes := by
  have hbytes := @map_sortBy_perm _ _ EventPayload.cmp _ EventPayload.bytes (fun _ _ hab => eventBytes_eq hab) _ _ h
  rw [List.flatMap_def, List.flatMap_def, hbytes]

/-- The hash does not depend on the order of the items. -/
theorem computePayloadHash_rearranged (sha256 : List UInt8 → List UInt8) {metrics metrics' : List MetricPayload}
    {params params' : List ParamPayload} {tags tags' : List TagPayload} {events events' : List EventPayload}
    (hmetrics : Rearranges (fun m : MetricPayload => (m.name, m.step)) metrics metrics')
    (hparams : Rearranges ParamPayload.name params params') (htags : Rearranges TagPayload.key tags tags')
    (hevents : events.Perm events') :
    computePayloadHash sha256 metrics params tags events =
      computePayloadHash sha256 metrics' params' tags' events' := by
  have hbytes : payloadBytes metrics params tags events = payloadBytes metrics' params' tags' events' := by
    rw [payloadBytes, payloadBytes, sortBy_rearranged metricCmp_eq_iff hmetrics,
      sortBy_rearranged paramCmp_eq_iff hparams, sortBy_rearranged tagCmp_eq_iff htags, eventBytes_perm hevents]
  rw [computePayloadHash, computePayloadHash, hbytes]

theorem rearranges_swap {α κ : Type} {key : α → κ} {a b : α} (h : key a ≠ key b) :
    Rearranges key [a, b] [b, a] := by
  refine ⟨(Equiv.swap 0 1 : Equiv.Perm (Fin 2)), fun (i : Fin 2) => ?_, fun (i j : Fin 2) hij hkey => ?_⟩
  · revert i
    exact Fin.forall_fin_two.2 ⟨rfl, rfl⟩
  · change i < j at hij
    obtain ⟨rfl, rfl⟩ : i = 0 ∧ j = 1 := by omega
    exact absurd hkey h

/-- Two metrics of different names, two params and two tags change places, and
so do an event without a timestamp and the same event at time zero. -/
theorem computePayloadHash_swapped :
    computePayloadHash id [⟨"loss", 1, 1⟩, ⟨"acc", 2, 1⟩] [⟨"lr", "1"⟩, ⟨"bs", "2"⟩] [⟨"b", ""⟩,
        ⟨"a", ""⟩]
        [⟨"info", "sdk", "hi", none, none⟩, ⟨"info", "sdk", "hi", none, some 0⟩] =
      computePayloadHash id [⟨"acc", 2, 1⟩, ⟨"loss", 1, 1⟩] [⟨"bs", "2"⟩, ⟨"lr", "1"⟩] [⟨"a", ""⟩,
        ⟨"b", ""⟩]
        [⟨"info", "sdk", "hi", none, some 0⟩, ⟨"info", "sdk", "hi", none, none⟩] :=
  computePayloadHash_rearranged id (rearranges_swap (by decide)) (rearranges_swap (by decide))
    (rearranges_swap (by decide)) (.swap ..)

end MLRunX.PayloadOrder
