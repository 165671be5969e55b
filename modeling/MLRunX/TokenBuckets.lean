import Mathlib.Algebra.Order.Field.Basic
import Mathlib.Data.List.Count
import Mathlib.Tactic.Linarith
import Mathlib.Tactic.Ring
import MLRunX.Runs

namespace MLRunX.TokenBuckets

open Runs

variable {K : Type} [Field K] [LinearOrder K]

/-- Tokens, and the time they were counted at. -/
structure Bucket (K : Type) where
  tokens : K
  since : K

def level (capacity rate : K) (bucket : Bucket K) (now : K) : K :=
  min (bucket.tokens + max (now - bucket.since) 0 * rate) capacity

variable {capacity rate now later : K} {bucket : Bucket K}

theorem level_le (bucket : Bucket K) (now : K) : level capacity rate bucket now ≤ capacity := min_le_right _ _

theorem level_now (htokens : bucket.tokens ≤ capacity) :
    level capacity rate bucket bucket.since = bucket.tokens := by
  rw [level, sub_self, max_self, zero_mul, add_zero, min_eq_left htokens]

section Levels

variable [IsStrictOrderedRing K]

theorem level_nonneg (hcapacity : 0 ≤ capacity) (hrate : 0 ≤ rate) (htokens : 0 ≤ bucket.tokens) :
    0 ≤ level capacity rate bucket now :=
  le_min (add_nonneg htokens (mul_nonneg (le_max_right _ _) hrate)) hcapacity

theorem level_later (hrate : 0 ≤ rate) (hsince : bucket.since ≤ now) (hnow : now ≤ later) :
    level capacity rate bucket later ≤ level capacity rate bucket now + rate * (later - now) := by
  have hspan : 0 ≤ rate * (later - now) := mul_nonneg hrate (sub_nonneg.2 hnow)
  rw [level, level, max_eq_left (sub_nonneg.2 hsince), max_eq_left (sub_nonneg.2 (hsince.trans hnow)),
    ← min_add_add_right]
  apply min_le_min
  · apply le_of_eq
    ring
  · exact le_add_of_nonneg_right hspan

theorem level_full (htokens : 0 ≤ bucket.tokens) (hsince : bucket.since ≤ now)
    (hfull : capacity ≤ rate * (now - bucket.since)) : level capacity rate bucket now = capacity := by
  rw [level, max_eq_left (sub_nonneg.2 hsince), min_eq_right]
  calc capacity ≤ rate * (now - bucket.since) := hfull
    _ = (now - bucket.since) * rate := mul_comm _ _
    _ ≤ bucket.tokens + (now - bucket.since) * rate := le_add_of_nonneg_left htokens

end Levels

section Accounts

variable {σ ι ω : Type}

/-- A level of the states that rises at a rate at most, and that every output of a kind takes one from. -/
structure Account (m : Machine σ (K × ι) ω) (took : ι → ω → Bool) (capacity rate : K)
    (Inv : σ → K → Prop)
    (held : σ → K → K) : Prop where
  later : ∀ s t t', Inv s t → t ≤ t' → Inv s t'
  step : ∀ s t t' i, Inv s t → t ≤ t' → Inv (m s (t', i)).2 t'
  nonneg : ∀ s t t', Inv s t → t ≤ t' → 0 ≤ held s t'
  le : ∀ s t t', Inv s t → t ≤ t' → held s t' ≤ capacity
  rises : ∀ s t t', Inv s t → t ≤ t' → held s t' ≤ held s t + rate * (t' - t)
  takes : ∀ s t t' i, Inv s t → t ≤ t' →
    held (m s (t', i)).2 t' + (if took i (m s (t', i)).1 then 1 else 0) ≤ held s t'

/-- The outputs of the kind in a span of time. -/
def taken (took : ι → ω → Bool) (start stop : K) (past : List ((K × ι) × ω)) : ℕ :=
  past.countP (fun e => decide (start ≤ e.1.1 ∧ e.1.1 ≤ stop) && took e.1.2 e.2)

def InOrder (time : K) : List (K × ι) → Prop
  | [] => True
  | i :: is => time ≤ i.1 ∧ InOrder i.1 is

variable {m : Machine σ (K × ι) ω} {took : ι → ω → Bool} {Inv : σ → K → Prop} {held : σ → K → K}
    {start stop : K}

omit [Field K] in
theorem taken_cons (e : (K × ι) × ω) (past : List ((K × ι) × ω)) : taken took start stop (e :: past) =
    taken took start stop past + (if decide (start ≤ e.1.1 ∧ e.1.1 ≤ stop) && took e.1.2 e.2 then 1 else 0) :=
  List.countP_cons

omit [Field K] in
theorem taken_append (past past' : List ((K × ι) × ω)) :
    taken took start stop (past ++ past') = taken took start stop past + taken took start stop past' :=
  List.countP_append

omit [Field K] in
theorem InOrder.left {t : K} {is js : List (K × ι)} (h : InOrder t (is ++ js)) : InOrder t is := by
  induction is generalizing t with
  | nil => trivial
  | cons i is ih => exact ⟨h.1, ih h.2⟩

omit [Field K] in
theorem InOrder.append {t t' : K} {is js : List (K × ι)} (h : InOrder t is) (hlast : ∀ i ∈ is, i.1 ≤ t')
    (ht : t ≤ t')
    (h' : InOrder t' js) : InOrder t (is ++ js) := by
  induction is generalizing t with
  | nil =>
      cases js with
      | nil => trivial
      | cons j js => exact ⟨ht.trans h'.1, h'.2⟩
  | cons i is ih =>
      refine ⟨h.1, ih h.2 (fun j hj => hlast j (List.mem_cons_of_mem _ hj)) (hlast i List.mem_cons_self)⟩

omit [Field K] in
theorem taken_late {t : K} {is : List (K × ι)} {s : σ} (horder : InOrder t is) (ht : stop < t) :
    taken took start stop (history m s is) = 0 := by
  induction is generalizing t s with
  | nil => rfl
  | cons i is ih =>
      have hlate : stop < i.1 := ht.trans_le horder.1
      rw [history, taken_cons, ih horder.2 hlate, if_neg]
      simp only [not_le.2 hlate, and_false, decide_false, Bool.false_and]
      exact Bool.false_ne_true

variable [IsStrictOrderedRing K]

theorem Account.taken_from (h : Account m took capacity rate Inv held) (hrate : 0 ≤ rate) {t : K}
    {is : List (K × ι)}
    {s : σ} (hs : Inv s t) (horder : InOrder t is) (ht : t ≤ stop) :
    (taken took start stop (history m s is) : K) ≤ held s t + rate * (stop - t) := by
  induction is generalizing t s with
  | nil =>
      have hspan := mul_nonneg hrate (sub_nonneg.2 ht)
      have hheld := h.nonneg s t t hs le_rfl
      simp only [history, taken, List.countP_nil, Nat.cast_zero]
      exact add_nonneg hheld hspan
  | cons i is ih =>
      have hrises := h.rises s t i.1 hs horder.1
      by_cases hstop : i.1 ≤ stop
      · have hnext := ih (h.step s t i.1 i.2 hs horder.1) horder.2 hstop
        have htakes := h.takes s t i.1 i.2 hs horder.1
        have hone : ((if decide (start ≤ i.1 ∧ i.1 ≤ stop) && took i.2 (m s i).1 then 1 else 0 : ℕ) : K) ≤
            if took i.2 (m s i).1 then 1 else 0 := by
          cases took i.2 (m s i).1 with
          | true => split <;> simp
          | false => simp
        rw [history, taken_cons, Nat.cast_add]
        calc (taken took start stop (history m (m s i).2 is) : K) + _
            ≤ held (m s i).2 i.1 + rate * (stop - i.1) + (if took i.2 (m s i).1 then 1 else 0) :=
              add_le_add hnext hone
          _ ≤ held s i.1 + rate * (stop - i.1) := by linarith only [htakes]
          _ ≤ held s t + rate * (i.1 - t) + rate * (stop - i.1) := by linarith only [hrises]
          _ = held s t + rate * (stop - t) := by ring
      · have hlate : InOrder i.1 (i :: is) := ⟨le_rfl, horder.2⟩
        rw [taken_late hlate (not_le.1 hstop), Nat.cast_zero]
        exact add_nonneg (h.nonneg s t t hs le_rfl) (mul_nonneg hrate (sub_nonneg.2 ht))

theorem Account.taken_le (h : Account m took capacity rate Inv held) (hrate : 0 ≤ rate) {t : K} {is : List (K × ι)}
    {s : σ} (hs : Inv s t) (horder : InOrder t is) (hspan : start ≤ stop) :
    (taken took start stop (history m s is) : K) ≤ capacity + rate * (stop - start) := by
  have hbound : 0 ≤ rate * (stop - start) := mul_nonneg hrate (sub_nonneg.2 hspan)
  induction is generalizing t s with
  | nil =>
      have hcapacity := (h.nonneg s t t hs le_rfl).trans (h.le s t t hs le_rfl)
      simp only [history, taken, List.countP_nil, Nat.cast_zero]
      exact add_nonneg hcapacity hbound
  | cons i is ih =>
      have hcapacity := (h.nonneg s t t hs le_rfl).trans (h.le s t t hs le_rfl)
      by_cases hstart : i.1 < start
      · have hnext := ih (h.step s t i.1 i.2 hs horder.1) horder.2
        rw [history, taken_cons, if_neg (by simp [hstart]), add_zero]
        exact hnext
      by_cases hstop : i.1 ≤ stop
      · have hfrom : (taken took start stop (history m s (i :: is)) : K) ≤ held s i.1 + rate * (stop - i.1) :=
          h.taken_from hrate (h.later s t i.1 hs horder.1) ⟨le_rfl, horder.2⟩ hstop
        have hrest : rate * (stop - i.1) ≤ rate * (stop - start) :=
          mul_le_mul_of_nonneg_left (sub_le_sub_left (not_lt.1 hstart) stop) hrate
        exact hfrom.trans (add_le_add (h.le s t i.1 hs horder.1) hrest)
      · have hlate : InOrder i.1 (i :: is) := ⟨le_rfl, horder.2⟩
        rw [taken_late hlate (not_le.1 hstop), Nat.cast_zero]
        exact add_nonneg hcapacity hbound

end Accounts

end MLRunX.TokenBuckets
