import Mathlib.Algebra.Order.Archimedean.Basic
import Mathlib.Algebra.Order.Floor.Semiring
import Mathlib.Data.Rat.Floor
import Mathlib.Logic.Function.Basic
import Mathlib.Tactic.NormNum
import MLRunX.TokenBuckets

namespace MLRunX.HttpRateLimit

open Runs TokenBuckets

structure HttpRateLimiter where
  capacity : ℕ
  refillRate : ℚ

abbrev Buckets := String → Option (Bucket ℚ)

inductive Op
  | check (clientIp : String)
  | pruneStale
  deriving DecidableEq

def retryAfterSeconds (wait : ℚ) : ℕ := if wait ≤ 0 then 1 else min ⌈wait⌉₊ (2 ^ 64 - 1)

def pruneStale (now : ℚ) (buckets : Buckets) : Buckets :=
  fun clientIp => (buckets clientIp).filter (fun bucket => decide (now - 300 < bucket.since))

variable (limiter : HttpRateLimiter)

def bucketOf (clientIp : String) (now : ℚ) (buckets : Buckets) : Bucket ℚ :=
  (buckets clientIp).getD ⟨limiter.capacity, now⟩

def check (clientIp : String) (now : ℚ) (buckets : Buckets) : Except ℕ Unit × Buckets :=
  let tokens := level (limiter.capacity : ℚ) limiter.refillRate (bucketOf limiter clientIp now buckets) now
  if 1 ≤ tokens then (.ok (), Function.update buckets clientIp (some ⟨tokens - 1, now⟩))
  else (.error (retryAfterSeconds ((1 - tokens) / limiter.refillRate)),
    Function.update buckets clientIp (some ⟨tokens, now⟩))

/-- Every input comes at a time, in seconds. -/
def step : Machine Buckets (ℚ × Op) (Option (Except ℕ Unit))
  | buckets, (now, .check clientIp) =>
      let r := check limiter clientIp now buckets
      (some r.1, r.2)
  | buckets, (now, .pruneStale) => (none, pruneStale now buckets)

def Buckets.empty : Buckets := fun _ => none

def admits (clientIp : String) (op : Op) (answer : Option (Except ℕ Unit)) : Bool :=
  decide (op = .check clientIp) && answer.any Except.isOk

/-- What a client is let through in any span of time is bounded by the rate, and a client that waits
for as long as it is told is let through. -/
structure Enforced : Prop where
  rate : ∀ (time start stop : ℚ) (ops : List (ℚ × Op)) (clientIp : String), InOrder time ops →
    start ≤ stop →
    (taken (admits clientIp) start stop (history (step limiter) Buckets.empty ops) : ℚ) ≤
      limiter.capacity + limiter.refillRate * (stop - start)
  tokens : ∀ (time : ℚ) (ops : List (ℚ × Op)) (clientIp : String) (bucket : Bucket ℚ), InOrder time ops →
    after (step limiter) Buckets.empty ops clientIp = some bucket →
      0 ≤ bucket.tokens ∧ bucket.tokens ≤ limiter.capacity
  hint : 1 ≤ limiter.capacity → ∀ (time now : ℚ) (before waiting : List (ℚ × Op))
    (clientIp : String) (hint : ℕ),
    InOrder time (before ++ (now, .check clientIp) :: waiting ++ [(now + hint, .check clientIp)]) →
    (∀ i ∈ waiting, i.2 ≠ .check clientIp) →
    (step limiter (after (step limiter) Buckets.empty before) (now, .check clientIp)).1 = some (.error hint) →
      (step limiter (after (step limiter) Buckets.empty (before ++ (now, .check clientIp) :: waiting))
        (now + hint, .check clientIp)).1 = some (.ok ())

variable {limiter} {buckets : Buckets} {clientIp : String} {now : ℚ}

def held (limiter : HttpRateLimiter) (clientIp : String) (buckets : Buckets) (now : ℚ) : ℚ :=
  level (limiter.capacity : ℚ) limiter.refillRate (bucketOf limiter clientIp now buckets) now

/-- Every bucket was counted before, and holds no more than it can. -/
def Counted (limiter : HttpRateLimiter) (buckets : Buckets) (now : ℚ) : Prop :=
  ∀ clientIp bucket, buckets clientIp = some bucket →
    0 ≤ bucket.tokens ∧ bucket.tokens ≤ limiter.capacity ∧ bucket.since ≤ now

theorem held_new (hnone : buckets clientIp = none) : held limiter clientIp buckets now = limiter.capacity := by
  rw [held, bucketOf, hnone]
  exact level_now le_rfl

theorem held_some {bucket : Bucket ℚ} (hsome : buckets clientIp = some bucket) :
    held limiter clientIp buckets now = level (limiter.capacity : ℚ) limiter.refillRate bucket now := by
  rw [held, bucketOf, hsome, Option.getD_some]

theorem held_le (limiter : HttpRateLimiter) (clientIp : String) (buckets : Buckets) (now : ℚ) :
    held limiter clientIp buckets now ≤ limiter.capacity := level_le _ _

theorem Counted.held_nonneg (h : Counted limiter buckets now) (hrate : 0 < limiter.refillRate) (clientIp : String)
    (later : ℚ) : 0 ≤ held limiter clientIp buckets later := by
  have hcapacity : (0 : ℚ) ≤ limiter.capacity := Nat.cast_nonneg _
  cases hbucket : buckets clientIp with
  | none => rwa [held_new hbucket]
  | some bucket =>
      rw [held_some hbucket]
      exact level_nonneg hcapacity hrate.le (h clientIp bucket hbucket).1

theorem check_ok (h : 1 ≤ held limiter clientIp buckets now) : check limiter clientIp now buckets =
    (.ok (), Function.update buckets clientIp (some ⟨held limiter clientIp buckets now - 1, now⟩)) := if_pos h

theorem check_error (h : ¬ 1 ≤ held limiter clientIp buckets now) : check limiter clientIp now buckets =
    (.error (retryAfterSeconds ((1 - held limiter clientIp buckets now) / limiter.refillRate)),
      Function.update buckets clientIp (some ⟨held limiter clientIp buckets now, now⟩)) := if_neg h

theorem check_cases (limiter : HttpRateLimiter) (clientIp : String) (now : ℚ) (buckets : Buckets) :
    ∃ tokens, (check limiter clientIp now buckets).2 = Function.update buckets clientIp (some ⟨tokens, now⟩) ∧
      tokens + (if (check limiter clientIp now buckets).1.isOk then 1 else 0) = held limiter clientIp buckets now ∧
      ((check limiter clientIp now buckets).1.isOk = true → 0 ≤ tokens) := by
  by_cases h : 1 ≤ held limiter clientIp buckets now
  · rw [check_ok h]
    exact ⟨_, rfl, sub_add_cancel _ _, fun _ => sub_nonneg.2 h⟩
  · rw [check_error h]
    exact ⟨_, rfl, add_zero _, fun hok => absurd hok Bool.false_ne_true⟩

theorem counted_step {time : ℚ} (h : Counted limiter buckets time) (hrate : 0 < limiter.refillRate) (op : Op)
    (htime : time ≤ now) : Counted limiter (step limiter buckets (now, op)).2 now := by
  intro clientIp bucket hbucket
  cases op with
  | check client =>
      obtain ⟨tokens, hstate, hheld, htokens⟩ := check_cases limiter client now buckets
      change (check limiter client now buckets).2 clientIp = some bucket at hbucket
      rw [hstate] at hbucket
      by_cases hclient : clientIp = client
      · rw [hclient, Function.update_self] at hbucket
        obtain rfl := Option.some.inj hbucket
        have hnonneg := h.held_nonneg hrate client now
        have hle := held_le limiter client buckets now
        rw [← hheld] at hnonneg hle
        cases hok : (check limiter client now buckets).1.isOk with
        | true =>
            simp only [hok, if_true] at hle
            exact ⟨htokens hok, by linarith only [hle], le_rfl⟩
        | false =>
            simp only [hok, Bool.false_eq_true, if_false, add_zero] at hnonneg hle
            exact ⟨hnonneg, hle, le_rfl⟩
      · rw [Function.update_of_ne hclient] at hbucket
        obtain ⟨hlow, hhigh, hsince⟩ := h clientIp bucket hbucket
        exact ⟨hlow, hhigh, hsince.trans htime⟩
  | pruneStale =>
      obtain ⟨hlow, hhigh, hsince⟩ := h clientIp bucket (Option.filter_eq_some_iff.1 hbucket).1
      exact ⟨hlow, hhigh, hsince.trans htime⟩

theorem counted_after {time : ℚ} {ops : List (ℚ × Op)} (hrate : 0 < limiter.refillRate)
    (h : Counted limiter buckets time) (horder : InOrder time ops) :
    ∃ last, Counted limiter (after (step limiter) buckets ops) last := by
  induction ops generalizing buckets time with
  | nil => exact ⟨time, h⟩
  | cons i ops ih => exact ih (counted_step h hrate i.2 horder.1) horder.2

/-! What is held for a client. -/

theorem held_later {time : ℚ} (h : Counted limiter buckets time) (hrate : 0 < limiter.refillRate)
    (htime : time ≤ now) : held limiter clientIp buckets now ≤
      held limiter clientIp buckets time + limiter.refillRate * (now - time) := by
  cases hbucket : buckets clientIp with
  | none =>
      rw [held_new hbucket, held_new hbucket]
      exact le_add_of_nonneg_right (mul_nonneg hrate.le (sub_nonneg.2 htime))
  | some bucket =>
      rw [held_some hbucket, held_some hbucket]
      exact level_later hrate.le (h clientIp bucket hbucket).2.2 htime

/-- A bucket that is forgotten after five minutes was full where the rate fills it in that time. -/
theorem held_pruneStale {time : ℚ} (h : Counted limiter buckets time)
    (hfits : (limiter.capacity : ℚ) ≤ limiter.refillRate * 300) (hrate : 0 < limiter.refillRate)
    (htime : time ≤ now) :
    held limiter clientIp (pruneStale now buckets) now = held limiter clientIp buckets now := by
  cases hbucket : buckets clientIp with
  | none => rw [held_new hbucket, held_new (by rw [pruneStale, hbucket]; rfl)]
  | some bucket =>
      by_cases hrecent : now - 300 < bucket.since
      · have hkept : pruneStale now buckets clientIp = some bucket := by
          rw [pruneStale, hbucket, Option.filter_some, if_pos (decide_eq_true hrecent)]
        rw [held_some hbucket, held_some hkept]
      · have hgone : pruneStale now buckets clientIp = none := by
          rw [pruneStale, hbucket, Option.filter_some, if_neg]
          rwa [decide_eq_true_eq]
        obtain ⟨hlow, -, hsince⟩ := h clientIp bucket hbucket
        have hspan : 300 ≤ now - bucket.since := by linarith only [not_lt.1 hrecent]
        rw [held_new hgone, held_some hbucket, level_full hlow (hsince.trans htime)]
        exact hfits.trans (mul_le_mul_of_nonneg_left hspan hrate.le)

theorem held_check (limiter : HttpRateLimiter) (clientIp client : String) (now : ℚ) (buckets : Buckets)
    (hle : ∀ bucket, (check limiter client now buckets).2 client = some bucket →
      bucket.tokens ≤ limiter.capacity) :
    held limiter clientIp (check limiter client now buckets).2 now +
      (if clientIp = client ∧ (check limiter client now buckets).1.isOk = true then 1 else 0) =
        held limiter clientIp buckets now := by
  obtain ⟨tokens, hstate, hheld, -⟩ := check_cases limiter client now buckets
  rw [hstate] at hle ⊢
  by_cases hclient : clientIp = client
  · subst hclient
    have htokens : tokens ≤ limiter.capacity := hle ⟨tokens, now⟩ (Function.update_self _ _ _)
    have hlevel : held limiter clientIp (Function.update buckets clientIp (some ⟨tokens, now⟩)) now = tokens :=
      (held_some (Function.update_self _ _ _)).trans (level_now htokens)
    rw [hlevel, ← hheld]
    simp only [true_and]
  · have hsame : held limiter clientIp (Function.update buckets client (some ⟨tokens, now⟩)) now =
        held limiter clientIp buckets now := by
      rw [held, held, bucketOf, bucketOf, Function.update_of_ne hclient]
    rw [hsame, if_neg (fun h => hclient h.1), add_zero]

theorem account (hrate : 0 < limiter.refillRate) (hfits : (limiter.capacity : ℚ) ≤ limiter.refillRate * 300)
    (clientIp : String) : Account (step limiter) (admits clientIp) (limiter.capacity : ℚ) limiter.refillRate
      (Counted limiter) (held limiter clientIp) where
  later buckets time now h htime client bucket hbucket := by
    obtain ⟨hlow, hhigh, hsince⟩ := h client bucket hbucket
    exact ⟨hlow, hhigh, hsince.trans htime⟩
  step buckets time now op h htime := counted_step h hrate op htime
  nonneg buckets time now h _ := h.held_nonneg hrate clientIp now
  le buckets time now _ _ := held_le limiter clientIp buckets now
  rises buckets time now h htime := held_later h hrate htime
  takes buckets time now op h htime := by
    cases op with
    | check client =>
        have hcounted : Counted limiter (check limiter client now buckets).2 now :=
          counted_step h hrate (.check client) htime
        have hheld := held_check limiter clientIp client now buckets (fun bucket hb => (hcounted client bucket hb).2.1)
        apply le_of_eq
        rw [← hheld]
        have hadmits : admits clientIp (.check client) (some (check limiter client now buckets).1) =
            decide (clientIp = client ∧ (check limiter client now buckets).1.isOk = true) := by
          rw [admits, Bool.decide_and, Bool.decide_eq_true]
          congr 1
          exact decide_eq_decide.2 ⟨fun h => (Op.check.inj h).symm, fun h => h ▸ rfl⟩
        change held limiter clientIp (check limiter client now buckets).2 now +
          (if admits clientIp (.check client) (some (check limiter client now buckets).1) then 1 else 0) = _
        rw [hadmits]
        simp only [decide_eq_true_eq]
    | pruneStale =>
        change held limiter clientIp (pruneStale now buckets) now + (if false = true then 1 else 0) ≤ _
        rw [held_pruneStale h hfits hrate htime, if_neg Bool.false_ne_true, add_zero]

/-! What a refused client is told. -/

theorem after_waiting {ops : List (ℚ × Op)} {bucket : Bucket ℚ} (h : ∀ i ∈ ops, i.2 ≠ .check clientIp)
    (hbucket : buckets clientIp = none ∨ buckets clientIp = some bucket) :
    after (step limiter) buckets ops clientIp = none ∨ after (step limiter) buckets ops clientIp = some bucket := by
  induction ops generalizing buckets with
  | nil => exact hbucket
  | cons i ops ih =>
      apply ih (fun j hj => h j (List.mem_cons_of_mem _ hj))
      obtain ⟨now, op⟩ := i
      cases op with
      | check client =>
          have hne : clientIp ≠ client := fun heq => h _ List.mem_cons_self (by rw [heq])
          obtain ⟨tokens, hstate, -⟩ := check_cases limiter client now buckets
          change (check limiter client now buckets).2 clientIp = none ∨
            (check limiter client now buckets).2 clientIp = _
          rwa [hstate, Function.update_of_ne hne]
      | pruneStale =>
          change (buckets clientIp).filter _ = none ∨ (buckets clientIp).filter _ = some bucket
          rcases hbucket with hnone | hsome
          · rw [hnone]
            exact .inl rfl
          · rw [hsome, Option.filter_some]
            split
            · exact .inr rfl
            · exact .inl rfl

theorem wait_le {wait : ℚ} (h : wait ≤ 2 ^ 64 - 1) : wait ≤ retryAfterSeconds wait := by
  rw [retryAfterSeconds]
  split
  · rename_i hpos
    exact hpos.trans (Nat.cast_nonneg _)
  · rw [Nat.cast_min]
    refine le_min (Nat.le_ceil wait) ?_
    rw [Nat.cast_sub (by norm_num), Nat.cast_pow]
    exact_mod_cast h

theorem hint_enough {hint : ℕ} {tokens : ℚ} (hrate : 0 < limiter.refillRate)
    (hfits : (limiter.capacity : ℚ) ≤ limiter.refillRate * 300) (hcapacity : 1 ≤ limiter.capacity)
    (htokens : 0 ≤ tokens)
    (hhint : hint = retryAfterSeconds ((1 - tokens) / limiter.refillRate)) :
    1 ≤ level (limiter.capacity : ℚ) limiter.refillRate ⟨tokens, now⟩ (now + hint) := by
  have hone : (1 : ℚ) ≤ limiter.capacity := by exact_mod_cast hcapacity
  have hwait : (1 - tokens) / limiter.refillRate ≤ 300 := by
    rw [div_le_iff₀ hrate]
    linarith only [hone, hfits, htokens]
  have hhint : (1 - tokens) / limiter.refillRate ≤ hint := hhint ▸ wait_le (hwait.trans (by norm_num))
  rw [div_le_iff₀ hrate] at hhint
  rw [level, add_sub_cancel_left, max_eq_left (Nat.cast_nonneg _)]
  exact le_min (by linarith only [hhint]) hone

theorem enforced_of_fits (hrate : 0 < limiter.refillRate)
    (hfits : (limiter.capacity : ℚ) ≤ limiter.refillRate * 300) :
    Enforced limiter := by
  have hstart : ∀ time, Counted limiter Buckets.empty time := by
    intro time clientIp bucket hbucket
    cases hbucket
  refine ⟨?_, ?_, ?_⟩
  · intro time start stop ops clientIp horder hspan
    exact (account hrate hfits clientIp).taken_le hrate.le (hstart time) horder hspan
  · intro time ops clientIp bucket horder hbucket
    obtain ⟨last, hlast⟩ := counted_after hrate (hstart time) horder
    obtain ⟨hlow, hhigh, -⟩ := hlast clientIp bucket hbucket
    exact ⟨hlow, hhigh⟩
  · intro hcapacity time now before waiting clientIp hint horder hwaiting hrefused
    rw [List.append_assoc] at horder
    obtain ⟨last, hlast⟩ := counted_after hrate (hstart time) horder.left
    have hnonneg := hlast.held_nonneg hrate clientIp now
    rw [after_append, after_cons]
    generalize after (step limiter) Buckets.empty before = buckets at hrefused hnonneg ⊢
    have hheld : ¬ 1 ≤ held limiter clientIp buckets now := by
      intro hone
      have hanswer := congrArg Prod.fst (check_ok hone)
      have hok : some (check limiter clientIp now buckets).1 = some (.error hint) := hrefused
      rw [hanswer] at hok
      cases hok
    have herror := check_error hheld
    have hhint : hint = retryAfterSeconds ((1 - held limiter clientIp buckets now) / limiter.refillRate) := by
      have hanswer : some (check limiter clientIp now buckets).1 = some (.error hint) := hrefused
      rw [herror] at hanswer
      exact (Except.error.inj (Option.some.inj hanswer)).symm
    change (step limiter (after (step limiter) (check limiter clientIp now buckets).2 waiting)
      (now + hint, .check clientIp)).1 = some (.ok ())
    have hbucket : (check limiter clientIp now buckets).2 clientIp =
        some ⟨held limiter clientIp buckets now, now⟩ := by
      rw [herror]
      exact Function.update_self _ _ _
    have hone : 1 ≤ held limiter clientIp (after (step limiter) (check limiter clientIp now buckets).2 waiting)
        (now + hint) := by
      rcases after_waiting hwaiting (.inr hbucket) with hnone | hsome
      · rw [held_new hnone]
        exact_mod_cast hcapacity
      · rw [held_some hsome]
        exact hint_enough hrate hfits hcapacity hnonneg hhint
    exact congrArg (fun r : Except ℕ Unit × Buckets => some r.1) (check_ok hone)

def burst (limiter : HttpRateLimiter) (now : ℚ) : List (ℚ × Op) :=
  List.replicate limiter.capacity (now, .check "c")

theorem inOrder_replicate (now : ℚ) (op : Op) (n : ℕ) : InOrder now (List.replicate n (now, op)) := by
  induction n with
  | zero => trivial
  | succ n ih => exact ⟨le_rfl, ih⟩

theorem taken_replicate {n k : ℕ} {start stop : ℚ} (hn : n ≤ k) (hheld : held limiter clientIp buckets now = k)
    (hstart : start ≤ now) (hstop : now ≤ stop) :
    taken (admits clientIp) start stop (history (step limiter) buckets (List.replicate n (now, .check clientIp))) =
      n := by
  induction n generalizing k buckets with
  | zero => rfl
  | succ n ih =>
      have hone : 1 ≤ held limiter clientIp buckets now := by
        rw [hheld]
        exact_mod_cast (Nat.succ_le_succ (Nat.zero_le n)).trans hn
      have hok := check_ok hone
      have hnext : held limiter clientIp (check limiter clientIp now buckets).2 now = (k - 1 : ℕ) := by
        have hbalance := held_check limiter clientIp clientIp now buckets (fun bucket hb => by
          rw [hok] at hb
          change Function.update buckets clientIp _ clientIp = some bucket at hb
          rw [Function.update_self] at hb
          obtain rfl := Option.some.inj hb
          have hle := held_le limiter clientIp buckets now
          linarith only [hle])
        rw [hheld, if_pos ⟨rfl, by rw [hok]; rfl⟩] at hbalance
        rw [Nat.cast_sub (by omega), Nat.cast_one]
        linarith only [hbalance]
      have hrest := ih (by omega) hnext
      have hanswer : admits clientIp (.check clientIp) (some (check limiter clientIp now buckets).1) = true := by
        rw [hok, admits, decide_eq_true rfl]
        rfl
      rw [List.replicate_succ, history, taken_cons]
      change taken _ _ _ (history (step limiter) (check limiter clientIp now buckets).2 _) + (if
        (decide (start ≤ now ∧ now ≤ stop) &&
          admits clientIp (.check clientIp) (some (check limiter clientIp now buckets).1)) = true then 1 else 0) = _
      rw [hrest, hanswer, decide_eq_true ⟨hstart, hstop⟩]
      rfl

theorem since_replicate {n : ℕ} (h : ∀ bucket, buckets clientIp = some bucket → bucket.since = now) :
    ∀ bucket, after (step limiter) buckets (List.replicate n (now, .check clientIp)) clientIp = some bucket →
      bucket.since = now := by
  induction n generalizing buckets with
  | zero => exact h
  | succ n ih =>
      apply ih
      obtain ⟨tokens, hstate, -⟩ := check_cases limiter clientIp now buckets
      intro bucket hbucket
      change (check limiter clientIp now buckets).2 clientIp = some bucket at hbucket
      rw [hstate, Function.update_self] at hbucket
      rw [← Option.some.inj hbucket]

theorem taken_pruneStale {start stop : ℚ} (ops : List (ℚ × Op)) : taken (admits clientIp) start stop
    (history (step limiter) buckets ((now, .pruneStale) :: ops)) =
      taken (admits clientIp) start stop (history (step limiter) (pruneStale now buckets) ops) := by
  have hnone : admits clientIp .pruneStale none = false := Bool.and_false _
  rw [history, taken_cons, step, hnone, Bool.and_false, if_neg Bool.false_ne_true]
  rfl

/-- Two bursts, with the bucket forgotten in between, stay within the rate only where it fills the bucket. -/
theorem fits_of_enforced (h : Enforced limiter) : (limiter.capacity : ℚ) ≤ limiter.refillRate * 300 := by
  have hfresh : ∀ buckets : Buckets, buckets "c" = none → ∀ now : ℚ, 0 ≤ now → now ≤ 300 →
      taken (admits "c") 0 300 (history (step limiter) buckets (burst limiter now)) = limiter.capacity :=
    fun buckets hnone now hstart hstop => taken_replicate le_rfl (held_new hnone) hstart hstop
  have hgone : pruneStale 300 (after (step limiter) Buckets.empty (burst limiter 0)) "c" = none := by
    rw [pruneStale]
    cases hbucket : after (step limiter) Buckets.empty (burst limiter 0) "c" with
    | none => rfl
    | some bucket =>
        have hsince := @since_replicate limiter Buckets.empty _ _ _ (fun bucket hb => by cases hb) bucket hbucket
        rw [Option.filter_some, if_neg]
        rw [decide_eq_true_eq, hsince]
        norm_num
  have horder : InOrder 0 (burst limiter 0 ++ (300, .pruneStale) :: burst limiter 300) := by
    have hsecond : InOrder 300 ((300, Op.pruneStale) :: burst limiter 300) := ⟨le_rfl, inOrder_replicate 300 _ _⟩
    refine (inOrder_replicate 0 _ _).append ?_ (by norm_num) hsecond
    intro i hi
    rw [List.eq_of_mem_replicate hi]
    norm_num
  have hrate := h.rate 0 0 300 _ "c" horder (by norm_num)
  rw [history_append, taken_append, hfresh _ rfl 0 le_rfl (by norm_num), taken_pruneStale,
    hfresh _ hgone 300 (by norm_num) le_rfl, Nat.cast_add] at hrate
  linarith only [hrate]

/-- The rate is enforced just where it fills a bucket in the five minutes after which it is forgotten. -/
theorem enforced_iff (hrate : 0 < limiter.refillRate) :
    Enforced limiter ↔ (limiter.capacity : ℚ) ≤ limiter.refillRate * 300 :=
  ⟨fits_of_enforced, enforced_of_fits hrate⟩

theorem default_enforced : Enforced ⟨100, 50⟩ :=
  (@enforced_iff ⟨100, 50⟩ (by norm_num)).2 (by norm_num)

theorem slow_refill_exceeded : ¬ Enforced ⟨100, 1 / 10⟩ := by
  intro h
  have hfits := fits_of_enforced h
  norm_num at hfits

end MLRunX.HttpRateLimit
