import MLRunX.MetricQuery

namespace MLRunX.Downsampling

open Fallible Grouping SqlArith

/-- What is read of a point. Values are exact; steps have 64 bits. -/
structure MetricPoint where
  step : ℤ
  value : ℚ
  step_fits : fitsInt64 step

structure AggregatedPoint where
  step : ℤ
  mean : ℚ
  min : ℚ
  max : ℚ
  count : ℕ

/-- In builds that check for it, an overflow is a panic. -/
inductive Panic
  | overflow
  deriving DecidableEq, Repr

abbrev Checked (α : Type) := Except Panic α

/-- The order in which a hash map is iterated over. -/
structure IterationOrder (α : Type) where
  order : List α → List α
  perm : ∀ entries, (order entries).Perm entries

def minStep (points : List MetricPoint) : ℤ := ((points.map MetricPoint.step).min?).getD 0

def maxStep (points : List MetricPoint) : ℤ := ((points.map MetricPoint.step).max?).getD 0

def checkInt64 (overflowChecks : Bool) (x : ℤ) : Checked ℤ :=
  if fitsInt64 x then .ok x
  else if overflowChecks then .error .overflow
  else .ok (Int.bmod x (2 ^ 64))

def lastBucket (overflowChecks : Bool) (bucketCount : UInt64) : Checked ℕ :=
  if 0 < bucketCount.toNat then .ok (bucketCount.toNat - 1)
  else if overflowChecks then .error .overflow
  else .ok (2 ^ 64 - 1)

/-- Casts of floats drop the fraction, and stop at the ends of the type. -/
def toUsize (x : ℚ) : ℕ := min ⌊x⌋.toNat (2 ^ 64 - 1)

def toInt64 (x : ℚ) : ℤ := if 0 ≤ x then min ⌊x⌋ (2 ^ 63 - 1) else max ⌈x⌉ (-2 ^ 63)

section Source

variable (round : ℚ → ℚ) (overflowChecks : Bool)

/-- A quotient by zero is infinite in the source and zero here; what is divided
by the size that follows from it is zero in both. -/
def bucketSize (range : ℤ) (bucketCount : UInt64) : ℚ := round (round range / round bucketCount.toNat)

def bucketIdx (lo : ℤ) (size : ℚ) (bucketCount : UInt64) (point : MetricPoint) : Checked ℕ := do
  let offset ← checkInt64 overflowChecks (point.step - lo)
  let last ← lastBucket overflowChecks bucketCount
  .ok (min (toUsize (round (round offset / size))) last)

def bucketStep (lo : ℤ) (size : ℚ) (bucketIdx : ℕ) : Checked ℤ :=
  checkInt64 overflowChecks (lo + toInt64 (round (round bucketIdx * size)))

def values (points : List MetricPoint) : List ℚ := points.map MetricPoint.value

def aggregate (lo : ℤ) (size : ℚ) (bucket : ℕ × List MetricPoint) :
    Checked (AggregatedPoint × List MetricPoint) := do
  let step ← bucketStep round overflowChecks lo size bucket.1
  let sum := (values bucket.2).foldl (fun sum value => round (sum + value)) 0
  .ok (⟨step, round (sum / round bucket.2.length), ((values bucket.2).min?).getD 0, ((values bucket.2).max?).getD 0,
    bucket.2.length⟩, bucket.2)

def buckets (indexed : List (ℕ × MetricPoint)) : List (ℕ × List MetricPoint) :=
  (groupBy (· ≤ ·) Prod.fst indexed).map (fun bucket => (bucket.1, bucket.2.map Prod.snd))

def bucketEntries (iteration : IterationOrder (ℕ × List MetricPoint)) (points : List MetricPoint)
    (maxPoints : UInt64) :
    Checked (List (AggregatedPoint × List MetricPoint)) := do
  let lo := minStep points
  let range ← checkInt64 overflowChecks (maxStep points - lo)
  let size := bucketSize round (max range 1) maxPoints
  let indexed ← points.mapM (fun point => do .ok (← bucketIdx round overflowChecks lo size maxPoints point, point))
  let entries ← (iteration.order (buckets indexed)).mapM (aggregate round overflowChecks lo size)
  .ok (entries.mergeSort (fun a b => decide (a.1.step ≤ b.1.step)))

def pointEntry (point : MetricPoint) : AggregatedPoint := ⟨point.step, point.value, point.value, point.value, 1⟩

/-- The floats of the source are numbers that are rounded where they are made. -/
def downsamplePoints (iteration : IterationOrder (ℕ × List MetricPoint)) (points : List MetricPoint)
    (maxPoints : UInt64) : Checked (List AggregatedPoint) := do
  if points.isEmpty then .ok []
  else if points.length ≤ maxPoints.toNat then .ok (points.map pointEntry)
  else .ok ((← bucketEntries round overflowChecks iteration points maxPoints).map Prod.fst)

end Source

/-! Buckets in exact arithmetic. -/

def spread (points : List MetricPoint) : ℤ := max (Int.bmod (maxStep points - minStep points) (2 ^ 64)) 1

def bucket (points : List MetricPoint) (bucketCount : ℕ) (point : MetricPoint) : ℕ :=
  min (Int.bmod (point.step - minStep points) (2 ^ 64) * bucketCount / spread points).toNat (bucketCount - 1)

def label (points : List MetricPoint) (bucketCount idx : ℕ) : ℤ :=
  minStep points + idx * spread points / bucketCount

def entryOf (points : List MetricPoint) (bucketCount : ℕ) (group : ℕ × List MetricPoint) :
    AggregatedPoint × List MetricPoint :=
  (⟨label points bucketCount group.1, (values group.2).sum / group.2.length, ((values group.2).min?).getD 0,
    ((values group.2).max?).getD 0, group.2.length⟩, group.2)

def groups (points : List MetricPoint) (bucketCount : ℕ) : List (ℕ × List MetricPoint) :=
  groupBy (· ≤ ·) (bucket points bucketCount) points

variable {overflowChecks : Bool} {points : List MetricPoint} {bucketCount : UInt64} {point : MetricPoint} {idx : ℕ}

theorem minStep_spec (hne : points ≠ []) :
    (∃ p ∈ points, p.step = minStep points) ∧ ∀ p ∈ points, minStep points ≤ p.step := by
  cases h : (points.map MetricPoint.step).min? with
  | none => exact absurd (List.map_eq_nil_iff.mp (List.min?_eq_none_iff.mp h)) hne
  | some lo =>
      obtain ⟨hmem, hle⟩ := List.min?_eq_some_iff.mp h
      rw [minStep, h, Option.getD_some]
      exact ⟨List.mem_map.mp hmem, fun p hp => hle _ (List.mem_map_of_mem hp)⟩

theorem maxStep_spec (hne : points ≠ []) :
    (∃ p ∈ points, p.step = maxStep points) ∧ ∀ p ∈ points, p.step ≤ maxStep points := by
  cases h : (points.map MetricPoint.step).max? with
  | none => exact absurd (List.map_eq_nil_iff.mp (List.max?_eq_none_iff.mp h)) hne
  | some hi =>
      obtain ⟨hmem, hle⟩ := List.max?_eq_some_iff.mp h
      rw [maxStep, h, Option.getD_some]
      exact ⟨List.mem_map.mp hmem, fun p hp => hle _ (List.mem_map_of_mem hp)⟩

theorem bmod_of_fits {x : ℤ} (h : fitsInt64 x) : Int.bmod x (2 ^ 64) = x := by
  obtain ⟨hlow, hhigh⟩ := h
  simp only [Int.bmod]
  split <;> omega

theorem checkInt64_eq {x : ℤ} (h : overflowChecks = true → fitsInt64 x) :
    checkInt64 overflowChecks x = .ok (Int.bmod x (2 ^ 64)) := by
  by_cases hfits : fitsInt64 x
  · rw [checkInt64, if_pos hfits, bmod_of_fits hfits]
  · have hoff : ¬ overflowChecks = true := fun hon => hfits (h hon)
    rw [checkInt64, if_neg hfits, if_neg hoff]

theorem spread_cases (hne : points ≠ []) :
    spread points = 1 ∨ fitsInt64 (maxStep points - minStep points) ∧
      spread points = maxStep points - minStep points := by
  obtain ⟨⟨p, hp, hlo⟩, hle⟩ := minStep_spec hne
  obtain ⟨⟨q, hq, hhi⟩, -⟩ := maxStep_spec hne
  have hspan : minStep points ≤ maxStep points := hhi ▸ hle q hq
  by_cases hfits : fitsInt64 (maxStep points - minStep points)
  · rw [spread, bmod_of_fits hfits]
    rcases le_total (maxStep points - minStep points) 1 with h | h
    · exact .inl (max_eq_right h)
    · exact .inr ⟨hfits, max_eq_left h⟩
  · exact .inl (MetricQuery.max_bmod_of_not_fits (hlo ▸ p.step_fits) (hhi ▸ q.step_fits) hspan hfits)

theorem spread_pos (points : List MetricPoint) : 0 < spread points := lt_of_lt_of_le Int.one_pos (le_max_right _ _)

theorem spread_fits (hne : points ≠ []) : spread points < 2 ^ 63 := by
  rcases spread_cases hne with h | ⟨hfits, h⟩
  · rw [h]
    norm_num
  · rw [h]
    exact hfits.2

theorem bucket_lt (hpos : 0 < bucketCount.toNat) (point : MetricPoint) :
    bucket points bucketCount.toNat point < bucketCount.toNat := by
  rw [bucket]
  omega

theorem label_bounds (hne : points ≠ []) (hidx : idx < bucketCount.toNat) :
    minStep points ≤ label points bucketCount.toNat idx ∧
      label points bucketCount.toNat idx ≤ maxStep points := by
  obtain ⟨⟨q, hq, hhi⟩, -⟩ := maxStep_spec hne
  have hspan : minStep points ≤ maxStep points := hhi ▸ (minStep_spec hne).2 q hq
  have hlow : 0 ≤ (idx : ℤ) * spread points / bucketCount.toNat :=
    Int.ediv_nonneg (mul_nonneg (by omega) (spread_pos points).le) (by omega)
  refine ⟨by rw [label]; omega, ?_⟩
  rw [label]
  rcases spread_cases hne with h | ⟨-, h⟩
  · rw [h, mul_one, Int.ediv_eq_zero_of_lt (by omega) (by omega)]
    omega
  · have hle : (idx : ℤ) * spread points / bucketCount.toNat ≤ spread points := by
      apply Int.ediv_le_of_le_mul (by omega)
      rw [mul_comm]
      exact mul_le_mul_of_nonneg_left (by omega) (spread_pos points).le
    omega

theorem floor_quotient {a : ℤ} {b : ℤ} (hb : 0 < b) {n : ℕ} : ⌊(a : ℚ) / ((b : ℚ) / n)⌋ = a * n / b := by
  obtain ⟨m, rfl⟩ := Int.eq_ofNat_of_zero_le hb.le
  rw [div_div_eq_mul_div]
  have h := Rat.floor_intCast_div_natCast (a * n) m
  push_cast at h
  exact_mod_cast h

theorem floor_product {b : ℤ} {n : ℕ} : ⌊(idx : ℚ) * ((b : ℚ) / n)⌋ = idx * b / n := by
  have h := Rat.floor_intCast_div_natCast (idx * b) n
  push_cast at h
  rw [← mul_div_assoc]
  exact_mod_cast h

theorem bucketIdx_eq (hpos : 0 < bucketCount.toNat)
    (hfits : overflowChecks = true → fitsInt64 (point.step - minStep points)) :
    bucketIdx id overflowChecks (minStep points) (bucketSize id (spread points) bucketCount) bucketCount point =
      .ok (bucket points bucketCount.toNat point) := by
  have hlast : lastBucket overflowChecks bucketCount = .ok (bucketCount.toNat - 1) := if_pos hpos
  have hbound := bucketCount.toNat_lt
  simp only [bucketIdx, checkInt64_eq hfits, hlast, bucketSize, id_eq, bucket]
  change Except.ok (min (toUsize _) _) = _
  rw [toUsize, floor_quotient (spread_pos points)]
  congr 1
  omega

theorem bucketStep_eq (hne : points ≠ []) (hidx : idx < bucketCount.toNat) :
    bucketStep id overflowChecks (minStep points) (bucketSize id (spread points) bucketCount) idx =
      .ok (label points bucketCount.toNat idx) := by
  obtain ⟨⟨p, hp, hlo⟩, -⟩ := minStep_spec hne
  obtain ⟨⟨q, hq, hhi⟩, -⟩ := maxStep_spec hne
  obtain ⟨hlow, hhigh⟩ := label_bounds hne hidx
  have hfits : fitsInt64 (label points bucketCount.toNat idx) := by
    have hp' := p.step_fits.1
    have hq' := q.step_fits.2
    constructor <;> omega
  have hnonneg : (0 : ℚ) ≤ idx * ((spread points : ℚ) / bucketCount.toNat) := by
    have h : (0 : ℚ) < spread points := by exact_mod_cast spread_pos points
    positivity
  have hcast : toInt64 (idx * ((spread points : ℚ) / bucketCount.toNat)) =
      idx * spread points / bucketCount.toNat := by
    rw [toInt64, if_pos hnonneg, floor_product]
    rw [label] at hlow hhigh
    apply min_eq_left
    have hp' := p.step_fits.1
    rcases spread_cases hne with h | ⟨hspan, h⟩
    · rw [h, mul_one, Int.ediv_eq_zero_of_lt (by omega) (by omega)]
      norm_num
    · have h := hspan.2
      omega
  simp only [bucketStep, bucketSize, id_eq]
  rw [hcast, ← label, checkInt64, if_pos hfits]

theorem buckets_eq : buckets (points.map (fun p => (bucket points bucketCount.toNat p, p))) =
    groups points bucketCount.toNat := by
  have hkeys : sortedKeys (fun a b : ℕ => a ≤ b) Prod.fst
      (points.map (fun p => (bucket points bucketCount.toNat p, p))) =
      sortedKeys (fun a b : ℕ => a ≤ b) (bucket points bucketCount.toNat) points := by
    rw [sortedKeys, sortedKeys, List.map_map]
    rfl
  rw [buckets, groups, groupBy, groupBy, hkeys, List.map_map]
  apply List.map_congr_left
  intro k _
  simp only [Function.comp_apply, groupOf, List.filter_map, List.map_map, Prod.mk.injEq, true_and]
  exact List.map_id _

theorem mem_groups {group : ℕ × List MetricPoint} (h : group ∈ groups points bucketCount.toNat) :
    group.2 = groupOf (bucket points bucketCount.toNat) points group.1 ∧ group.2 ≠ [] ∧
      ∃ p ∈ points, bucket points bucketCount.toNat p = group.1 := by
  obtain ⟨k, hk, rfl⟩ := List.mem_map.mp h
  have hex := (mem_sortedKeys _ _ _ _).mp hk
  exact ⟨rfl, groupOf_ne_nil _ hex, hex⟩

theorem aggregate_eq (hne : points ≠ []) (hpos : 0 < bucketCount.toNat) {group : ℕ × List MetricPoint}
    (h : group ∈ groups points bucketCount.toNat) :
    aggregate id overflowChecks (minStep points) (bucketSize id (spread points) bucketCount) group =
      .ok (entryOf points bucketCount.toNat group) := by
  obtain ⟨-, -, p, hp, hk⟩ := mem_groups h
  have hidx : group.1 < bucketCount.toNat := hk ▸ bucket_lt hpos p
  simp only [aggregate, bucketStep_eq hne hidx, id_eq]
  rw [← List.sum_eq_foldl]
  rfl

theorem bucketEntries_eq (iteration : IterationOrder (ℕ × List MetricPoint)) (hne : points ≠ [])
    (hpos : 0 < bucketCount.toNat) (hfits : overflowChecks = true → fitsInt64 (maxStep points - minStep points)) :
    bucketEntries id overflowChecks iteration points bucketCount =
      .ok (((iteration.order (groups points bucketCount.toNat)).map (entryOf points bucketCount.toNat)).mergeSort
        (fun a b => decide (a.1.step ≤ b.1.step))) := by
  have hindexed : points.mapM (fun point => do .ok (← bucketIdx id overflowChecks (minStep points)
      (bucketSize id (spread points) bucketCount) bucketCount point, point)) =
        (.ok (points.map (fun p => (bucket points bucketCount.toNat p, p))) : Checked _) := by
    apply mapM_eq_ok.mpr
    rw [List.forall₂_map_right_iff, List.forall₂_same]
    intro p hp
    have hstep : overflowChecks = true → fitsInt64 (p.step - minStep points) := by
      intro hon
      have hlow := (minStep_spec hne).2 p hp
      have hhigh := (maxStep_spec hne).2 p hp
      have h := (hfits hon).2
      constructor <;> omega
    rw [bucketIdx_eq hpos hstep]
    rfl
  have hentries : (iteration.order (groups points bucketCount.toNat)).mapM (aggregate id overflowChecks (minStep points)
      (bucketSize id (spread points) bucketCount)) =
        .ok ((iteration.order (groups points bucketCount.toNat)).map (entryOf points bucketCount.toNat)) := by
    apply mapM_eq_ok.mpr
    rw [List.forall₂_map_right_iff, List.forall₂_same]
    exact fun group hgroup => aggregate_eq hne hpos ((iteration.perm _).mem_iff.mp hgroup)
  simp only [bucketEntries, checkInt64_eq hfits]
  change (do let indexed ← points.mapM _; _ : Checked _) = _
  rw [← spread, hindexed]
  change (do let entries ← (iteration.order (buckets _)).mapM _; _ : Checked _) = _
  rw [buckets_eq, hentries]
  rfl

/-! What the entries keep of the points. -/

/-- What a series must keep of the points it is made of. -/
structure Conserves (points : List MetricPoint) (maxPoints : ℕ) (result : List AggregatedPoint) : Prop where
  few : maxPoints < points.length → result.length ≤ max maxPoints 1
  each : points.length ≤ maxPoints → result.length = points.length
  sorted : maxPoints < points.length → (result.map AggregatedPoint.step).Pairwise (· ≤ ·)
  counted : ∀ entry ∈ result, 1 ≤ entry.count
  total : (result.map AggregatedPoint.count).sum = points.length
  between : ∀ entry ∈ result, entry.min ≤ entry.mean ∧ entry.mean ≤ entry.max
  least : (result.map AggregatedPoint.min).min? = (values points).min?
  greatest : (result.map AggregatedPoint.max).max? = (values points).max?
  mean : (result.map (fun entry => (entry.count : ℚ) * entry.mean)).sum / (result.map AggregatedPoint.count).sum =
    (values points).sum / points.length

theorem mean_between {xs : List ℚ} (hne : xs ≠ []) :
    (xs.min?).getD 0 ≤ xs.sum / xs.length ∧ xs.sum / xs.length ≤ (xs.max?).getD 0 := by
  have hlength : (0 : ℚ) < xs.length := by exact_mod_cast List.length_pos_iff.mpr hne
  obtain ⟨lo, hlo⟩ := Option.isSome_iff_exists.mp (List.isSome_min?_of_ne_nil hne)
  obtain ⟨hi, hhi⟩ := Option.isSome_iff_exists.mp (List.isSome_max?_of_ne_nil hne)
  have hlow := List.card_nsmul_le_sum xs lo (List.min?_eq_some_iff.mp hlo).2
  have hhigh := List.sum_le_card_nsmul xs hi (List.max?_eq_some_iff.mp hhi).2
  rw [nsmul_eq_mul] at hlow hhigh
  rw [hlo, hhi, Option.getD_some, Option.getD_some, le_div_iff₀ hlength, div_le_iff₀ hlength]
  exact ⟨by linarith, by linarith⟩

theorem pointEntry_conserves {maxPoints : ℕ} (h : points.length ≤ maxPoints) :
    Conserves points maxPoints (points.map pointEntry) where
  few := fun hmany => absurd h (by omega)
  each := fun _ => List.length_map _
  sorted := fun hmany => absurd h (by omega)
  counted := by simp [pointEntry]
  total := by simp [pointEntry, Function.comp_def]
  between := by simp [pointEntry]
  least := by simp [pointEntry, Function.comp_def, values]
  greatest := by simp [pointEntry, Function.comp_def, values]
  mean := by simp [pointEntry, Function.comp_def, values]

theorem length_groups (hpos : 0 < bucketCount.toNat) :
    (groups points bucketCount.toNat).length ≤ bucketCount.toNat := by
  rw [groups, groupBy, List.length_map, length_sortedKeys]
  have hsub : (points.map (bucket points bucketCount.toNat)).dedup ⊆ List.range bucketCount.toNat := by
    intro k hk
    obtain ⟨p, hp, rfl⟩ := List.mem_map.mp (List.mem_dedup.mp hk)
    exact List.mem_range.mpr (bucket_lt hpos p)
  have hlength := (List.subperm_of_subset (List.nodup_dedup _) hsub).length_le
  rwa [List.length_range] at hlength

theorem sum_counts (bucketCount : ℕ) :
    ((groups points bucketCount).map (fun group => group.2.length)).sum = points.length := by
  rw [groups, groupBy, List.map_map]
  exact sum_length_groupBy _ _ _

theorem sum_values (bucketCount : ℕ) :
    ((groups points bucketCount).map (fun group => (values group.2).sum)).sum = (values points).sum := by
  rw [groups, groupBy, List.map_map]
  exact sum_groups _ _ _ _

theorem least_groups (bucketCount : ℕ) :
    ((groups points bucketCount).map (fun group => ((values group.2).min?).getD 0)).min? =
      (values points).min? := by
  rw [groups, groupBy, List.map_map]
  exact best_groups _ _ MetricQuery.best_min (fun _ => List.min?_eq_none_iff) (fun _ _ => le_antisymm)
    MetricPoint.value points 0

theorem greatest_groups (bucketCount : ℕ) :
    ((groups points bucketCount).map (fun group => ((values group.2).max?).getD 0)).max? =
      (values points).max? := by
  rw [groups, groupBy, List.map_map]
  exact best_groups _ _ MetricQuery.best_max (fun _ => List.max?_eq_none_iff) (fun _ _ h h' => le_antisymm h' h)
    MetricPoint.value points 0

theorem entries_conserve (hpos : 0 < bucketCount.toNat) (hmany : bucketCount.toNat < points.length)
    {entries : List (AggregatedPoint × List MetricPoint)}
    (hperm : entries.Perm ((groups points bucketCount.toNat).map (entryOf points bucketCount.toNat)))
    (hsorted : entries.Pairwise (fun a b => a.1.step ≤ b.1.step)) :
    Conserves points bucketCount.toNat (entries.map Prod.fst) := by
  have hread : ∀ {β : Type} (f : AggregatedPoint → β), ((entries.map Prod.fst).map f).Perm
      ((groups points bucketCount.toNat).map (fun group => f (entryOf points bucketCount.toNat group).1)) := by
    intro β f
    simpa only [List.map_map, Function.comp_def] using (hperm.map Prod.fst).map f
  have hentry : ∀ entry ∈ entries.map Prod.fst, ∃ group ∈ groups points bucketCount.toNat,
      entry = (entryOf points bucketCount.toNat group).1 := by
    intro entry hentry
    obtain ⟨e, he, rfl⟩ := List.mem_map.mp hentry
    obtain ⟨group, hgroup, rfl⟩ := List.mem_map.mp (hperm.mem_iff.mp he)
    exact ⟨group, hgroup, rfl⟩
  have htotal : ((entries.map Prod.fst).map AggregatedPoint.count).sum = points.length :=
    (hread AggregatedPoint.count).sum_eq.trans (sum_counts _)
  have hweighted : ((entries.map Prod.fst).map (fun entry => (entry.count : ℚ) * entry.mean)).sum =
      (values points).sum := by
    rw [(hread (fun entry => (entry.count : ℚ) * entry.mean)).sum_eq, ← sum_values bucketCount.toNat]
    congr 1
    apply List.map_congr_left
    intro group hgroup
    have hlength : (group.2.length : ℚ) ≠ 0 := by
      exact_mod_cast (List.length_pos_iff.mpr (mem_groups hgroup).2.1).ne'
    exact mul_div_cancel₀ _ hlength
  refine ⟨fun _ => ?_, fun hfew => absurd hmany (by omega), fun _ => ?_, ?_, htotal, ?_, ?_, ?_, ?_⟩
  · rw [List.length_map, hperm.length_eq, List.length_map]
    exact (length_groups hpos).trans (le_max_left _ _)
  · rw [List.map_map, List.pairwise_map]
    exact hsorted
  · intro entry h
    obtain ⟨group, hgroup, rfl⟩ := hentry entry h
    exact List.length_pos_iff.mpr (mem_groups hgroup).2.1
  · intro entry h
    obtain ⟨group, hgroup, rfl⟩ := hentry entry h
    have hne : values group.2 ≠ [] := by simpa [values] using (mem_groups hgroup).2.1
    have hbetween := mean_between hne
    rwa [show (values group.2).length = group.2.length from List.length_map _] at hbetween
  · rw [← least_groups bucketCount.toNat]
    exact best_congr MetricQuery.best_min (fun _ => (hread AggregatedPoint.min).mem_iff)
  · rw [← greatest_groups bucketCount.toNat]
    exact best_congr MetricQuery.best_max (fun _ => (hread AggregatedPoint.max).mem_iff)
  · rw [hweighted, htotal]

theorem mergeSort_entries (entries : List (AggregatedPoint × List MetricPoint)) :
    (entries.mergeSort (fun a b => decide (a.1.step ≤ b.1.step))).Pairwise (fun a b => a.1.step ≤ b.1.step) := by
  have h := @List.pairwise_mergeSort _ (fun a b : AggregatedPoint × List MetricPoint => decide (a.1.step ≤ b.1.step))
    (fun a b c hab hbc => by simp only [decide_eq_true_eq] at *; omega)
    (fun a b => by simp only [Bool.or_eq_true, decide_eq_true_eq]; omega) entries
  simpa using h

/-- In exact arithmetic downsampling conserves the points. -/
theorem downsamplePoints_conserves (overflowChecks : Bool) (iteration : IterationOrder (ℕ × List MetricPoint))
    (points : List MetricPoint) (maxPoints : UInt64) (hne : points ≠ []) (hpos : 1 ≤ maxPoints.toNat)
    (hfits : fitsInt64 (maxStep points - minStep points)) :
    ∃ result, downsamplePoints id overflowChecks iteration points maxPoints = .ok result ∧
      Conserves points maxPoints.toNat result := by
  rw [downsamplePoints, if_neg (by simpa using hne)]
  by_cases hfew : points.length ≤ maxPoints.toNat
  · rw [if_pos hfew]
    exact ⟨_, rfl, pointEntry_conserves hfew⟩
  · rw [if_neg hfew, bucketEntries_eq iteration hne hpos (fun _ => hfits)]
    refine ⟨_, rfl, entries_conserve hpos (by omega) ?_ (mergeSort_entries _)⟩
    exact (List.mergeSort_perm _ _).trans ((iteration.perm _).map _)

def pointAt (step : ℤ) (h : fitsInt64 step := by decide) : MetricPoint := ⟨step, 0, h⟩

def asStored {α : Type} : IterationOrder α := ⟨id, List.Perm.refl⟩

theorem four_points_conserved :
    ∃ result, downsamplePoints id true asStored [pointAt (-3), pointAt 0, pointAt 0, pointAt 5] 2 = .ok result ∧
      Conserves [pointAt (-3), pointAt 0, pointAt 0, pointAt 5] (2 : UInt64).toNat result :=
  downsamplePoints_conserves true asStored _ 2 (List.cons_ne_nil _ _) (by decide) (by decide)

/-! The labels of the entries. -/

/-- The labels of the entries set their points apart. -/
structure Faithful (points : List MetricPoint) (entries : List (AggregatedPoint × List MetricPoint)) : Prop where
  increasing : entries.Pairwise (fun a b => a.1.step < b.1.step)
  bounded : ∀ entry ∈ entries, minStep points ≤ entry.1.step ∧ entry.1.step ≤ maxStep points
  below : ∀ entry ∈ entries, ∀ p ∈ entry.2, entry.1.step ≤ p.step
  apart : entries.IsChain (fun a b => ∀ p ∈ a.2, p.step < b.1.step)

/-- No point lies on the truncated start of a bucket with points, unless the bucket starts
at a whole step. -/
def SharpStarts (points : List MetricPoint) (bucketCount : ℕ) : Prop :=
  ∀ p ∈ points, ∀ q ∈ points, bucket points bucketCount q * spread points % bucketCount ≠ 0 →
    p.step ≠ label points bucketCount (bucket points bucketCount q)

theorem label_le_step (hpos : 0 < bucketCount.toNat) {p : MetricPoint} (hp : p ∈ points) :
    label points bucketCount.toNat (bucket points bucketCount.toNat p) ≤ p.step := by
  have hne := List.ne_nil_of_mem hp
  have hlow := (minStep_spec hne).2 p hp
  have hhigh := (maxStep_spec hne).2 p hp
  have hspread := spread_pos points
  have hidx := @bucket_lt points bucketCount hpos p
  rw [label]
  rcases spread_cases hne with h | ⟨hfits, h⟩
  · rw [h, mul_one, Int.ediv_eq_zero_of_lt (by omega) (by omega)]
    omega
  · have hoff : fitsInt64 (p.step - minStep points) := by
      have h := hfits.2
      constructor <;> omega
    have hle : (bucket points bucketCount.toNat p : ℤ) ≤
        (p.step - minStep points) * bucketCount.toNat / spread points := by
      have hquot : 0 ≤ (p.step - minStep points) * bucketCount.toNat / spread points :=
        Int.ediv_nonneg (mul_nonneg (by omega) (by omega)) hspread.le
      rw [bucket, bmod_of_fits hoff]
      omega
    have hmul : (bucket points bucketCount.toNat p : ℤ) * spread points ≤
        (p.step - minStep points) * bucketCount.toNat :=
      (Int.le_ediv_iff_mul_le hspread).mp hle
    have hdiv : (bucket points bucketCount.toNat p : ℤ) * spread points / bucketCount.toNat ≤
        p.step - minStep points :=
      Int.ediv_le_of_le_mul (by omega) hmul
    omega

theorem step_lt_label (hpos : 0 < bucketCount.toNat) (hsharp : SharpStarts points bucketCount.toNat)
    {p q : MetricPoint}
    (hp : p ∈ points) (hq : q ∈ points)
    (hlt : bucket points bucketCount.toNat p < bucket points bucketCount.toNat q) :
    p.step < label points bucketCount.toNat (bucket points bucketCount.toNat q) := by
  have hne := List.ne_nil_of_mem hp
  have hlow := (minStep_spec hne).2 p hp
  have hhigh := (maxStep_spec hne).2 p hp
  have hspread := spread_pos points
  have hidx := @bucket_lt points bucketCount hpos q
  rcases spread_cases hne with h | ⟨hfits, h⟩
  · exfalso
    obtain ⟨⟨r, hr, hlo⟩, -⟩ := minStep_spec hne
    have hrem : (bucket points bucketCount.toNat q : ℤ) * spread points % bucketCount.toNat ≠ 0 := by
      rw [h, mul_one, Int.emod_eq_of_lt (by omega) (by omega)]
      omega
    apply hsharp r hr q hq hrem
    rw [label, h, mul_one, Int.ediv_eq_zero_of_lt (by omega) (by omega), hlo, add_zero]
  · have hoff : fitsInt64 (p.step - minStep points) := by
      have h := hfits.2
      constructor <;> omega
    have hquot : (p.step - minStep points) * bucketCount.toNat / spread points < bucket points bucketCount.toNat q := by
      generalize bucket points bucketCount.toNat q = j at hlt hidx
      rw [bucket, bmod_of_fits hoff] at hlt
      omega
    have hmul := Int.lt_mul_of_ediv_lt hspread hquot
    have hle : p.step - minStep points ≤ bucket points bucketCount.toNat q * spread points / bucketCount.toNat :=
      (Int.le_ediv_iff_mul_le (by omega)).mpr hmul.le
    have hne' : p.step ≠ label points bucketCount.toNat (bucket points bucketCount.toNat q) := by
      intro heq
      by_cases hrem : (bucket points bucketCount.toNat q : ℤ) * spread points % bucketCount.toNat = 0
      · have hexact := Int.ediv_mul_cancel (Int.dvd_of_emod_eq_zero hrem)
        rw [label] at heq
        rw [← hexact, show (bucket points bucketCount.toNat q : ℤ) * spread points / bucketCount.toNat =
          p.step - minStep points by omega] at hmul
        exact lt_irrefl _ hmul
      · exact hsharp p hp q hq hrem heq
    rw [label] at hne' ⊢
    omega

theorem mem_group {group : ℕ × List MetricPoint} (h : group ∈ groups points bucketCount.toNat) {p : MetricPoint} :
    p ∈ group.2 ↔ p ∈ points ∧ bucket points bucketCount.toNat p = group.1 := by
  rw [(mem_groups h).1, groupOf, List.mem_filter, decide_eq_true_eq]

theorem exists_group {p : MetricPoint} (hp : p ∈ points) :
    ∃ group ∈ groups points bucketCount.toNat, group.1 = bucket points bucketCount.toNat p ∧ p ∈ group.2 := by
  have hkey := (mem_sortedKeys (· ≤ ·) (bucket points bucketCount.toNat) points _).mpr ⟨p, hp, rfl⟩
  have hgroup := List.mem_map_of_mem (f := fun k => (k, groupOf (bucket points bucketCount.toNat) points k)) hkey
  exact ⟨_, hgroup, rfl, (mem_group hgroup).mpr ⟨hp, rfl⟩⟩

theorem apart_groups {entries : List (AggregatedPoint × List MetricPoint)}
    (hperm : entries.Perm ((groups points bucketCount.toNat).map (entryOf points bucketCount.toNat)))
    {R : (AggregatedPoint × List MetricPoint) → (AggregatedPoint × List MetricPoint) → Prop}
    (hsymm : ∀ a b, R a b → R b a)
    (h : ∀ g ∈ groups points bucketCount.toNat, ∀ g' ∈ groups points bucketCount.toNat, g.1 ≠ g'.1 →
      R (entryOf points bucketCount.toNat g) (entryOf points bucketCount.toNat g')) : entries.Pairwise R := by
  have hkeys : ((groups points bucketCount.toNat).map Prod.fst).Nodup := by
    rw [groups, groupBy, List.map_map]
    have hid : Prod.fst ∘ (fun k => (k, groupOf (bucket points bucketCount.toNat) points k)) = id := rfl
    rw [hid, List.map_id]
    exact nodup_sortedKeys _ _ _
  refine (hperm.pairwise_iff (fun hab => hsymm _ _ hab)).mpr ?_
  rw [List.pairwise_map]
  exact (List.pairwise_map.mp hkeys).imp_of_mem (fun hg hg' hne => h _ hg _ hg' hne)

theorem entries_faithful (hpos : 0 < bucketCount.toNat) (hsharp : SharpStarts points bucketCount.toNat)
    (hne : points ≠ []) {entries : List (AggregatedPoint × List MetricPoint)}
    (hperm : entries.Perm ((groups points bucketCount.toNat).map (entryOf points bucketCount.toNat)))
    (hsorted : entries.Pairwise (fun a b => a.1.step ≤ b.1.step)) : Faithful points entries := by
  have hentry : ∀ entry ∈ entries, ∃ group ∈ groups points bucketCount.toNat,
      entryOf points bucketCount.toNat group = entry := fun entry h => List.mem_map.mp (hperm.mem_iff.mp h)
  have hless : ∀ g ∈ groups points bucketCount.toNat, ∀ g' ∈ groups points bucketCount.toNat, g.1 < g'.1 →
      ∀ p ∈ g.2, p.step < label points bucketCount.toNat g'.1 := by
    intro g hg g' hg' hlt p hp
    obtain ⟨hp, hidx⟩ := (mem_group hg).mp hp
    obtain ⟨-, -, q, hq, hidx'⟩ := mem_groups hg'
    rw [← hidx, ← hidx'] at hlt
    rw [← hidx']
    exact step_lt_label hpos hsharp hp hq hlt
  have hlabel : ∀ g ∈ groups points bucketCount.toNat, ∀ p ∈ g.2,
      label points bucketCount.toNat g.1 ≤ p.step := by
    intro g hg p hp
    obtain ⟨hp, hidx⟩ := (mem_group hg).mp hp
    exact hidx ▸ label_le_step hpos hp
  have hmono : ∀ g ∈ groups points bucketCount.toNat, ∀ g' ∈ groups points bucketCount.toNat, g.1 < g'.1 →
      label points bucketCount.toNat g.1 < label points bucketCount.toNat g'.1 := by
    intro g hg g' hg' hlt
    obtain ⟨p, hp⟩ := List.exists_mem_of_ne_nil _ (mem_groups hg).2.1
    exact (hlabel g hg p hp).trans_lt (hless g hg g' hg' hlt p hp)
  have hdiffer : entries.Pairwise (fun a b => a.1.step ≠ b.1.step) := by
    apply apart_groups hperm (fun _ _ => Ne.symm)
    intro g hg g' hg' hkeys
    rcases Nat.lt_or_gt_of_ne hkeys with hlt | hgt
    · exact (hmono g hg g' hg' hlt).ne
    · exact (hmono g' hg' g hg hgt).ne'
  have hincreasing := (hsorted.and hdiffer).imp (fun h => lt_of_le_of_ne h.1 h.2)
  refine ⟨hincreasing, ?_, ?_, ?_⟩
  · intro entry h
    obtain ⟨group, hgroup, rfl⟩ := hentry entry h
    obtain ⟨-, -, p, hp, hidx⟩ := mem_groups hgroup
    exact label_bounds hne (hidx ▸ bucket_lt hpos p)
  · intro entry h
    obtain ⟨group, hgroup, rfl⟩ := hentry entry h
    exact hlabel group hgroup
  · apply List.Pairwise.isChain
    refine hincreasing.imp_of_mem ?_
    intro a b ha hb hlt
    obtain ⟨g, hg, rfl⟩ := hentry a ha
    obtain ⟨g', hg', rfl⟩ := hentry b hb
    apply hless g hg g' hg'
    by_contra hge
    rcases Nat.lt_or_eq_of_le (not_lt.mp hge) with hgt | heq
    · exact lt_asymm hlt (hmono g' hg' g hg hgt)
    · exact hlt.ne (congrArg (label points bucketCount.toNat) heq.symm)

theorem Faithful.pairwise {entries : List (AggregatedPoint × List MetricPoint)} (h : Faithful points entries) :
    entries.Pairwise (fun a b => ∀ p ∈ a.2, p.step < b.1.step) := by
  obtain ⟨hincreasing, -, -, hapart⟩ := h
  induction entries with
  | nil => exact .nil
  | cons a entries ih =>
      obtain ⟨hfirst, hrest⟩ := List.pairwise_cons.mp hincreasing
      refine .cons ?_ (ih hrest hapart.tail)
      intro c hc
      cases entries with
      | nil => cases hc
      | cons b entries =>
          have hnext := (List.isChain_cons_cons.mp hapart).1
          rcases List.mem_cons.mp hc with rfl | hc
          · exact hnext
          · exact fun p hp => (hnext p hp).trans ((List.pairwise_cons.mp hrest).1 c hc)

theorem Faithful.apart_of_ne {entries : List (AggregatedPoint × List MetricPoint)} (h : Faithful points entries)
    {a b : AggregatedPoint × List MetricPoint} (ha : a ∈ entries) (hb : b ∈ entries) (hne : a ≠ b) :
    (a.1.step < b.1.step ∧ ∀ p ∈ a.2, p.step < b.1.step) ∨
      (b.1.step < a.1.step ∧ ∀ p ∈ b.2, p.step < a.1.step) := by
  have hsymm : Std.Symm (fun a b : AggregatedPoint × List MetricPoint =>
      (a.1.step < b.1.step ∧ ∀ p ∈ a.2, p.step < b.1.step) ∨
        (b.1.step < a.1.step ∧ ∀ p ∈ b.2, p.step < a.1.step)) :=
    ⟨fun _ _ => Or.symm⟩
  have hpair : entries.Pairwise (fun a b =>
      (a.1.step < b.1.step ∧ ∀ p ∈ a.2, p.step < b.1.step) ∨
        (b.1.step < a.1.step ∧ ∀ p ∈ b.2, p.step < a.1.step)) :=
    (h.increasing.and h.pairwise).imp Or.inl
  exact hpair.forall ha hb hne

theorem sharpStarts_of_faithful (hpos : 0 < bucketCount.toNat)
    {entries : List (AggregatedPoint × List MetricPoint)}
    (hperm : entries.Perm ((groups points bucketCount.toNat).map (entryOf points bucketCount.toNat)))
    (h : Faithful points entries) : SharpStarts points bucketCount.toNat := by
  intro p hp q hq hrem heq
  have hne := List.ne_nil_of_mem hp
  have hspread := spread_pos points
  have hidx := @bucket_lt points bucketCount hpos q
  have hquot : 0 ≤ (bucket points bucketCount.toNat q : ℤ) * spread points / bucketCount.toNat :=
    Int.ediv_nonneg (mul_nonneg (by omega) hspread.le) (by omega)
  have hsmall : (bucket points bucketCount.toNat q : ℤ) * spread points / bucketCount.toNat ≤ spread points := by
    apply Int.ediv_le_of_le_mul (by omega)
    rw [mul_comm]
    exact mul_le_mul_of_nonneg_left (by omega) hspread.le
  have hoff : p.step - minStep points = bucket points bucketCount.toNat q * spread points / bucketCount.toNat := by
    rw [heq, label]
    omega
  have hfits : fitsInt64 (p.step - minStep points) := by
    have hlarge := spread_fits hne
    constructor <;> omega
  have hlt : bucket points bucketCount.toNat p < bucket points bucketCount.toNat q := by
    have hmul : (p.step - minStep points) * bucketCount.toNat < bucket points bucketCount.toNat q * spread points := by
      have hdiv := Int.ediv_mul_add_emod (bucket points bucketCount.toNat q * spread points) bucketCount.toNat
      have hmod := Int.emod_nonneg (bucket points bucketCount.toNat q * spread points)
        (by omega : (bucketCount.toNat : ℤ) ≠ 0)
      rw [hoff]
      omega
    have hbelow := Int.ediv_lt_of_lt_mul hspread hmul
    have hnonneg : 0 ≤ (p.step - minStep points) * bucketCount.toNat / spread points :=
      Int.ediv_nonneg (mul_nonneg (by omega) (by omega)) hspread.le
    generalize bucket points bucketCount.toNat q = j at hbelow hidx
    rw [bucket, bmod_of_fits hfits]
    omega
  obtain ⟨g, hg, hgidx, hpg⟩ := @exists_group points bucketCount p hp
  obtain ⟨g', hg', hgidx', -⟩ := @exists_group points bucketCount q hq
  have hmem : entryOf points bucketCount.toNat g ∈ entries := hperm.mem_iff.mpr (List.mem_map_of_mem hg)
  have hmem' : entryOf points bucketCount.toNat g' ∈ entries := hperm.mem_iff.mpr (List.mem_map_of_mem hg')
  have hdiffer : entryOf points bucketCount.toNat g ≠ entryOf points bucketCount.toNat g' := by
    intro hsame
    have hpg' : p ∈ g'.2 := (congrArg Prod.snd hsame) ▸ hpg
    have h := ((mem_group hg').mp hpg').2
    omega
  have hbelow : label points bucketCount.toNat g.1 ≤ p.step := h.below _ hmem p hpg
  have hlabel : (entryOf points bucketCount.toNat g').1.step = p.step := by
    rw [heq, ← hgidx']
    rfl
  rcases h.apart_of_ne hmem hmem' hdiffer with ⟨-, hapart⟩ | ⟨hless, -⟩
  · exact (hapart p hpg).ne hlabel.symm
  · exact absurd (hbelow.trans hlabel.ge) hless.not_ge

/-- In exact arithmetic the labels set the buckets apart just when none that has points starts, cut to
a whole step, at a point. -/
theorem labels_faithful_iff (overflowChecks : Bool) (iteration : IterationOrder (ℕ × List MetricPoint))
    (points : List MetricPoint) (maxPoints : UInt64) (hpos : 1 ≤ maxPoints.toNat)
    (hmany : maxPoints.toNat < points.length) :
    (∃ entries, bucketEntries id overflowChecks iteration points maxPoints = .ok entries ∧
        downsamplePoints id overflowChecks iteration points maxPoints = .ok (entries.map Prod.fst) ∧
        Faithful points entries) ↔
      (overflowChecks = true → fitsInt64 (maxStep points - minStep points)) ∧
        SharpStarts points maxPoints.toNat := by
  have hne : points ≠ [] := List.ne_nil_of_length_pos (by omega)
  by_cases hfits : overflowChecks = true → fitsInt64 (maxStep points - minStep points)
  · have hentries := bucketEntries_eq iteration hne hpos hfits
    have hperm := (List.mergeSort_perm ((iteration.order (groups points maxPoints.toNat)).map
      (entryOf points maxPoints.toNat)) (fun a b => decide (a.1.step ≤ b.1.step))).trans ((iteration.perm _).map _)
    constructor
    · rintro ⟨entries, hok, -, hfaithful⟩
      rw [hentries] at hok
      obtain rfl := Except.ok.inj hok
      exact ⟨hfits, sharpStarts_of_faithful hpos hperm hfaithful⟩
    · rintro ⟨-, hsharp⟩
      refine ⟨_, hentries, ?_, entries_faithful hpos hsharp hne hperm (mergeSort_entries _)⟩
      rw [downsamplePoints, if_neg (by simpa using hne), if_neg (by omega), hentries]
      rfl
  · rw [Classical.not_imp] at hfits
    constructor
    · rintro ⟨entries, hok, -⟩
      have hfail : checkInt64 overflowChecks (maxStep points - minStep points) = .error .overflow := by
        rw [checkInt64, if_neg hfits.2, if_pos hfits.1]
      rw [bucketEntries, hfail] at hok
      cases hok
    · exact fun h => absurd (h.1 hfits.1) hfits.2

theorem whole_steps_faithful :
    ∃ entries, bucketEntries id true asStored [pointAt 0, pointAt 1, pointAt 1, pointAt 4] 2 = .ok entries ∧
      downsamplePoints id true asStored [pointAt 0, pointAt 1, pointAt 1, pointAt 4] 2 = .ok (entries.map Prod.fst) ∧
      Faithful [pointAt 0, pointAt 1, pointAt 1, pointAt 4] entries :=
  (labels_faithful_iff true asStored _ 2 (by decide) (by decide)).mpr ⟨fun _ => by decide, by
    rw [SharpStarts]
    decide⟩

theorem half_step_shared : ¬ ∀ (overflowChecks : Bool) (iteration : IterationOrder (ℕ × List MetricPoint))
    (points : List MetricPoint) (maxPoints : UInt64), 1 ≤ maxPoints.toNat → maxPoints.toNat < points.length →
    ∃ entries, bucketEntries id overflowChecks iteration points maxPoints = .ok entries ∧
      downsamplePoints id overflowChecks iteration points maxPoints = .ok (entries.map Prod.fst) ∧
      Faithful points entries := by
  intro h
  obtain ⟨entries, hok, -, hfaithful⟩ := h true asStored [pointAt 0, pointAt 1, pointAt 3] 2 (by decide) (by decide)
  have hentries := @bucketEntries_eq true [pointAt 0, pointAt 1, pointAt 3] 2 asStored (List.cons_ne_nil _ _)
    (by decide) (fun _ => by decide)
  rw [hentries] at hok
  obtain rfl := Except.ok.inj hok
  have hperm := (List.mergeSort_perm ((asStored.order (groups [pointAt 0, pointAt 1, pointAt 3] 2)).map
    (entryOf [pointAt 0, pointAt 1, pointAt 3] 2)) (fun a b => decide (a.1.step ≤ b.1.step))).trans (List.Perm.refl _)
  have hsharp := @sharpStarts_of_faithful [pointAt 0, pointAt 1, pointAt 3] 2 (by decide) _ hperm hfaithful
  exact hsharp (pointAt 1) (by simp) (pointAt 3) (by simp) (by decide) (by decide)

end MLRunX.Downsampling
