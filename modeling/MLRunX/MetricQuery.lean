import Mathlib.Algebra.Order.Ring.Rat
import Mathlib.Data.List.MinMax
import MLRunX.Fallible
import MLRunX.Grouping
import MLRunX.SqlArith
import MLRunX.Sqlite

namespace MLRunX.MetricQuery

open Binary64 Fallible Grouping SqlArith Sqlite

/-- A stored point. Values are exact; steps have 64 bits. -/
structure MetricRow where
  runId : String
  name : String
  step : ℤ
  value : ℚ
  step_fits : fitsInt64 step

structure AggregatedPointRow where
  step : ℤ
  mean : ℚ
  min : ℚ
  max : ℚ
  count : ℕ

structure MetricSeriesRow where
  name : String
  points : List AggregatedPointRow
  totalPoints : ℕ
  downsampled : Bool

/-- A query fails with an error of the database, or, in builds that check for
it, by an overflow. -/
inductive QueryFailure
  | sqlite (error : SqliteError)
  | overflow
  deriving DecidableEq

abbrev Query (α : Type) := Except QueryFailure α

def inRange (startStep endStep : Option ℤ) (step : ℤ) : Bool :=
  startStep.all (fun s => decide (s ≤ step)) && endStep.all (fun e => decide (step ≤ e))

def selectRows (rows : List MetricRow) (runId : String) (startStep endStep : Option ℤ) (name : String) :
    List MetricRow :=
  rows.filter (fun r => r.runId == runId && r.name == name && inRange startStep endStep r.step)

def invalidColumnType (value : Value) : QueryFailure :=
  .sqlite (.database (match value with
    | .null => "Invalid column type Null at index: 0, name: bucket_step"
    | _ => "Invalid column type Real at index: 0, name: bucket_step"))

def decodeInt : Value → Query ℤ
  | .int i => .ok i
  | v => .error (invalidColumnType v)

def minStep (rows : List MetricRow) : ℤ := ((rows.map MetricRow.step).min?).getD 0

def maxStep (rows : List MetricRow) : ℤ := ((rows.map MetricRow.step).max?).getD 0

/-- The difference of the extreme steps wraps, unless overflows are checked. -/
def stepRange (overflowChecks : Bool) (lo hi : ℤ) : Query ℤ :=
  if fitsInt64 (hi - lo) then .ok (max (hi - lo) 1)
  else if overflowChecks then .error .overflow
  else .ok (max (Int.bmod (hi - lo) (2 ^ 64)) 1)

/-- The bucket width: a quotient of doubles, cast back to an integer. That by zero
is infinite, and becomes the greatest integer. -/
def bucketSize (range : ℤ) (bucketCount : ℕ) : ℤ :=
  if bucketCount = 0 then 2 ^ 63 - 1
  else min ⌊toDouble (toDouble range / toDouble bucketCount)⌋ (2 ^ 63 - 1)

def bucketStep (lo size : ℤ) (row : MetricRow) : Value :=
  castInteger (add (.int lo)
    (mul (castInteger (div (sub (.int row.step) (.int lo)) (.int size))) (.int size)))

def values (rows : List MetricRow) : List ℚ := rows.map MetricRow.value

def minValue (rows : List MetricRow) : ℚ := ((values rows).min?).getD 0

def maxValue (rows : List MetricRow) : ℚ := ((values rows).max?).getD 0

def aggregate (group : Value × List MetricRow) : Query AggregatedPointRow := do
  let step ← decodeInt group.1
  .ok ⟨step, (values group.2).sum / group.2.length, minValue group.2, maxValue group.2, group.2.length⟩

def downsample (overflowChecks : Bool) (maxPoints : UInt64) (rows : List MetricRow) :
    Query (List AggregatedPointRow) := do
  let lo := minStep rows
  let range ← stepRange overflowChecks lo (maxStep rows)
  let size := bucketSize range maxPoints.toNat
  (limitRows (Int.bmod maxPoints.toNat (2 ^ 64)) (groupBy Value.le (bucketStep lo size) rows)).mapM aggregate

def rawPoints (rows : List MetricRow) : List AggregatedPointRow :=
  (rows.insertionSort (fun a b => a.step ≤ b.step)).map (fun r => ⟨r.step, r.value, r.value, r.value, 1⟩)

def getSeries (overflowChecks : Bool) (rows : List MetricRow) (runId : String) (maxPoints : UInt64)
    (startStep endStep : Option ℤ) (name : String) : Query MetricSeriesRow := do
  let selected := selectRows rows runId startStep endStep name
  let points ← if selected.length ≤ maxPoints.toNat then .ok (rawPoints selected)
    else downsample overflowChecks maxPoints selected
  .ok ⟨name, points, selected.length, maxPoints.toNat < selected.length⟩

def namesToQuery (rows : List MetricRow) (runId : String) (names : List String) : List String :=
  if names.isEmpty then
    ((rows.filter (fun r => r.runId == runId)).map MetricRow.name).dedup.insertionSort (· ≤ ·)
  else names

def getMetrics (overflowChecks : Bool) (rows : List MetricRow) (runId : String) (names : List String)
    (maxPoints : UInt64) (startStep endStep : Option ℤ) : Query (List MetricSeriesRow) :=
  (namesToQuery rows runId names).mapM (getSeries overflowChecks rows runId maxPoints startStep endStep)

/-- The width of a bucket: a quotient of integers while both have 53 bits, of
doubles beyond. -/
def width (rows : List MetricRow) (maxPoints : ℕ) : ℤ :=
  let span := max (maxStep rows - minStep rows) 1
  if span < 2 ^ 53 ∧ maxPoints < 2 ^ 53 then span / maxPoints
  else min ⌊toDouble (toDouble span / toDouble maxPoints)⌋ (2 ^ 63 - 1)

def bucket (rows : List MetricRow) (maxPoints : ℕ) (row : MetricRow) : ℤ :=
  (row.step - minStep rows) / width rows maxPoints

/-- The rows lie in at most as many buckets as points are asked for, and these
are at least one step wide. -/
structure FewBuckets (rows : List MetricRow) (maxPoints : ℕ) : Prop where
  span_fits : fitsInt64 (maxStep rows - minStep rows)
  wide : 1 ≤ width rows maxPoints
  few : (rows.map (bucket rows maxPoints)).dedup.length ≤ maxPoints

/-- What a series must keep of the rows it is made from. -/
structure Lossless (rows : List MetricRow) (maxPoints : ℕ) (series : MetricSeriesRow) : Prop where
  few : series.downsampled = true → series.points.length ≤ maxPoints
  increasing : series.downsampled = true →
    (series.points.map AggregatedPointRow.step).Pairwise (· < ·)
  total : series.totalPoints = rows.length
  counted : (series.points.map AggregatedPointRow.count).sum = series.totalPoints
  min_kept : (series.points.map AggregatedPointRow.min).min? = (values rows).min?
  max_kept : (series.points.map AggregatedPointRow.max).max? = (values rows).max?

theorem best_min (l : List ℚ) (a : ℚ) : l.min? = some a ↔ a ∈ l ∧ ∀ b ∈ l, a ≤ b :=
  List.min?_eq_some_iff

theorem best_max (l : List ℚ) (a : ℚ) : l.max? = some a ↔ a ∈ l ∧ ∀ b ∈ l, b ≤ a :=
  List.max?_eq_some_iff

theorem rawPoints_lossless (rows : List MetricRow) (maxPoints : ℕ) (name : String) :
    Lossless rows maxPoints ⟨name, rawPoints rows, rows.length, false⟩ := by
  have hperm : (rows.insertionSort (fun a b => a.step ≤ b.step)).Perm rows := List.perm_insertionSort _ _
  have hmem : ∀ v, v ∈ values (rows.insertionSort (fun a b => a.step ≤ b.step)) ↔ v ∈ values rows :=
    fun v => (hperm.map MetricRow.value).mem_iff
  refine ⟨nofun, nofun, rfl, ?_, ?_, ?_⟩
  · simp [rawPoints, Function.comp_def]
  · simpa [rawPoints, Function.comp_def, values] using best_congr best_min hmem
  · simpa [rawPoints, Function.comp_def, values] using best_congr best_max hmem

theorem aggregate_eq_ok {k : Value} {rows : List MetricRow} {p : AggregatedPointRow} :
    aggregate (k, rows) = .ok p ↔ k = .int p.step ∧
      p = ⟨p.step, (values rows).sum / rows.length, minValue rows, maxValue rows, rows.length⟩ := by
  rw [aggregate, bind_eq_ok]
  constructor
  · rintro ⟨i, hi, h⟩
    obtain rfl := Except.ok.inj h
    cases k with
    | int j => exact ⟨congrArg _ (Except.ok.inj hi), rfl⟩
    | null | real => cases hi
  · rintro ⟨rfl, hp⟩
    exact ⟨p.step, rfl, congrArg _ hp.symm⟩

/-- The points of a query are one for each key, in the keys' order. -/
structure PointsOf (key : MetricRow → Value) (rows : List MetricRow) (keys : List Value)
    (points : List AggregatedPointRow) : Prop where
  keys_eq : keys = (points.map AggregatedPointRow.step).map Value.int
  counts : points.map AggregatedPointRow.count = keys.map (fun k => (groupOf key rows k).length)
  mins : points.map AggregatedPointRow.min = keys.map (fun k => minValue (groupOf key rows k))
  maxs : points.map AggregatedPointRow.max = keys.map (fun k => maxValue (groupOf key rows k))

theorem pointsOf_mapM {key : MetricRow → Value} {rows : List MetricRow} {keys : List Value}
    {points : List AggregatedPointRow}
    (h : (keys.map (fun k => (k, groupOf key rows k))).mapM aggregate = .ok points) :
    PointsOf key rows keys points := by
  rw [mapM_eq_ok, List.forall₂_map_left_iff] at h
  induction h with
  | nil => exact ⟨rfl, rfl, rfl, rfl⟩
  | cons hk hks ih =>
      obtain ⟨rfl, hp⟩ := aggregate_eq_ok.mp hk
      refine ⟨?_, ?_, ?_, ?_⟩
      · rw [List.map_cons, List.map_cons, ← ih.keys_eq]
      · rw [List.map_cons, List.map_cons, ih.counts, hp]
      · rw [List.map_cons, List.map_cons, ih.mins, hp]
      · rw [List.map_cons, List.map_cons, ih.maxs, hp]

theorem mapM_aggregate (key : MetricRow → Value) (rows : List MetricRow) {keys : List Value}
    (h : ∀ k ∈ keys, ∃ i, k = .int i) :
    ∃ points, (keys.map (fun k => (k, groupOf key rows k))).mapM aggregate = .ok points := by
  induction keys with
  | nil => exact ⟨[], rfl⟩
  | cons k keys ih =>
      obtain ⟨i, rfl⟩ := h k List.mem_cons_self
      obtain ⟨points, hp⟩ := ih (fun k hk => h k (List.mem_cons_of_mem _ hk))
      let group := groupOf key rows (.int i)
      refine ⟨⟨i, (values group).sum / group.length, minValue group, maxValue group, group.length⟩ :: points,
        ?_⟩
      rw [List.map_cons, List.mapM_cons, bind_eq_ok]
      exact ⟨_, aggregate_eq_ok.mpr ⟨rfl, rfl⟩, bind_eq_ok.mpr ⟨_, hp, rfl⟩⟩

theorem pointsOf_increasing {key : MetricRow → Value} {rows : List MetricRow}
    {points : List AggregatedPointRow} (h : PointsOf key rows (sortedKeys Value.le key rows) points) :
    (points.map AggregatedPointRow.step).Pairwise (· < ·) := by
  have hsorted : (sortedKeys Value.le key rows).Pairwise Value.le := List.pairwise_insertionSort _ _
  have hboth := hsorted.and (nodup_sortedKeys Value.le key rows)
  rw [h.keys_eq, List.pairwise_map] at hboth
  exact hboth.imp (fun hij => rank_int_lt hij.1 (fun he => hij.2 (congrArg _ he)))

theorem downsampled_lossless_iff (key : MetricRow → Value) (rows : List MetricRow) (maxPoints : ℕ)
    (limit : ℤ) (hlimit : limit < 0 ∨ limit = maxPoints) (name : String) :
    (∃ points, (limitRows limit (groupBy Value.le key rows)).mapM aggregate = .ok points ∧
        Lossless rows maxPoints ⟨name, points, rows.length, true⟩) ↔
      (∀ r ∈ rows, ∃ i, key r = .int i) ∧ (rows.map key).dedup.length ≤ maxPoints := by
  rw [groupBy, limitRows_map]
  constructor
  · rintro ⟨points, hp, hl⟩
    have hpts := pointsOf_mapM hp
    have hn : (limitRows limit (sortedKeys Value.le key rows)).Nodup :=
      (nodup_sortedKeys Value.le key rows).sublist (limitRows_sublist limit _)
    have hall : ∀ r ∈ rows, key r ∈ limitRows limit (sortedKeys Value.le key rows) := by
      refine mem_of_sum_length key hn ?_
      rw [← hpts.counts]
      exact hl.counted
    constructor
    · intro r hr
      have hk := hall r hr
      rw [hpts.keys_eq] at hk
      obtain ⟨i, -, hi⟩ := List.mem_map.mp hk
      exact ⟨i, hi.symm⟩
    · have hsub : sortedKeys Value.le key rows ⊆ limitRows limit (sortedKeys Value.le key rows) := by
        intro k hk
        obtain ⟨r, hr, rfl⟩ := (mem_sortedKeys _ _ _ _).mp hk
        exact hall r hr
      calc (rows.map key).dedup.length = (sortedKeys Value.le key rows).length :=
            (length_sortedKeys Value.le key rows).symm
        _ ≤ (limitRows limit (sortedKeys Value.le key rows)).length :=
            (List.subperm_of_subset (nodup_sortedKeys _ _ _) hsub).length_le
        _ = points.length := by rw [hpts.keys_eq, List.length_map, List.length_map]
        _ ≤ maxPoints := hl.few rfl
  · rintro ⟨hint, hlen⟩
    rw [← length_sortedKeys Value.le key rows] at hlen
    rw [limitRows_of_length_le (hlimit.imp_right (fun h => by rw [h]; exact_mod_cast hlen))]
    have hkeys : ∀ k ∈ sortedKeys Value.le key rows, ∃ i, k = .int i := by
      intro k hk
      obtain ⟨r, hr, rfl⟩ := (mem_sortedKeys _ _ _ _).mp hk
      exact hint r hr
    obtain ⟨points, hp⟩ := mapM_aggregate key rows hkeys
    have hpts := pointsOf_mapM hp
    refine ⟨points, hp, ⟨fun _ => ?_, fun _ => pointsOf_increasing hpts, rfl, ?_, ?_, ?_⟩⟩
    · have hk := congrArg List.length hpts.keys_eq
      simp only [List.length_map] at hk
      exact hk ▸ hlen
    · rw [hpts.counts]
      exact sum_length_groupBy Value.le key rows
    · rw [hpts.mins]
      exact best_groups Value.le key best_min (fun l => List.min?_eq_none_iff)
        (fun a b => le_antisymm) MetricRow.value rows 0
    · rw [hpts.maxs]
      exact best_groups Value.le key best_max (fun l => List.max?_eq_none_iff)
        (fun a b h h' => le_antisymm h' h) MetricRow.value rows 0

theorem minStep_le {rows : List MetricRow} {r : MetricRow} (hr : r ∈ rows) : minStep rows ≤ r.step := by
  have hmem : r.step ∈ rows.map MetricRow.step := List.mem_map_of_mem hr
  obtain ⟨a, ha⟩ := Option.isSome_iff_exists.mp (List.isSome_min?_of_mem hmem)
  rw [minStep, ha]
  exact (List.min?_eq_some_iff.mp ha).2 _ hmem

theorem le_maxStep {rows : List MetricRow} {r : MetricRow} (hr : r ∈ rows) : r.step ≤ maxStep rows := by
  have hmem : r.step ∈ rows.map MetricRow.step := List.mem_map_of_mem hr
  obtain ⟨a, ha⟩ := Option.isSome_iff_exists.mp (List.isSome_max?_of_mem hmem)
  rw [maxStep, ha]
  exact (List.max?_eq_some_iff.mp ha).2 _ hmem

theorem exists_minStep {rows : List MetricRow} (hne : rows ≠ []) : ∃ r ∈ rows, r.step = minStep rows := by
  cases h : (rows.map MetricRow.step).min? with
  | none => exact absurd (List.map_eq_nil_iff.mp (List.min?_eq_none_iff.mp h)) hne
  | some a =>
      obtain ⟨r, hr, ha⟩ := List.mem_map.mp (List.min?_eq_some_iff.mp h).1
      exact ⟨r, hr, by rw [minStep, h, Option.getD_some, ha]⟩

theorem exists_maxStep {rows : List MetricRow} (hne : rows ≠ []) : ∃ r ∈ rows, r.step = maxStep rows := by
  cases h : (rows.map MetricRow.step).max? with
  | none => exact absurd (List.map_eq_nil_iff.mp (List.max?_eq_none_iff.mp h)) hne
  | some a =>
      obtain ⟨r, hr, ha⟩ := List.mem_map.mp (List.max?_eq_some_iff.mp h).1
      exact ⟨r, hr, by rw [maxStep, h, Option.getD_some, ha]⟩

theorem bucketStep_zero (lo : ℤ) (r : MetricRow) : bucketStep lo 0 r = .null := by
  rw [bucketStep, div_zero]
  rfl

theorem bucketStep_eq {lo size : ℤ} {r : MetricRow} (hlo : fitsInt64 lo) (hle : lo ≤ r.step)
    (hfit : fitsInt64 (r.step - lo)) (hsize : 1 ≤ size) :
    bucketStep lo size r = .int (lo + (r.step - lo) / size * size) := by
  have hnonneg : 0 ≤ r.step - lo := by omega
  have hdiv : (r.step - lo).tdiv size = (r.step - lo) / size := Int.tdiv_eq_ediv_of_nonneg hnonneg
  have hquot : 0 ≤ (r.step - lo) / size := Int.ediv_nonneg hnonneg (by omega)
  have hquot_le : (r.step - lo) / size ≤ r.step - lo := Int.ediv_le_self _ hnonneg
  have hmul : (r.step - lo) / size * size ≤ r.step - lo := Int.ediv_mul_le _ (by omega)
  have hmul_nonneg : 0 ≤ (r.step - lo) / size * size := mul_nonneg hquot (by omega)
  have hrow := r.step_fits
  have hsub : sub (.int r.step) (.int lo) = .int (r.step - lo) := arith_int hfit _
  have hquotient : div (.int (r.step - lo)) (.int size) = .int ((r.step - lo) / size) := by
    rw [← hdiv]
    apply div_int (by omega)
    rw [hdiv]
    exact ⟨by omega, hquot_le.trans_lt hfit.2⟩
  have hproduct : mul (.int ((r.step - lo) / size)) (.int size) = .int ((r.step - lo) / size * size) :=
    arith_int ⟨by omega, hmul.trans_lt hfit.2⟩ _
  have hsum : add (.int lo) (.int ((r.step - lo) / size * size)) = .int (lo + (r.step - lo) / size * size) := by
    apply arith_int
    have hlow := hlo.1
    have hhigh := hrow.2
    constructor <;> omega
  simp only [bucketStep, hsub, hquotient, castInteger, hproduct, hsum]

theorem bucketSize_nonneg {range : ℤ} {maxPoints : ℕ} (hrange : 0 ≤ range) :
    0 ≤ bucketSize range maxPoints := by
  have hpos : ∀ x : ℚ, 0 ≤ x → 0 ≤ toDouble x := by
    intro x hx
    have h := le_toDouble hx
    linarith
  rw [bucketSize]
  split
  · norm_num
  · refine le_min (Int.floor_nonneg.mpr (hpos _ (div_nonneg (hpos _ ?_) (hpos _ ?_)))) (by norm_num)
    · exact_mod_cast hrange
    · positivity

theorem bucketSize_eq {range maxPoints : ℕ} (hrange : 0 < range) (hr : range < 2 ^ 53) (hpos : 0 < maxPoints)
    (hm : maxPoints < 2 ^ 53) : bucketSize range maxPoints = ((range / maxPoints : ℕ) : ℤ) := by
  have hle : range / maxPoints ≤ range := Nat.div_le_self _ _
  rw [bucketSize, if_neg hpos.ne', Int.cast_natCast, toDouble_natCast range hr, toDouble_natCast maxPoints hm,
    floor_toDouble_div hr hpos hrange]
  apply min_eq_left
  omega

theorem bucketSize_eq_width {rows : List MetricRow} {maxPoints : ℕ} (hpos : 0 < maxPoints) :
    bucketSize (max (maxStep rows - minStep rows) 1) maxPoints = width rows maxPoints := by
  obtain ⟨span, hspan⟩ : ∃ span : ℕ, max (maxStep rows - minStep rows) 1 = span :=
    ⟨(max (maxStep rows - minStep rows) 1).toNat, by omega⟩
  simp only [width, hspan]
  split
  · rename_i h
    rw [bucketSize_eq (by omega) (by omega) hpos h.2, Int.natCast_div]
  · exact if_neg hpos.ne'

theorem bucketSize_one_one : bucketSize 1 1 = 1 := by
  have h : bucketSize ((1 : ℕ) : ℤ) 1 = ((1 / 1 : ℕ) : ℤ) :=
    bucketSize_eq (by norm_num) (by norm_num) (by norm_num) (by norm_num)
  simpa using h

theorem bucketSize_one {maxPoints : ℕ} (hpos : 0 < maxPoints) (hsize : 1 ≤ bucketSize 1 maxPoints) :
    maxPoints = 1 := by
  by_contra hne
  have htwo : (2 : ℚ) ≤ maxPoints := by exact_mod_cast (by omega : 2 ≤ maxPoints)
  have hden : (3 / 2 : ℚ) ≤ toDouble maxPoints := by
    have h := le_toDouble (x := (maxPoints : ℚ)) (by linarith)
    linarith
  have hone : toDouble ((1 : ℤ) : ℚ) = ((1 : ℤ) : ℚ) := toDouble_intCast 1 (by norm_num)
  have hquot : 1 / toDouble maxPoints ≤ 2 / 3 := by
    rw [div_le_iff₀ (by linarith)]
    linarith
  rw [bucketSize, if_neg hpos.ne'] at hsize
  have hfloor := hsize.trans (min_le_left _ _)
  rw [Int.le_floor, hone] at hfloor
  have h := toDouble_le (x := 1 / toDouble maxPoints) (by positivity)
  push_cast at hfloor
  linarith

theorem bucketStep_far {lo : ℤ} {r : MetricRow} (hlo : fitsInt64 lo) (hfar : ¬ fitsInt64 (r.step - lo))
    (hle : lo ≤ r.step) : ∃ i, lo < i ∧ bucketStep lo 1 r = .int i := by
  have hrow := r.step_fits
  have hdiff : 2 ^ 63 ≤ r.step - lo := by
    by_contra h
    exact hfar ⟨by omega, by omega⟩
  have hone : toDouble ((1 : ℤ) : ℚ) = ((1 : ℤ) : ℚ) := toDouble_intCast 1 (by norm_num)
  have hsub : sub (.int r.step) (.int lo) = .real (toDouble (toDouble r.step - toDouble lo)) := if_neg hfar
  obtain ⟨x, hx⟩ : ∃ x, toDouble (toDouble r.step - toDouble lo) = x := ⟨_, rfl⟩
  have herr : ∀ i : ℤ, fitsInt64 i → |toDouble i - i| ≤ 2 ^ 10 := by
    intro i hi
    have h := toDouble_err i
    have habs : |(i : ℚ)| ≤ 2 ^ 63 := by
      have hbound : |i| ≤ 2 ^ 63 := abs_le.mpr ⟨hi.1, hi.2.le⟩
      exact_mod_cast hbound
    linarith
  have hxlow : 4 ≤ x := by
    have hhigh := (abs_le.mp (herr _ hrow)).1
    have hlow := (abs_le.mp (herr _ hlo)).2
    have hdiffq : (2 : ℚ) ^ 63 ≤ r.step - lo := by exact_mod_cast hdiff
    have h := le_toDouble (x := toDouble r.step - toDouble lo) (by linarith)
    linarith
  have hdiv : div (.real x) (.int 1) = .real (toDouble (x / 1)) := by
    rw [div, if_neg (by simp only [Value.toReal]; rw [hone]; norm_num)]
    simp only [arith, Value.toReal]
    rw [hone, Int.cast_one]
  have hquot : 2 ≤ toDouble (x / 1) := by
    have h := le_toDouble (x := x / 1) (by linarith)
    linarith
  obtain ⟨c, hc⟩ : ∃ c, max (-2 ^ 63) (min (truncate (toDouble (x / 1))) (2 ^ 63 - 1)) = c := ⟨_, rfl⟩
  have hc_pos : 1 ≤ c := by
    have htrunc : 2 ≤ truncate (toDouble (x / 1)) := by
      rw [truncate, if_pos (by linarith)]
      exact Int.le_floor.mpr (by exact_mod_cast hquot)
    omega
  have hmul : mul (.int c) (.int 1) = .int (c * 1) := by
    apply arith_int
    constructor <;> omega
  have hadd : add (.int lo) (.int (c * 1)) = .int (lo + c * 1) := by
    apply arith_int
    have h := hrow.2
    have h' := hlo.1
    constructor <;> omega
  refine ⟨lo + c * 1, by omega, ?_⟩
  simp only [bucketStep, hsub, hx, hdiv, castInteger, hc, hmul, hadd]

theorem limit_eq (maxPoints : UInt64) :
    Int.bmod maxPoints.toNat (2 ^ 64) < 0 ∨ Int.bmod maxPoints.toNat (2 ^ 64) = maxPoints.toNat := by
  have h := maxPoints.toNat_lt
  simp only [Int.bmod]
  split <;> omega

theorem downsample_eq_ok {overflowChecks : Bool} {maxPoints : UInt64} {rows : List MetricRow}
    {points : List AggregatedPointRow} : downsample overflowChecks maxPoints rows = .ok points ↔
      ∃ range, stepRange overflowChecks (minStep rows) (maxStep rows) = .ok range ∧
        (limitRows (Int.bmod maxPoints.toNat (2 ^ 64)) (groupBy Value.le
          (bucketStep (minStep rows) (bucketSize range maxPoints.toNat)) rows)).mapM aggregate = .ok points := by
  rw [downsample, bind_eq_ok]

theorem fits_minStep {rows : List MetricRow} (hne : rows ≠ []) : fitsInt64 (minStep rows) := by
  obtain ⟨r, hr, h⟩ := exists_minStep hne
  exact h ▸ r.step_fits

theorem fits_maxStep {rows : List MetricRow} (hne : rows ≠ []) : fitsInt64 (maxStep rows) := by
  obtain ⟨r, hr, h⟩ := exists_maxStep hne
  exact h ▸ r.step_fits

theorem minStep_le_maxStep {rows : List MetricRow} (hne : rows ≠ []) : minStep rows ≤ maxStep rows := by
  obtain ⟨r, hr⟩ := List.exists_mem_of_ne_nil rows hne
  exact (minStep_le hr).trans (le_maxStep hr)

theorem max_bmod_of_not_fits {lo hi : ℤ} (hlo : fitsInt64 lo) (hhi : fitsInt64 hi) (hle : lo ≤ hi)
    (hfar : ¬ fitsInt64 (hi - lo)) : max (Int.bmod (hi - lo) (2 ^ 64)) 1 = 1 := by
  have hdiff : 2 ^ 63 ≤ hi - lo := by
    by_contra h
    exact hfar ⟨by omega, by omega⟩
  have hlow := hlo.1
  have hhigh := hhi.2
  simp only [Int.bmod]
  split <;> omega

theorem dedup_bucketStep {rows : List MetricRow} {maxPoints : ℕ} (hne : rows ≠ [])
    (hspan : fitsInt64 (maxStep rows - minStep rows)) (hwide : 1 ≤ width rows maxPoints) :
    (∀ r ∈ rows, ∃ i, bucketStep (minStep rows) (width rows maxPoints) r = .int i) ∧
      (rows.map (bucketStep (minStep rows) (width rows maxPoints))).dedup.length =
        (rows.map (bucket rows maxPoints)).dedup.length := by
  have hkey : ∀ r ∈ rows, bucketStep (minStep rows) (width rows maxPoints) r =
      .int (minStep rows + bucket rows maxPoints r * width rows maxPoints) := by
    intro r hr
    have hlow := minStep_le hr
    have hhigh := le_maxStep hr
    have hfit : fitsInt64 (r.step - minStep rows) := by
      have h := hspan.2
      constructor <;> omega
    exact bucketStep_eq (fits_minStep hne) hlow hfit hwide
  refine ⟨fun r hr => ⟨_, hkey r hr⟩, ?_⟩
  have hinj : Function.Injective (fun b : ℤ => Value.int (minStep rows + b * width rows maxPoints)) := by
    intro a b h
    have hmul := add_left_cancel (Value.int.inj h)
    exact Int.eq_of_mul_eq_mul_right (by omega) hmul
  have hmap : rows.map (bucketStep (minStep rows) (width rows maxPoints)) =
      (rows.map (bucket rows maxPoints)).map (fun b => .int (minStep rows + b * width rows maxPoints)) := by
    rw [List.map_map]
    exact List.map_congr_left hkey
  rw [hmap, List.dedup_map_of_injective hinj, List.length_map]

/-- Without overflow checks the range of rows too far apart wraps, and the width
that follows fits no such rows. -/
theorem not_fits_overflow {rows : List MetricRow} {maxPoints : ℕ} (hne : rows ≠ []) (hpos : 0 < maxPoints)
    (hspan : ¬ fitsInt64 (maxStep rows - minStep rows))
    (hint : ∀ r ∈ rows, ∃ i, bucketStep (minStep rows) (bucketSize 1 maxPoints) r = .int i) :
    maxPoints < (rows.map (bucketStep (minStep rows) (bucketSize 1 maxPoints))).dedup.length := by
  obtain ⟨r, hr, hlow⟩ := exists_minStep hne
  obtain ⟨r', hr', hhigh⟩ := exists_maxStep hne
  have hsize : 1 ≤ bucketSize 1 maxPoints := by
    by_contra h
    have h0 : bucketSize 1 maxPoints = 0 := le_antisymm (by omega) (bucketSize_nonneg (by norm_num))
    obtain ⟨i, hi⟩ := hint r hr
    rw [h0, bucketStep_zero] at hi
    cases hi
  obtain rfl := bucketSize_one hpos hsize
  rw [bucketSize_one_one]
  have hfar : ¬ fitsInt64 (r'.step - minStep rows) := by rwa [hhigh]
  obtain ⟨i, hi, hkey'⟩ := bucketStep_far (fits_minStep hne) hfar (minStep_le hr')
  have hkey : bucketStep (minStep rows) 1 r = .int (minStep rows) := by
    rw [bucketStep_eq (fits_minStep hne) hlow.ge (by rw [hlow, sub_self]; decide) le_rfl, hlow]
    simp
  have hpair : [Value.int (minStep rows), .int i] ⊆ (rows.map (bucketStep (minStep rows) 1)).dedup := by
    intro k hk
    rw [List.mem_dedup, List.mem_map]
    rcases List.mem_pair.mp hk with rfl | rfl
    · exact ⟨r, hr, hkey⟩
    · exact ⟨r', hr', hkey'⟩
  have hnodup : [Value.int (minStep rows), .int i].Nodup := by simpa using hi.ne
  exact (List.subperm_of_subset hnodup hpair).length_le

theorem downsample_lossless_iff {overflowChecks : Bool} {maxPoints : UInt64} {rows : List MetricRow}
    (hpos : 1 ≤ maxPoints.toNat) (hmany : maxPoints.toNat < rows.length) (name : String) :
    (∃ points, downsample overflowChecks maxPoints rows = .ok points ∧
        Lossless rows maxPoints.toNat ⟨name, points, rows.length, true⟩) ↔ FewBuckets rows maxPoints.toNat := by
  have hne : rows ≠ [] := List.ne_nil_of_length_pos (by omega)
  have hgroup : ∀ range : ℤ, stepRange overflowChecks (minStep rows) (maxStep rows) = .ok range →
      ((∃ points, downsample overflowChecks maxPoints rows = .ok points ∧
        Lossless rows maxPoints.toNat ⟨name, points, rows.length, true⟩) ↔
      (∀ r ∈ rows, ∃ i, bucketStep (minStep rows) (bucketSize range maxPoints.toNat) r = .int i) ∧
      (rows.map (bucketStep (minStep rows) (bucketSize range maxPoints.toNat))).dedup.length ≤
        maxPoints.toNat) := by
    intro range hrange
    rw [← downsampled_lossless_iff _ rows maxPoints.toNat _ (limit_eq maxPoints) name]
    simp only [downsample_eq_ok, hrange, Except.ok.injEq, exists_eq_left']
  by_cases hspan : fitsInt64 (maxStep rows - minStep rows)
  · rw [hgroup _ (if_pos hspan), bucketSize_eq_width (by omega)]
    constructor
    · rintro ⟨hint, hfew⟩
      have hwide : 1 ≤ width rows maxPoints.toNat := by
        by_contra h
        have hnonneg : 0 ≤ bucketSize (max (maxStep rows - minStep rows) 1) maxPoints.toNat :=
          bucketSize_nonneg (by omega)
        rw [bucketSize_eq_width (by omega)] at hnonneg
        have h0 : width rows maxPoints.toNat = 0 := by omega
        obtain ⟨r, hr⟩ := List.exists_mem_of_ne_nil rows hne
        obtain ⟨i, hi⟩ := hint r hr
        rw [h0, bucketStep_zero] at hi
        cases hi
      exact ⟨hspan, hwide, (dedup_bucketStep hne hspan hwide).2 ▸ hfew⟩
    · intro h
      obtain ⟨hint, hlen⟩ := dedup_bucketStep hne hspan h.wide
      exact ⟨hint, hlen ▸ h.few⟩
  · constructor
    · rintro ⟨points, hp, hl⟩
      obtain ⟨range, hrange, -⟩ := downsample_eq_ok.mp hp
      have hone : range = 1 := by
        have hlow := fits_minStep hne
        have hhigh := fits_maxStep hne
        have hle := minStep_le_maxStep hne
        rw [stepRange, if_neg hspan] at hrange
        cases overflowChecks with
        | true => cases hrange
        | false =>
            have hwrap : max (Int.bmod (maxStep rows - minStep rows) (2 ^ 64)) 1 = range := Except.ok.inj hrange
            exact hwrap ▸ max_bmod_of_not_fits hlow hhigh hle hspan
      rw [hone] at hrange
      obtain ⟨hint, hfew⟩ := (hgroup 1 hrange).mp ⟨points, hp, hl⟩
      have h := not_fits_overflow hne hpos hspan hint
      omega
    · intro h
      exact absurd h.span_fits hspan

theorem getSeries_few {overflowChecks : Bool} {rows : List MetricRow} {runId : String} {maxPoints : UInt64}
    {startStep endStep : Option ℤ} {name : String}
    (hfew : (selectRows rows runId startStep endStep name).length ≤ maxPoints.toNat) :
    getSeries overflowChecks rows runId maxPoints startStep endStep name =
      .ok ⟨name, rawPoints (selectRows rows runId startStep endStep name),
        (selectRows rows runId startStep endStep name).length, false⟩ := by
  simp only [getSeries, if_pos hfew, Nat.not_lt.mpr hfew, decide_false]
  rfl

theorem getSeries_many {overflowChecks : Bool} {rows : List MetricRow} {runId : String} {maxPoints : UInt64}
    {startStep endStep : Option ℤ} {name : String} {series : MetricSeriesRow}
    (hmany : maxPoints.toNat < (selectRows rows runId startStep endStep name).length) :
    getSeries overflowChecks rows runId maxPoints startStep endStep name = .ok series ↔
      ∃ points, downsample overflowChecks maxPoints (selectRows rows runId startStep endStep name) = .ok points ∧
        series = ⟨name, points, (selectRows rows runId startStep endStep name).length, true⟩ := by
  simp only [getSeries, if_neg (Nat.not_le.mpr hmany), bind_eq_ok, hmany, decide_true, Except.ok.injEq,
    eq_comm (a := series)]

theorem getSeries_lossless_iff {overflowChecks : Bool} {rows : List MetricRow} {runId : String}
    {maxPoints : UInt64} (hpos : 1 ≤ maxPoints.toNat) {startStep endStep : Option ℤ} {name : String} :
    (∃ series, getSeries overflowChecks rows runId maxPoints startStep endStep name = .ok series ∧
        series.name = name ∧ Lossless (selectRows rows runId startStep endStep name) maxPoints.toNat series) ↔
      (selectRows rows runId startStep endStep name).length ≤ maxPoints.toNat ∨
        FewBuckets (selectRows rows runId startStep endStep name) maxPoints.toNat := by
  by_cases hfew : (selectRows rows runId startStep endStep name).length ≤ maxPoints.toNat
  · simp only [getSeries_few hfew, hfew, true_or, iff_true]
    exact ⟨_, rfl, rfl, rawPoints_lossless _ maxPoints.toNat name⟩
  · rw [not_le] at hfew
    rw [← downsample_lossless_iff hpos hfew name]
    simp only [getSeries_many hfew, Nat.not_le.mpr hfew, false_or]
    constructor
    · rintro ⟨_, ⟨points, hp, rfl⟩, -, hl⟩
      exact ⟨points, hp, hl⟩
    · rintro ⟨points, hp, hl⟩
      exact ⟨_, ⟨points, hp, rfl⟩, rfl, hl⟩

/-- A query answers every name with all its rows' data just when each name has
few rows, or has them in few buckets. -/
theorem getMetrics_lossless_iff (overflowChecks : Bool) (rows : List MetricRow) (runId : String)
    (names : List String) (maxPoints : UInt64) (startStep endStep : Option ℤ) (hpos : 1 ≤ maxPoints.toNat) :
    (∃ series, getMetrics overflowChecks rows runId names maxPoints startStep endStep = .ok series ∧
        List.Forall₂ (fun name s => s.name = name ∧
          Lossless (selectRows rows runId startStep endStep name) maxPoints.toNat s)
          (namesToQuery rows runId names) series) ↔
      ∀ name ∈ namesToQuery rows runId names,
        (selectRows rows runId startStep endStep name).length ≤ maxPoints.toNat ∨
          FewBuckets (selectRows rows runId startStep endStep name) maxPoints.toNat := by
  simp only [getMetrics, mapM_eq_ok]
  induction namesToQuery rows runId names with
  | nil => exact ⟨fun _ => by simp, fun _ => ⟨[], .nil, .nil⟩⟩
  | cons name queried ih =>
      rw [List.forall_mem_cons, ← ih, ← getSeries_lossless_iff hpos]
      constructor
      · rintro ⟨_, hq, hl⟩
        obtain ⟨s, series, hs, hqs, rfl⟩ := List.forall₂_cons_left_iff.mp hq
        obtain ⟨hkeep, hkeeps⟩ := List.forall₂_cons.mp hl
        exact ⟨⟨s, hs, hkeep⟩, series, hqs, hkeeps⟩
      · rintro ⟨⟨s, hs, hkeep⟩, series, hqs, hkeeps⟩
        exact ⟨s :: series, .cons hs hqs, .cons hkeep hkeeps⟩

def lossRow (step : ℤ) (h : fitsInt64 step := by decide) : MetricRow := ⟨"r", "loss", step, 0, h⟩

theorem lossless_two_buckets :
    ∃ series, getMetrics false [lossRow 0, lossRow 0, lossRow 2, lossRow 2] "r" ["loss"] 2 none none = .ok series ∧
      List.Forall₂ (fun name s => s.name = name ∧ Lossless (selectRows
        [lossRow 0, lossRow 0, lossRow 2, lossRow 2] "r" none none name) (2 : UInt64).toNat s)
        (namesToQuery [lossRow 0, lossRow 0, lossRow 2, lossRow 2] "r" ["loss"]) series :=
  (getMetrics_lossless_iff false _ "r" ["loss"] 2 none none (by decide)).mpr (by
    intro name hname
    obtain rfl := List.mem_singleton.mp hname
    exact .inr ⟨by decide, by decide, by decide⟩)

theorem consecutive_steps_lossy :
    ¬ ∃ series, getMetrics false [lossRow 0, lossRow 1, lossRow 2] "r" ["loss"] 2 none none = .ok series ∧
      List.Forall₂ (fun name s => s.name = name ∧ Lossless (selectRows
        [lossRow 0, lossRow 1, lossRow 2] "r" none none name) (2 : UInt64).toNat s)
        (namesToQuery [lossRow 0, lossRow 1, lossRow 2] "r" ["loss"]) series := by
  rintro ⟨_, hq, hl⟩
  obtain ⟨s, series, hs, -, rfl⟩ := List.forall₂_cons_left_iff.mp (mapM_eq_ok.mp hq)
  have hfew := (getSeries_lossless_iff (by decide)).mp ⟨s, hs, (List.forall₂_cons.mp hl).1⟩
  rcases hfew with hfew | hfew
  · revert hfew
    decide
  · have h := hfew.few
    revert h
    decide

end MLRunX.MetricQuery
