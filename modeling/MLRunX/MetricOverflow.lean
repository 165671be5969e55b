import MLRunX.Downsampling

namespace MLRunX.MetricOverflow

open Binary64 Downsampling Fallible Grouping SqlArith

section Rounded

variable (round : ℚ → ℚ) (points : List MetricPoint) (maxPoints : UInt64)

def roundedSize : ℚ := bucketSize round (max (maxStep points - minStep points) 1) maxPoints

def roundedIdx (point : MetricPoint) : ℕ :=
  min (toUsize (round (round ((point.step - minStep points : ℤ) : ℚ) / roundedSize round points maxPoints)))
    (maxPoints.toNat - 1)

def roundedLabel (idx : ℕ) : ℤ := minStep points + toInt64 (round (round idx * roundedSize round points maxPoints))

/-- The label of every bucket that has points has 64 bits. -/
def LabelsFit : Prop := ∀ p ∈ points,
    fitsInt64 (roundedLabel round points maxPoints (roundedIdx round points maxPoints p))

end Rounded

variable {round : ℚ → ℚ} {points : List MetricPoint} {maxPoints : UInt64} {point : MetricPoint}

theorem checkInt64_ok {x y : ℤ} : checkInt64 true x = .ok y ↔ fitsInt64 x ∧ y = x := by
  rw [checkInt64]
  by_cases h : fitsInt64 x
  · simp [h, eq_comm]
  · simp [h]

theorem lastBucket_ok {last : ℕ} : lastBucket true maxPoints = .ok last ↔
    0 < maxPoints.toNat ∧ last = maxPoints.toNat - 1 := by
  rw [lastBucket]
  by_cases h : 0 < maxPoints.toNat
  · simp [h, eq_comm]
  · simp [h]

theorem bucketIdx_ok {idx : ℕ} :
    bucketIdx round true (minStep points) (roundedSize round points maxPoints) maxPoints point = .ok idx ↔
      fitsInt64 (point.step - minStep points) ∧ 0 < maxPoints.toNat ∧
        idx = roundedIdx round points maxPoints point := by
  simp only [bucketIdx, bind_eq_ok, checkInt64_ok, lastBucket_ok]
  constructor
  · rintro ⟨_, ⟨hfits, rfl⟩, _, ⟨hpos, rfl⟩, hidx⟩
    exact ⟨hfits, hpos, (Except.ok.inj hidx).symm⟩
  · rintro ⟨hfits, hpos, rfl⟩
    exact ⟨_, ⟨hfits, rfl⟩, _, ⟨hpos, rfl⟩, rfl⟩

theorem exists_aggregate_ok (group : ℕ × List MetricPoint) :
    (∃ entry, aggregate round true (minStep points) (roundedSize round points maxPoints) group = .ok entry) ↔
      fitsInt64 (roundedLabel round points maxPoints group.1) := by
  simp only [aggregate, bucketStep, bind_eq_ok, checkInt64_ok]
  constructor
  · rintro ⟨_, _, ⟨hfits, -⟩, -⟩
    exact hfits
  · exact fun hfits => ⟨_, _, ⟨hfits, rfl⟩, rfl⟩

theorem mem_buckets {indexed : List (ℕ × MetricPoint)} {idx : ℕ} :
    (∃ group ∈ buckets indexed, group.1 = idx) ↔ ∃ entry ∈ indexed, entry.1 = idx := by
  rw [← mem_sortedKeys (fun a b : ℕ => a ≤ b) Prod.fst indexed idx, buckets, groupBy]
  simp

theorem indexed_ok {indexed : List (ℕ × MetricPoint)} : points.mapM (fun point => do .ok (← bucketIdx round true
    (minStep points) (roundedSize round points maxPoints) maxPoints point, point)) = (.ok indexed : Checked _) ↔
      (∀ p ∈ points, fitsInt64 (p.step - minStep points) ∧ 0 < maxPoints.toNat) ∧
        indexed = points.map (fun p => (roundedIdx round points maxPoints p, p)) := by
  have hpoint : ∀ p entry, (do
      .ok (← bucketIdx round true (minStep points) (roundedSize round points maxPoints) maxPoints p, p) :
        Checked (ℕ × MetricPoint)) = .ok entry ↔
        (fitsInt64 (p.step - minStep points) ∧ 0 < maxPoints.toNat) ∧
          (roundedIdx round points maxPoints p, p) = entry := by
    intro p entry
    simp only [bind_eq_ok, bucketIdx_ok, Except.ok.injEq]
    constructor
    · rintro ⟨_, ⟨hfits, hpos, rfl⟩, rfl⟩
      exact ⟨⟨hfits, hpos⟩, rfl⟩
    · rintro ⟨⟨hfits, hpos⟩, rfl⟩
      exact ⟨_, ⟨hfits, hpos, rfl⟩, rfl⟩
  constructor
  · intro h
    refine ⟨?_, ?_⟩
    · intro p hp
      obtain ⟨entry, -, hentry⟩ := mapM_exists h p hp
      exact ((hpoint p entry).mp hentry).1
    · rw [← List.map_id indexed]
      exact map_mapM (fun p entry hentry => ((hpoint p entry).mp hentry).2.symm) h
  · rintro ⟨h, rfl⟩
    apply mapM_eq_ok.mpr
    rw [List.forall₂_map_right_iff, List.forall₂_same]
    exact fun p hp => (hpoint p _).mpr ⟨h p hp, rfl⟩

theorem entries_ok (iteration : IterationOrder (ℕ × List MetricPoint)) (indexed : List (ℕ × MetricPoint)) :
    (∃ entries, (iteration.order (buckets indexed)).mapM (aggregate round true (minStep points)
      (roundedSize round points maxPoints)) = .ok entries) ↔
        ∀ entry ∈ indexed, fitsInt64 (roundedLabel round points maxPoints entry.1) := by
  constructor
  · rintro ⟨entries, h⟩ entry hentry
    obtain ⟨group, hgroup, hidx⟩ := mem_buckets.mpr ⟨entry, hentry, rfl⟩
    obtain ⟨made, -, hmade⟩ := mapM_exists h group ((iteration.perm _).mem_iff.mpr hgroup)
    exact hidx ▸ (exists_aggregate_ok group).mp ⟨made, hmade⟩
  · intro h
    apply exists_mapM
    intro group hgroup
    obtain ⟨entry, hentry, hidx⟩ := mem_buckets.mp ⟨group, (iteration.perm _).mem_iff.mp hgroup, rfl⟩
    exact (exists_aggregate_ok group).mpr (hidx ▸ h entry hentry)

theorem bucketEntries_ok_iff (iteration : IterationOrder (ℕ × List MetricPoint)) (hne : points ≠ []) :
    (∃ entries, bucketEntries round true iteration points maxPoints = .ok entries) ↔
      0 < maxPoints.toNat ∧ fitsInt64 (maxStep points - minStep points) ∧ LabelsFit round points maxPoints := by
  constructor
  · rintro ⟨entries, h⟩
    obtain ⟨range, hrange, h⟩ := bind_eq_ok.mp h
    obtain ⟨hspan, rfl⟩ := checkInt64_ok.mp hrange
    obtain ⟨indexed, hindex, h⟩ := bind_eq_ok.mp h
    obtain ⟨made, hmade, -⟩ := bind_eq_ok.mp h
    rw [← roundedSize] at hindex hmade
    obtain ⟨hpoints, rfl⟩ := indexed_ok.mp hindex
    obtain ⟨p, hp⟩ := List.exists_mem_of_ne_nil _ hne
    have hlabels := (entries_ok iteration _).mp ⟨made, hmade⟩
    exact ⟨(hpoints p hp).2, hspan, fun p hp =>
      hlabels (roundedIdx round points maxPoints p, p) (List.mem_map_of_mem hp)⟩
  · rintro ⟨hpos, hspan, hlabels⟩
    have hoffset : ∀ p ∈ points, fitsInt64 (p.step - minStep points) ∧ 0 < maxPoints.toNat := by
      intro p hp
      have hlow := (minStep_spec hne).2 p hp
      have hhigh := (maxStep_spec hne).2 p hp
      have h := hspan.2
      refine ⟨?_, hpos⟩
      constructor <;> omega
    obtain ⟨made, hmade⟩ := (entries_ok iteration
        (points.map (fun p => (roundedIdx round points maxPoints p, p)))).mpr (by
      intro entry hentry
      obtain ⟨p, hp, rfl⟩ := List.mem_map.mp hentry
      exact hlabels p hp)
    refine ⟨_, bind_eq_ok.mpr ⟨_, checkInt64_ok.mpr ⟨hspan, rfl⟩,
      bind_eq_ok.mpr ⟨_, ?_, bind_eq_ok.mpr ⟨made, hmade, rfl⟩⟩⟩⟩
    exact indexed_ok.mpr ⟨hoffset, rfl⟩

theorem toDouble_nonneg {x : ℚ} (h : 0 ≤ x) : 0 ≤ toDouble x := by
  have hlow := le_toDouble h
  linarith

theorem toDouble_zero : toDouble 0 = 0 := by
  have h := toDouble_intCast 0 (by norm_num)
  exact_mod_cast h

/-- A part of a range, calculated with doubles, stays within it while the parts are
not many more than a double can count. -/
theorem toDouble_part {range n idx : ℕ} (hidx : idx < n) (hn : n ≤ 2 ^ 51) :
    toDouble (toDouble idx * toDouble (toDouble range / toDouble n)) ≤ range := by
  have hnpos : (0 : ℚ) < n := by exact_mod_cast (by omega : 0 < n)
  have hn' : (n : ℚ) ≤ 2 ^ 51 := by exact_mod_cast hn
  have hidx' : (idx : ℚ) ≤ n - 1 := by
    have h : (idx : ℚ) + 1 ≤ n := by exact_mod_cast hidx
    linarith
  have hrange : (0 : ℚ) ≤ range := Nat.cast_nonneg range
  rw [toDouble_natCast n (by omega), toDouble_natCast idx (by omega)]
  have hdouble : toDouble range ≤ range * (1 + 1 / 2 ^ 53) := by
    have h := toDouble_le hrange
    linarith
  have hsize : toDouble (toDouble range / n) ≤ range / n * (1 + 1 / 2 ^ 53) ^ 2 := by
    have hquot : toDouble range / n ≤ range / n * (1 + 1 / 2 ^ 53) := by
      rw [div_mul_eq_mul_div]
      exact div_le_div_of_nonneg_right hdouble hnpos.le
    have h := toDouble_le (div_nonneg (toDouble_nonneg hrange) hnpos.le)
    calc toDouble (toDouble range / n) ≤ toDouble range / n * (1 + 1 / 2 ^ 53) := by linarith
      _ ≤ range / n * (1 + 1 / 2 ^ 53) * (1 + 1 / 2 ^ 53) := mul_le_mul_of_nonneg_right hquot (by norm_num)
      _ = range / n * (1 + 1 / 2 ^ 53) ^ 2 := by ring
  have hsize0 : 0 ≤ toDouble (toDouble range / n) :=
    toDouble_nonneg (div_nonneg (toDouble_nonneg hrange) hnpos.le)
  have hproduct := toDouble_le (mul_nonneg (Nat.cast_nonneg idx) hsize0)
  have hpart : (range : ℚ) / n * ((n - 1) * (1 + 1 / 2 ^ 53) ^ 3) ≤ range := by
    have hfew : ((n : ℚ) - 1) * (1 + 1 / 2 ^ 53) ^ 3 ≤ n := by
      have hcube : (1 + 1 / 2 ^ 53 : ℚ) ^ 3 ≤ 1 + 1 / 2 ^ 51 := by norm_num
      have hcube' : (1 : ℚ) ≤ (1 + 1 / 2 ^ 53) ^ 3 := by norm_num
      have hloss : (n : ℚ) * (1 / 2 ^ 51) ≤ 1 := by
        rw [mul_one_div, div_le_one (by norm_num)]
        exact hn'
      have hgrown : (n : ℚ) * (1 + 1 / 2 ^ 53) ^ 3 ≤ n * (1 + 1 / 2 ^ 51) :=
        mul_le_mul_of_nonneg_left hcube hnpos.le
      linarith
    calc (range : ℚ) / n * ((n - 1) * (1 + 1 / 2 ^ 53) ^ 3) ≤ range / n * n :=
          mul_le_mul_of_nonneg_left hfew (div_nonneg hrange hnpos.le)
      _ = range := div_mul_cancel₀ _ hnpos.ne'
  calc toDouble (idx * toDouble (toDouble range / n)) ≤ idx * toDouble (toDouble range / n) * (1 + 1 / 2 ^ 53) := by
        linarith
    _ ≤ (n - 1) * (range / n * (1 + 1 / 2 ^ 53) ^ 2) * (1 + 1 / 2 ^ 53) := by
        apply mul_le_mul_of_nonneg_right _ (by norm_num)
        exact mul_le_mul hidx' hsize hsize0 (le_trans (Nat.cast_nonneg idx) hidx')
    _ = range / n * ((n - 1) * (1 + 1 / 2 ^ 53) ^ 3) := by ring
    _ ≤ range := hpart

theorem labelsFit_of_few (hne : points ≠ []) (hpos : 0 < maxPoints.toNat) (hfew : maxPoints.toNat ≤ 2 ^ 51) :
    LabelsFit toDouble points maxPoints := by
  intro p hp
  obtain ⟨⟨q, hq, hlo⟩, hlow⟩ := minStep_spec hne
  obtain ⟨⟨r, hr, hhi⟩, hhigh⟩ := maxStep_spec hne
  have hbounds : minStep points ≤ p.step ∧ p.step ≤ maxStep points := ⟨hlow p hp, hhigh p hp⟩
  have hidx : roundedIdx toDouble points maxPoints p < maxPoints.toNat := by
    rw [roundedIdx]
    omega
  obtain ⟨range, hrange⟩ : ∃ range : ℕ, max (maxStep points - minStep points) 1 = range :=
    ⟨(max (maxStep points - minStep points) 1).toNat, by omega⟩
  have hoffset : 0 ≤ toInt64 (toDouble (toDouble (roundedIdx toDouble points maxPoints p) *
      roundedSize toDouble points maxPoints)) ∧
      toInt64 (toDouble (toDouble (roundedIdx toDouble points maxPoints p) *
        roundedSize toDouble points maxPoints)) ≤ maxStep points - minStep points := by
    have hnonneg : 0 ≤ toDouble (toDouble (roundedIdx toDouble points maxPoints p) *
        roundedSize toDouble points maxPoints) := by
      rw [roundedSize, bucketSize, hrange]
      apply toDouble_nonneg
      apply mul_nonneg (toDouble_nonneg (Nat.cast_nonneg _))
      apply toDouble_nonneg
      exact div_nonneg (toDouble_nonneg (by positivity)) (toDouble_nonneg (Nat.cast_nonneg _))
    rw [toInt64, if_pos hnonneg]
    refine ⟨le_min (Int.floor_nonneg.mpr hnonneg) (by norm_num), (min_le_left _ _).trans ?_⟩
    by_cases hflat : maxStep points - minStep points = 0
    · have hzero : roundedIdx toDouble points maxPoints p = 0 := by
        have hstep : p.step - minStep points = 0 := by omega
        rw [roundedIdx, hstep, Int.cast_zero, toDouble_zero, zero_div, toDouble_zero, toUsize]
        simp
      rw [hzero, Nat.cast_zero, toDouble_zero, zero_mul, toDouble_zero, hflat, Int.floor_zero]
    · have hpart := @toDouble_part range _ _ hidx hfew
      rw [roundedSize, bucketSize, hrange, Int.cast_natCast]
      have hfloor := Int.floor_le_floor hpart
      rw [Int.floor_natCast] at hfloor
      omega
  have hq' := q.step_fits.1
  have hr' := r.step_fits.2
  rw [roundedLabel]
  constructor <;> omega

theorem downsamplePoints_ok_iff (iteration : IterationOrder (ℕ × List MetricPoint)) (points : List MetricPoint)
    (maxPoints : UInt64) :
    (∃ result, downsamplePoints toDouble true iteration points maxPoints = .ok result) ↔
      points.length ≤ maxPoints.toNat ∨ 0 < maxPoints.toNat ∧ fitsInt64 (maxStep points - minStep points) ∧
        (2 ^ 51 < maxPoints.toNat → LabelsFit toDouble points maxPoints) := by
  by_cases hnil : points = []
  · rw [hnil]
    exact iff_of_true ⟨[], rfl⟩ (.inl (Nat.zero_le _))
  rw [downsamplePoints, if_neg (by simpa using hnil)]
  by_cases hfew : points.length ≤ maxPoints.toNat
  · rw [if_pos hfew]
    exact iff_of_true ⟨_, rfl⟩ (.inl hfew)
  · rw [if_neg hfew]
    have hentries := @bucketEntries_ok_iff toDouble points maxPoints iteration hnil
    constructor
    · rintro ⟨result, h⟩
      obtain ⟨entries, hok, -⟩ := bind_eq_ok.mp h
      obtain ⟨hpos, hspan, hlabels⟩ := hentries.mp ⟨entries, hok⟩
      exact .inr ⟨hpos, hspan, fun _ => hlabels⟩
    · intro h
      obtain ⟨hpos, hspan, hlabels⟩ := h.resolve_left hfew
      have hlabels : LabelsFit toDouble points maxPoints := by
        rcases Nat.lt_or_ge (2 ^ 51) maxPoints.toNat with hmany | hsmall
        · exact hlabels hmany
        · exact labelsFit_of_few hnil hpos hsmall
      obtain ⟨entries, hok⟩ := hentries.mpr ⟨hpos, hspan, hlabels⟩
      exact ⟨_, bind_eq_ok.mpr ⟨entries, hok, rfl⟩⟩

section Query

open MetricQuery

variable {rows : List MetricRow} {runId name : String} {startStep endStep : Option ℤ}

theorem aggregate_no_overflow (group : Value × List MetricRow) :
    MetricQuery.aggregate group ≠ .error .overflow := by
  obtain ⟨value, rows⟩ := group
  intro h
  cases value with
  | int i => cases h
  | null => cases h
  | real x => cases h

theorem getSeries_overflow_iff : getSeries true rows runId maxPoints startStep endStep name = .error .overflow ↔
    maxPoints.toNat < (selectRows rows runId startStep endStep name).length ∧
      ¬ fitsInt64 (MetricQuery.maxStep (selectRows rows runId startStep endStep name) -
        MetricQuery.minStep (selectRows rows runId startStep endStep name)) := by
  by_cases hfew : (selectRows rows runId startStep endStep name).length ≤ maxPoints.toNat
  · rw [getSeries_few hfew]
    exact iff_of_false (fun h => by cases h) (fun h => absurd h.1 (not_lt.mpr hfew))
  · rw [getSeries]
    simp only [if_neg hfew]
    by_cases hspan : fitsInt64 (MetricQuery.maxStep (selectRows rows runId startStep endStep name) -
        MetricQuery.minStep (selectRows rows runId startStep endStep name))
    · refine iff_of_false ?_ (fun h => h.2 hspan)
      intro h
      cases hmade : downsample true maxPoints (selectRows rows runId startStep endStep name) with
      | ok points =>
          rw [hmade] at h
          cases h
      | error e =>
          rw [hmade] at h
          have herror : e = .overflow := Except.error.inj h
          rw [herror] at hmade
          rcases bind_eq_error.mp hmade with hrange | ⟨range, -, hrest⟩
          · rw [stepRange, if_pos hspan] at hrange
            cases hrange
          · obtain ⟨group, -, hgroup⟩ := mapM_error hrest
            exact aggregate_no_overflow group hgroup
    · refine iff_of_true ?_ ⟨not_le.mp hfew, hspan⟩
      have hfail : downsample true maxPoints (selectRows rows runId startStep endStep name) =
          .error .overflow := by
        rw [downsample, stepRange, if_neg hspan]
        rfl
      rw [hfail]
      rfl

/-- No request about stored points overflows just when no two points of one metric are too far apart. -/
theorem getMetrics_overflow_iff (rows : List MetricRow) :
    (∀ (runId : String) (names : List String) (maxPoints : UInt64) (startStep endStep : Option ℤ),
        getMetrics true rows runId names maxPoints startStep endStep ≠ .error .overflow) ↔
      ∀ r ∈ rows, ∀ s ∈ rows, r.runId = s.runId → r.name = s.name → fitsInt64 (r.step - s.step) := by
  constructor
  · intro h r hr s hs hrun hname
    by_contra hfar
    have hmem : ∀ t ∈ rows, t.runId = r.runId → t.name = r.name →
        t ∈ selectRows rows r.runId none none r.name := by
      intro t ht hid hmetric
      simp [selectRows, ht, hid, hmetric, inRange]
    have hr' := hmem r hr rfl rfl
    have hs' := hmem s hs hrun.symm hname.symm
    have hspan : ¬ fitsInt64 (MetricQuery.maxStep (selectRows rows r.runId none none r.name) -
        MetricQuery.minStep (selectRows rows r.runId none none r.name)) := by
      intro hfits
      apply hfar
      have hlow := MetricQuery.minStep_le hr'
      have hlow' := MetricQuery.minStep_le hs'
      have hhigh := MetricQuery.le_maxStep hr'
      have hhigh' := MetricQuery.le_maxStep hs'
      have hwide := hfits.2
      constructor <;> omega
    have hseries := (@getSeries_overflow_iff 0 rows r.runId r.name none none).mpr
      ⟨List.length_pos_iff.mpr (List.ne_nil_of_mem hr'), hspan⟩
    apply h r.runId [r.name] 0 none none
    rw [getMetrics, namesToQuery, if_neg (by simp), List.mapM_cons, hseries]
    rfl
  · intro h runId names maxPoints startStep endStep hfail
    obtain ⟨name, -, hseries⟩ := mapM_error hfail
    obtain ⟨hmany, hspan⟩ := getSeries_overflow_iff.mp hseries
    have hne : selectRows rows runId startStep endStep name ≠ [] := List.ne_nil_of_length_pos (by omega)
    obtain ⟨r, hr, hlo⟩ := exists_minStep hne
    obtain ⟨s, hs, hhi⟩ := exists_maxStep hne
    have hread : ∀ t ∈ selectRows rows runId startStep endStep name, t ∈ rows ∧ t.runId = runId ∧
        t.name = name := by
      intro t ht
      rw [selectRows, List.mem_filter] at ht
      simp only [Bool.and_eq_true, beq_iff_eq] at ht
      exact ⟨ht.1, ht.2.1.1, ht.2.1.2⟩
    obtain ⟨hr, hrun, hname⟩ := hread r hr
    obtain ⟨hs, hrun', hname'⟩ := hread s hs
    apply hspan
    rw [← hlo, ← hhi]
    exact h s hs r hr (hrun'.trans hrun.symm) (hname'.trans hname.symm)

end Query

/-- What the two ways to query metrics calculate with integers stays within their types just
when no steps of a metric are too far apart and, where points are kept in memory, buckets are asked for. -/
theorem metrics_overflow_iff (iteration : IterationOrder (ℕ × List MetricPoint)) (points : List MetricPoint)
    (maxPoints : UInt64) (rows : List MetricQuery.MetricRow) :
    ((∃ result, downsamplePoints toDouble true iteration points maxPoints = .ok result) ↔
        points.length ≤ maxPoints.toNat ∨ 0 < maxPoints.toNat ∧ fitsInt64 (maxStep points - minStep points) ∧
          (2 ^ 51 < maxPoints.toNat → LabelsFit toDouble points maxPoints)) ∧
      ((∀ (runId : String) (names : List String) (bins : UInt64) (startStep endStep : Option ℤ),
          MetricQuery.getMetrics true rows runId names bins startStep endStep ≠ .error .overflow) ↔
        ∀ r ∈ rows, ∀ s ∈ rows, r.runId = s.runId → r.name = s.name → fitsInt64 (r.step - s.step)) :=
  ⟨downsamplePoints_ok_iff iteration points maxPoints, getMetrics_overflow_iff rows⟩

theorem extreme_steps_overflow :
    ¬ ((∀ (iteration : IterationOrder (ℕ × List MetricPoint)) (points : List MetricPoint) (maxPoints : UInt64),
        ∃ result, downsamplePoints toDouble true iteration points maxPoints = .ok result) ∧
      ∀ (rows : List MetricQuery.MetricRow) (runId : String) (names : List String) (maxPoints : UInt64)
        (startStep endStep : Option ℤ),
        MetricQuery.getMetrics true rows runId names maxPoints startStep endStep ≠ .error .overflow) := by
  rintro ⟨-, h⟩
  exact h [MetricQuery.lossRow (-2 ^ 63), MetricQuery.lossRow (2 ^ 63 - 1)] "r" ["loss"] 1 none none rfl

end MLRunX.MetricOverflow
