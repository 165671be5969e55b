import Mathlib.Data.List.DropRight
import MLRunX.EqualityFilters
import MLRunX.FilterComplements
import MLRunX.FixedWidth

namespace MLRunX.CreatedAtFilters

open Conditions EqualityFilters FixedWidth Http RunFilter RunListing RunTables Text

/-- A time in UTC. A leap second is counted with the second before it. -/
structure DateTime where
  year : ℤ
  month : ℕ
  day : ℕ
  hour : ℕ
  minute : ℕ
  second : ℕ
  nanosecond : ℕ
  month_le : month ≤ 12
  day_le : day ≤ 31
  hour_lt : hour < 24
  minute_lt : minute < 60
  second_lt : second < 60
  nanosecond_lt : nanosecond < 2 * 10 ^ 9
  leap : 10 ^ 9 ≤ nanosecond → second = 59

def DateTime.clock (t : DateTime) : List ℕ := [t.month, t.day, t.hour, t.minute, t.second, t.nanosecond]

def DateTime.before (t u : DateTime) : Prop := t.year < u.year ∨ t.year = u.year ∧ t.clock < u.clock

def DateTime.same (t u : DateTime) : Prop := t.year = u.year ∧ t.clock = u.clock

def DateTime.shown (t : DateTime) : List ℕ := [t.month, t.day, t.hour, t.minute, t.second + t.nanosecond / 10 ^ 9]

def columns : Columns := [(['-'], 2), (['-'], 2), ([' '], 2), ([':'], 2), ([':'], 2)]

def yearText (year : ℤ) : List Char :=
  if 0 ≤ year ∧ year ≤ 9999 then digits 4 year.toNat
  else (if year < 0 then '-' else '+') :: (Nat.toDigits 10 year.natAbs).leftpad 4 '0'

def DateTime.text (t : DateTime) : String := String.ofList (yearText t.year ++ write columns t.shown)

/-- The library of times: its readers, which give the time in UTC, and its format. -/
structure ChronoLibrary where
  parseFromRfc3339 : String → Option DateTime
  parseFromStr : String → Option DateTime
  format : DateTime → String
  format_eq : ∀ t, format t = t.text

def ChronoLibrary.chrono (lib : ChronoLibrary) : Chrono where
  parseFromRfc3339 := fun s => (lib.parseFromRfc3339 s).map lib.format
  parseFromStr := fun s => (lib.parseFromStr s).map lib.format

def ChronoLibrary.denotes (lib : ChronoLibrary) (raw : String) : Option DateTime :=
  if trim raw = "" then none
  else (lib.parseFromRfc3339 (trim raw)).orElse (fun _ => lib.parseFromStr (trim raw))

structure Stored where
  time : DateTime
  whole : time.nanosecond = 0
  year_ge : 1970 ≤ time.year
  year_le : time.year ≤ 9999

/-- What compares the time a run was created: a comparison of the filter expression,
or a bound of the listing. -/
inductive TimeFilter
  | expression (op : Comparison)
  | createdAfter
  | createdBefore
  deriving DecidableEq, Repr

def operatorOf : Comparison → RunFilterOperator
  | .eq => .eq
  | .ne => .notEq
  | .lt => .lt
  | .le => .lte
  | .gt => .gt
  | .ge => .gte

def TimeFilter.comparison : TimeFilter → Comparison
  | .expression op => op
  | .createdAfter => .ge
  | .createdBefore => .le

def TimeFilter.condition (chrono : Chrono) (raw : String) : TimeFilter → Option RunCondition
  | .expression op => (buildRunFilterCondition chrono "created_at" (operatorText (operatorOf op)) raw).toOption.map
      appendRunFilterConditionSql
  | .createdAfter => (normalizeCreatedAtFilter chrono raw "created_after").toOption.map (compareColumn .createdAt .ge)
  | .createdBefore => (normalizeCreatedAtFilter chrono raw "created_before").toOption.map (compareColumn .createdAt .le)

def Comparison.ofTimes (t u : DateTime) : Comparison → Prop
  | .eq => t.same u
  | .ne => ¬ t.same u
  | .lt => t.before u
  | .le => ¬ u.before t
  | .gt => u.before t
  | .ge => ¬ t.before u

def Selected (lib : ChronoLibrary) (filter : TimeFilter) (raw : String) (db : Database) (row : JoinedRow) : Prop :=
  ∃ c, filter.condition lib.chrono raw = some c ∧ c.selects (RunAtom.truth db row) = true

/-- The second that is stored has begun before the other time, and is not over by it. -/
def Within (created t : DateTime) : Prop := created.year = t.year ∧ created.shown = t.shown ∧ t.nanosecond ≠ 0

/-- The text has its fraction of a second lost, or a sign in front of its year. -/
def Blurred (created t : DateTime) (op : Comparison) : Prop :=
  Within created t ∧ op ∈ [.eq, .ne, .lt, .ge] ∨ 9999 < t.year ∧ op ∈ [.lt, .le, .gt, .ge]

variable {lib : ChronoLibrary} {raw : String} {db : Database} {row : JoinedRow}

/-! The condition that a text makes. -/

theorem trim_trim (s : String) : trim (trim s) = trim s := by
  have hchars : ∀ cs, trimChars cs = (cs.dropWhile isWhitespace).rdropWhile isWhitespace := fun _ => rfl
  rw [trim, trim, String.toList_ofList, hchars s.toList]
  have hfront := List.rdropWhile_prefix isWhitespace (s.toList.dropWhile isWhitespace)
  have hhead := List.dropWhile_eq_self_iff.mp (List.dropWhile_idempotent isWhitespace s.toList)
  generalize s.toList.dropWhile isWhitespace = cs at hfront hhead
  have hfront : (cs.rdropWhile isWhitespace).dropWhile isWhitespace = cs.rdropWhile isWhitespace := by
    apply List.dropWhile_eq_self_iff.mpr
    intro hlength
    rw [hfront.getElem hlength]
    exact hhead (hlength.trans_le hfront.length_le)
  rw [hchars, hfront, List.rdropWhile_idempotent]

theorem normalize_eq {t : DateTime} (h : lib.denotes raw = some t) (fieldName : String) :
    normalizeCreatedAtFilter lib.chrono raw fieldName = .ok t.text := by
  rw [ChronoLibrary.denotes] at h
  split at h
  · cases h
  · rename_i hne
    have hparsed : (lib.chrono.parseFromRfc3339 (trim raw)).orElse (fun _ => lib.chrono.parseFromStr (trim raw)) =
        some t.text := by
      rw [← lib.format_eq]
      cases hfirst : lib.parseFromRfc3339 (trim raw) with
      | some u =>
          rw [hfirst, Option.orElse_some, Option.some.injEq] at h
          simp [ChronoLibrary.chrono, hfirst, h]
      | none =>
          rw [hfirst, Option.orElse_none] at h
          simp [ChronoLibrary.chrono, hfirst, h]
    simp only [normalizeCreatedAtFilter, if_neg hne, hparsed]

theorem condition_eq {t : DateTime} (h : lib.denotes raw = some t) (filter : TimeFilter) :
    filter.condition lib.chrono raw = some (compareColumn .createdAt filter.comparison t.text) := by
  cases filter with
  | createdAfter => rw [TimeFilter.condition, normalize_eq h]; rfl
  | createdBefore => rw [TimeFilter.condition, normalize_eq h]; rfl
  | expression op =>
      have hne : trim raw ≠ "" := by
        intro hempty
        rw [ChronoLibrary.denotes, if_pos hempty] at h
        cases h
      have htrimmed : lib.denotes (trim raw) = some t := by
        rw [← h, ChronoLibrary.denotes, ChronoLibrary.denotes, trim_trim]
      have hfield : toAsciiLowercase (trim "created_at") = "created_at" := by decide +kernel
      rw [TimeFilter.condition, buildRunFilterCondition_eq lib.chrono _ hfield hne]
      have hop : operatorOf op ≠ .contains := by cases op <;> decide
      simp only [createdAtCondition, if_neg hop, normalize_eq htrimmed]
      cases op <;> rfl

/-! Texts of times are ordered as the times, up to fractions of a second. -/

theorem fits_shown (t : DateTime) : Fits columns t.shown := by
  have hmonth := t.month_le
  have hday := t.day_le
  have hhour := t.hour_lt
  have hminute := t.minute_lt
  have hsecond := t.second_lt
  have hnano := t.nanosecond_lt
  refine .cons ?_ (.cons ?_ (.cons ?_ (.cons ?_ (.cons ?_ .nil)))) <;> dsimp only <;> omega

theorem yearText_eq {year : ℤ} (h : 0 ≤ year ∧ year ≤ 9999) : yearText year = digits 4 year.toNat := if_pos h

theorem text_lt {t u : DateTime} (ht : 0 ≤ t.year ∧ t.year ≤ 9999) (hu : 0 ≤ u.year ∧ u.year ≤ 9999) :
    t.text < u.text ↔ t.year < u.year ∨ t.year = u.year ∧ t.shown < u.shown := by
  rw [String.lt_iff, DateTime.text, DateTime.text, String.toList_ofList, String.toList_ofList, yearText_eq ht,
    yearText_eq hu, append_lt_append (by rw [length_digits, length_digits]), digits_lt (by omega) (by omega),
    digits_inj (by omega) (by omega), write_lt (fits_shown t) (fits_shown u)]
  have hlt : t.year.toNat < u.year.toNat ↔ t.year < u.year := by omega
  have heq : t.year.toNat = u.year.toNat ↔ t.year = u.year := by omega
  rw [hlt, heq]

theorem text_inj {t u : DateTime} (ht : 0 ≤ t.year ∧ t.year ≤ 9999) (hu : 0 ≤ u.year ∧ u.year ≤ 9999) :
    t.text = u.text ↔ t.year = u.year ∧ t.shown = u.shown := by
  rw [DateTime.text, DateTime.text, String.ofList_inj, yearText_eq ht, yearText_eq hu,
    append_eq_append (by rw [length_digits, length_digits]), digits_inj (by omega) (by omega),
    write_inj (fits_shown t) (fits_shown u)]
  have h : t.year.toNat = u.year.toNat ↔ t.year = u.year := by omega
  rw [h]

theorem text_lt_of_sign {t : DateTime} (created : Stored) (ht : ¬ (0 ≤ t.year ∧ t.year ≤ 9999)) :
    t.text < created.time.text := by
  have hge := created.year_ge
  have hyear : 0 ≤ created.time.year ∧ created.time.year ≤ 9999 := ⟨by omega, created.year_le⟩
  have hdigit : ∀ d < 10, '-' < Nat.digitChar d ∧ '+' < Nat.digitChar d := by decide
  rw [String.lt_iff, DateTime.text, DateTime.text, String.toList_ofList, String.toList_ofList, yearText_eq hyear,
    yearText, if_neg ht]
  apply List.Lex.rel
  split
  · exact (hdigit _ (Nat.mod_lt _ (by decide))).1
  · exact (hdigit _ (Nat.mod_lt _ (by decide))).2

theorem clock_lt (created : Stored) (t : DateTime) :
    created.time.clock < t.clock ↔
      created.time.shown < t.shown ∨ created.time.shown = t.shown ∧ t.nanosecond ≠ 0 := by
  have hwhole := created.whole
  have hsecond := created.time.second_lt
  have hleap := t.leap
  have hnano := t.nanosecond_lt
  simp only [DateTime.clock, DateTime.shown, List.cons_lt_cons_iff, List.cons.injEq, hwhole, List.lt_irrefl,
    and_false, or_false, and_true, ne_eq]
  omega

theorem lt_clock (created : Stored) (t : DateTime) :
    t.clock < created.time.clock ↔ t.shown < created.time.shown := by
  have hwhole := created.whole
  have hsecond := created.time.second_lt
  have hleap := t.leap
  have hnano := t.nanosecond_lt
  simp only [DateTime.clock, DateTime.shown, List.cons_lt_cons_iff, hwhole, List.lt_irrefl, and_false, or_false]
  omega

theorem same_iff (created : Stored) (t : DateTime) :
    created.time.same t ↔ created.time.year = t.year ∧ created.time.shown = t.shown ∧ t.nanosecond = 0 := by
  have hwhole := created.whole
  have hsecond := created.time.second_lt
  have hleap := t.leap
  have hnano := t.nanosecond_lt
  simp only [DateTime.same, DateTime.clock, DateTime.shown, List.cons.injEq, hwhole, and_true]
  omega

theorem selected_iff {t : DateTime} (h : lib.denotes raw = some t) {filter : TimeFilter} :
    Selected lib filter raw db row ↔ filter.comparison.holds row.times.createdAt t.text = true := by
  rw [Selected, condition_eq h]
  simp only [Option.some.injEq, exists_eq_left', compareColumn, selects_atom, RunAtom.truth, Test.truth,
    RunColumn.read, Option.map_some]

theorem holds_iff_of_sign {t : DateTime} (created : Stored) (ht : ¬ (0 ≤ t.year ∧ t.year ≤ 9999))
    (op : Comparison) :
    (op.holds created.time.text t.text = true ↔ Comparison.ofTimes created.time t op) ↔
      ¬ (9999 < t.year ∧ op ∈ [.lt, .le, .gt, .ge]) := by
  have hlt := text_lt_of_sign created ht
  have hge := created.year_ge
  have hle := created.year_le
  have hsame : ¬ created.time.same t := fun h => by have := h.1; omega
  have hbefore : created.time.before t ↔ 9999 < t.year := by
    rw [DateTime.before]
    omega
  have hafter : t.before created.time ↔ ¬ 9999 < t.year := by
    rw [DateTime.before]
    omega
  cases op <;> simp [Comparison.holds, Comparison.ofTimes, hlt, hlt.ne', hlt.not_gt, hsame, hbefore, hafter]

theorem holds_iff_of_four {t : DateTime} (created : Stored) (ht : 0 ≤ t.year ∧ t.year ≤ 9999) (op : Comparison) :
    (op.holds created.time.text t.text = true ↔ Comparison.ofTimes created.time t op) ↔
      ¬ (Within created.time t ∧ op ∈ [.eq, .ne, .lt, .ge]) := by
  have hge := created.year_ge
  have hle := created.year_le
  have hyear : 0 ≤ created.time.year ∧ created.time.year ≤ 9999 := ⟨by omega, hle⟩
  have heq := text_inj hyear ht
  have hlt := text_lt hyear ht
  have hgt := text_lt ht hyear
  have hsame := same_iff created t
  have hbefore : created.time.before t ↔ created.time.text < t.text ∨ Within created.time t := by
    rw [DateTime.before, clock_lt, hlt, Within, and_or_left, or_assoc]
  have hafter : t.before created.time ↔ t.text < created.time.text := by
    rw [DateTime.before, lt_clock, hgt]
  have hwithin : Within created.time t → created.time.text = t.text := fun h => heq.mpr ⟨h.1, h.2.1⟩
  by_cases hin : Within created.time t
  · have hnot : ¬ created.time.same t := fun h => hin.2.2 (hsame.mp h).2.2
    cases op <;> simp [Comparison.holds, Comparison.ofTimes, hin, hwithin hin, hnot, hbefore, hafter]
  · have hsame : created.time.same t ↔ created.time.text = t.text := by
      rw [hsame, heq]
      constructor
      · exact fun h => ⟨h.1, h.2.1⟩
      · intro h
        by_contra hnano
        exact hin ⟨h.1, h.2, fun hzero => hnano ⟨h.1, h.2, hzero⟩⟩
    cases op <;> simp [Comparison.holds, Comparison.ofTimes, hin, hsame, hbefore, hafter]

/-- A filter compares instants unless its time has a fraction of the second that is
stored, or a year with more than four digits. -/
theorem compares_instants_iff (lib : ChronoLibrary) (filter : TimeFilter) (raw : String) (db : Database)
    (row : JoinedRow)
    (created : Stored) (t : DateTime) (hrow : row.times.createdAt = created.time.text) (ht : lib.denotes raw = some t) :
    (Selected lib filter raw db row ↔ Comparison.ofTimes created.time t filter.comparison) ↔
      ¬ Blurred created.time t filter.comparison := by
  rw [selected_iff ht, hrow, Blurred]
  by_cases hyear : 0 ≤ t.year ∧ t.year ≤ 9999
  · have hfew : ¬ 9999 < t.year := by omega
    rw [holds_iff_of_four created hyear]
    simp [hfew]
  · rw [holds_iff_of_sign created hyear]
    have hout : ¬ Within created.time t := by
      intro h
      have hge := created.year_ge
      have hle := created.year_le
      have heq := h.1
      omega
    simp [hout]

def libraryOf (text : String) (t : DateTime) : ChronoLibrary where
  parseFromRfc3339 := fun s => if s = text then some t else none
  parseFromStr := fun _ => none
  format := DateTime.text
  format_eq := fun _ => rfl

theorem libraryOf_denotes {text : String} (t : DateTime) (hne : text ≠ "") (htrim : trim text = text) :
    (libraryOf text t).denotes text = some t := by
  rw [ChronoLibrary.denotes, htrim, if_neg hne]
  simp [libraryOf]

theorem exists_newYear (nanosecond : ℕ) (h : nanosecond < 10 ^ 9) :
    ∃ t : DateTime, t.year = 2026 ∧ t.nanosecond = nanosecond ∧ t.shown = [1, 1, 0, 0, 0] := by
  refine ⟨⟨2026, 1, 1, 0, 0, 0, nanosecond, ?_, ?_, ?_, ?_, ?_, ?_, ?_⟩, rfl, rfl, ?_⟩ <;> try omega
  rw [DateTime.shown, Nat.div_eq_of_lt h]

def rowAt (createdAt : String) : JoinedRow where
  run := ⟨"r", "p", none, "running", none, none, 0, 0⟩
  times := ⟨createdAt, createdAt, none⟩
  project := none

theorem compares_newYear : ∃ (created : Stored) (t : DateTime), ¬ Blurred created.time t .ge ∧
    (Selected (libraryOf "2026-01-01T00:00:00Z" t) .createdAfter "2026-01-01T00:00:00Z" .empty
      (rowAt created.time.text) ↔ Comparison.ofTimes created.time t .ge) := by
  obtain ⟨t, hyear, hnano, hshown⟩ := exists_newYear 0 (by decide)
  let created : Stored := ⟨t, hnano, by omega, by omega⟩
  have hsharp : ¬ Blurred created.time t .ge := by
    rintro (⟨h, -⟩ | ⟨h, -⟩)
    · exact h.2.2 hnano
    · omega
  exact ⟨created, t, hsharp, (compares_instants_iff _ .createdAfter "2026-01-01T00:00:00Z" .empty _ created t rfl
    (libraryOf_denotes t (by decide) (by decide +kernel))).mpr hsharp⟩

theorem half_second_lost : ¬ ∀ (lib : ChronoLibrary) (filter : TimeFilter) (raw : String) (db : Database)
    (row : JoinedRow) (created : Stored) (t : DateTime), row.times.createdAt = created.time.text →
    lib.denotes raw = some t →
    (Selected lib filter raw db row ↔ Comparison.ofTimes created.time t filter.comparison) := by
  intro h
  obtain ⟨t, hyear, hnano, hshown⟩ := exists_newYear 500000000 (by decide)
  obtain ⟨u, huyear, hunano, hushown⟩ := exists_newYear 0 (by decide)
  let created : Stored := ⟨u, hunano, by omega, by omega⟩
  have hdenotes := @libraryOf_denotes "2026-01-01T00:00:00.5Z" t (by decide) (by decide +kernel)
  have hselected := h _ .createdAfter "2026-01-01T00:00:00.5Z" .empty (rowAt created.time.text) created t rfl hdenotes
  rw [selected_iff hdenotes] at hselected
  have hsharp := (holds_iff_of_four created (by omega) .ge).mp hselected
  exact hsharp ⟨⟨huyear.trans hyear.symm, hushown.trans hshown.symm, by omega⟩, by decide⟩

end MLRunX.CreatedAtFilters
