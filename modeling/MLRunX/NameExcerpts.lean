import MLRunX.Cardinality
import MLRunX.IngestRequest

namespace MLRunX.NameExcerpts

open Cardinality Commands IngestRequest RunTables Text

def BoundaryAt (n : ℕ) (text : String) : Prop :=
  ∃ front back, text.toList = front ++ back ∧ (front.map Char.utf8Size).sum = n

/-- The first 32 bytes of a text that is longer than allowed end at a character, if it has as many. -/
def Citable (maxLength : ℕ) (text : String) : Prop :=
  maxLength < byteLength text → BoundaryAt (min 32 (byteLength text)) text

variable {cs : List Char} {n maxLength : ℕ} {text : String}

theorem takeBytes_isSome_iff :
    (takeBytes cs n).isSome = true ↔ ∃ front back, cs = front ++ back ∧ (front.map Char.utf8Size).sum = n := by
  induction cs generalizing n with
  | nil =>
      cases n with
      | zero => exact ⟨fun _ => ⟨[], [], rfl, rfl⟩, fun _ => rfl⟩
      | succ n =>
          constructor
          · intro h
            cases h
          · rintro ⟨front, back, hsplit, hsum⟩
            obtain ⟨rfl, -⟩ := List.append_eq_nil_iff.1 hsplit.symm
            cases hsum
  | cons c cs ih =>
      cases n with
      | zero => exact ⟨fun _ => ⟨[], c :: cs, rfl, rfl⟩, fun _ => rfl⟩
      | succ n =>
          rw [takeBytes]
          constructor
          · intro h
            split at h
            · rename_i hsize
              rw [Option.isSome_map] at h
              obtain ⟨front, back, rfl, hsum⟩ := ih.1 h
              refine ⟨c :: front, back, rfl, ?_⟩
              rw [List.map_cons, List.sum_cons, hsum]
              omega
            · cases h
          · rintro ⟨front, back, hsplit, hsum⟩
            cases front with
            | nil => cases hsum
            | cons d front =>
                obtain ⟨rfl, rfl⟩ := List.cons.inj hsplit
                rw [List.map_cons, List.sum_cons] at hsum
                rw [if_pos (by omega), Option.isSome_map]
                exact ih.2 ⟨front, back, rfl, by omega⟩

theorem quotable_iff : Quotable maxLength text ↔ Citable maxLength text := by
  have h : (excerpt text).isSome = true ↔ BoundaryAt (min 32 (byteLength text)) text := by
    rw [excerpt, slicePrefix, Option.isSome_map]
    exact takeBytes_isSome_iff
  exact imp_congr_right fun _ => h

variable {config : LimitsConfig} {projectId runId : String} {tags : List (String × String)} {names : List String}

theorem quotable_of_validateTag {tag : String × String} {p p' : Progress} {u : Unit}
    (h : Cardinality.validateTag config projectId runId tag p = (.ok u, p')) :
    Quotable config.maxTagKeyLength tag.1 := by
  intro hlong
  rw [Cardinality.validateTag, if_pos hlong] at h
  cases hexcerpt : excerpt tag.1 with
  | none =>
      rw [hexcerpt] at h
      cases (Prod.mk.inj h).1
  | some start => rfl

theorem quotable_of_validateMetricName {name : String} {p p' : Progress} {u : Unit}
    (h : validateMetricName config runId name p = (.ok u, p')) : Quotable config.maxMetricNameLength name := by
  intro hlong
  rw [validateMetricName, if_pos hlong] at h
  cases hexcerpt : excerpt name with
  | none =>
      rw [hexcerpt] at h
      cases (Prod.mk.inj h).1
  | some start => rfl

theorem forM_ok_each {α σ ε : Type} {f : α → Command σ ε Unit} {as : List α} {s s' : σ} {u : Unit}
    (h : as.forM f s = (.ok u, s')) : ∀ a ∈ as, ∃ v t t', f a t = (.ok v, t') := by
  induction as generalizing s with
  | nil => exact List.forall_mem_nil _
  | cons a as ih =>
      obtain ⟨v, s₁, hstep, hrest⟩ := bind_eq_ok h
      exact List.forall_mem_cons.2 ⟨⟨v, s, s₁, hstep⟩, ih hrest⟩

theorem returns_iff_quotable (tracker : CardinalityTracker) :
    (∃ result, (validateBatch config projectId runId tags names tracker).1 = .ok result) ↔
      (∀ tag ∈ tags, Quotable config.maxTagKeyLength tag.1) ∧
        ∀ name ∈ names, Quotable config.maxMetricNameLength name := by
  constructor
  · rintro ⟨result, h⟩
    cases hitems : validateItems config projectId runId tags names
        ⟨(tracker.runs runId).getD {}, (tracker.projects projectId).getD {}, {}⟩ with
    | mk answer p =>
        rw [validateBatch, hitems] at h
        cases answer with
        | error panic => cases h
        | ok u =>
            obtain ⟨v, p₁, htags, hnames⟩ := bind_eq_ok hitems
            constructor
            · intro tag htag
              obtain ⟨_, _, _, hstep⟩ := forM_ok_each htags tag htag
              exact quotable_of_validateTag hstep
            · intro name hname
              obtain ⟨_, _, _, hstep⟩ := forM_ok_each hnames name hname
              exact quotable_of_validateMetricName hstep
  · rintro ⟨htags, hnames⟩
    obtain ⟨result, tracker', h⟩ :=
      (@completes_validateBatch config projectId runId tags names htags hnames).exists_ok tracker
    exact ⟨result, congrArg Prod.fst h⟩

/-- A batch is validated just when the texts that its warnings cut can be cut where they are. -/
theorem validateBatch_returns_iff (config : LimitsConfig) (projectId runId : String) (tags : List (String × String))
    (names : List String) (tracker : CardinalityTracker) :
    (∃ result, (validateBatch config projectId runId tags names tracker).1 = .ok result) ↔
      (∀ tag ∈ tags, Citable config.maxTagKeyLength tag.1) ∧
        ∀ name ∈ names, Citable config.maxMetricNameLength name := by
  simp only [← quotable_iff]
  exact returns_iff_quotable tracker

/-- In the default limits, a name of 300 bytes whose 32nd is inside a character. -/
def cutName : String := String.ofList (List.replicate 31 'x' ++ 'é' :: List.replicate 267 'x')

theorem cutName_toList : cutName.toList = List.replicate 31 'x' ++ 'é' :: List.replicate 267 'x' :=
  String.toList_ofList

theorem byteLength_cutName : byteLength cutName = 300 := by
  rw [byteLength, cutName_toList]
  decide +kernel

theorem excerpt_cutName : excerpt cutName = none := by
  rw [excerpt, byteLength_cutName, slicePrefix, cutName_toList]
  decide +kernel

theorem cutName_panics : ¬ ∃ result, (validateBatch {} "p" "r" [] [cutName] .empty).1 = .ok result := by
  intro h
  obtain ⟨-, hnames⟩ := (returns_iff_quotable .empty).1 h
  have hsome := hnames cutName (List.mem_singleton_self cutName) (byteLength_cutName ▸ by decide)
  rw [excerpt_cutName] at hsome
  cases hsome

theorem request_returns_iff {maxTagValueLen : ℕ} {payload : Payload} {batch : ValidatedBatch}
    (hbatch : validateRequest maxTagValueLen payload = .ok batch) (config : LimitsConfig)
    (projectId runId : String)
    (tracker : CardinalityTracker) :
    (∃ result, (validateBatch config projectId runId batch.tags (batch.metrics.map MetricRow.name) tracker).1 =
        .ok result) ↔ ∀ metric ∈ batch.metrics, Citable config.maxMetricNameLength metric.name := by
  rw [returns_iff_quotable]
  constructor
  · rintro ⟨-, hnames⟩ metric hmetric
    exact quotable_iff.1 (hnames _ (List.mem_map_of_mem hmetric))
  · intro hmetrics
    refine ⟨fun tag htag => quotable_of_ascii _ (validateRequest_tags_ascii hbatch tag htag), ?_⟩
    intro name hname
    obtain ⟨metric, hmetric, rfl⟩ := List.mem_map.1 hname
    exact quotable_iff.2 (hmetrics metric hmetric)

end MLRunX.NameExcerpts
