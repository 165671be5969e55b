import MLRunX.ReportedDrops
import MLRunX.TrackedBatches

namespace MLRunX.DroppedItems

open Cardinality Commands ReportedDrops Text

inductive TagDrop
  | keyTooLong
  | valueTooLong
  | runFull
  | projectFull
  deriving DecidableEq, Repr

inductive NameDrop
  | tooLong
  | runFull
  deriving DecidableEq, Repr

def TagDrop.isCap : TagDrop → Bool
  | .runFull | .projectFull => true
  | .keyTooLong | .valueTooLong => false

def NameDrop.isCap : NameDrop → Bool
  | .runFull => true
  | .tooLong => false

variable (config : LimitsConfig) (projectId runId : String)

/-- Why a tag is dropped, by what is known of its run and its project. -/
def tagDrop (keys : Finset String) (pairs : Finset (String × String)) (tag : String × String) : Option TagDrop :=
  if config.maxTagKeyLength < byteLength tag.1 then some .keyTooLong
  else if config.maxTagValueLength < byteLength tag.2 then some .valueTooLong
  else if tag.1 ∉ keys ∧ config.maxTagKeysPerRun ≤ keys.card then some .runFull
  else if tag ∉ pairs ∧ config.maxTagsPerProject ≤ pairs.card then some .projectFull
  else none

def tagFates : Finset String → Finset (String × String) → List (String × String) →
    List ((String × String) × Option TagDrop)
  | _, _, [] => []
  | keys, pairs, tag :: tags =>
      match tagDrop config keys pairs tag with
      | some reason => (tag, some reason) :: tagFates keys pairs tags
      | none => (tag, none) :: tagFates (insert tag.1 keys) (insert tag pairs) tags

def nameDrop (names : Finset String) (name : String) : Option NameDrop :=
  if config.maxMetricNameLength < byteLength name then some .tooLong
  else if name ∉ names ∧ config.maxMetricNamesPerRun ≤ names.card then some .runFull
  else none

def nameFates : Finset String → List String → List (String × Option NameDrop)
  | _, [] => []
  | names, name :: rest =>
      match nameDrop config names name with
      | some reason => (name, some reason) :: nameFates names rest
      | none => (name, none) :: nameFates (insert name names) rest

def quoted (text : String) : String := (excerpt text).getD ""

def tagWarning (tag : String × String) : TagDrop → String
  | .keyTooLong => s!"Tag key '{quoted tag.1}...' exceeds max length {config.maxTagKeyLength}"
  | .valueTooLong => s!"Tag value for '{tag.1}' exceeds max length {config.maxTagValueLength}"
  | .runFull => s!"Run {runId} has reached max tag keys ({config.maxTagKeysPerRun})"
  | .projectFull => s!"Project {projectId} has reached max tags ({config.maxTagsPerProject})"

def nameWarning (name : String) : NameDrop → String
  | .tooLong => s!"Metric name '{quoted name}...' exceeds max length {config.maxMetricNameLength}"
  | .runFull => s!"Run {runId} has reached max metric names ({config.maxMetricNamesPerRun})"

variable {config projectId runId} {p p' : Progress} {u : Unit}

def tagStep (config : LimitsConfig) (projectId runId : String) (p : Progress) (tag : String × String) :
    Option TagDrop → Progress
  | none => p.acceptTag tag
  | some reason => p.dropTag tag (if !p.result.droppedTags.isEmpty && reason.isCap then []
      else [tagWarning config projectId runId tag reason])

def nameStep (config : LimitsConfig) (runId : String) (p : Progress) (name : String) :
    Option NameDrop → Progress
  | none => p.acceptMetric name
  | some reason => p.dropMetric name (if !p.result.droppedMetrics.isEmpty && reason.isCap then []
      else [nameWarning config runId name reason])

theorem tagStep_loud {tag : String × String} {reason : TagDrop} (h : reason.isCap = false) :
    tagStep config projectId runId p tag (some reason) =
      p.dropTag tag [tagWarning config projectId runId tag reason] := by
  rw [tagStep, h, Bool.and_false, if_neg Bool.false_ne_true]

theorem tagStep_cap {tag : String × String} {reason : TagDrop} (h : reason.isCap = true) :
    tagStep config projectId runId p tag (some reason) = p.dropTag tag
      (if p.result.droppedTags.isEmpty then [tagWarning config projectId runId tag reason] else []) := by
  rw [tagStep, h, Bool.and_true]
  cases p.result.droppedTags <;> rfl

theorem tagWarning_quoted {tag : String × String} {start : String} (h : excerpt tag.1 = some start) :
    tagWarning config projectId runId tag .keyTooLong =
      s!"Tag key '{start}...' exceeds max length {config.maxTagKeyLength}" := by
  change s!"Tag key '{quoted tag.1}...' exceeds max length {config.maxTagKeyLength}" = _
  rw [quoted, h]
  rfl

theorem nameStep_loud {name : String} {reason : NameDrop} (h : reason.isCap = false) :
    nameStep config runId p name (some reason) = p.dropMetric name [nameWarning config runId name reason] := by
  rw [nameStep, h, Bool.and_false, if_neg Bool.false_ne_true]

theorem nameStep_cap {name : String} {reason : NameDrop} (h : reason.isCap = true) :
    nameStep config runId p name (some reason) = p.dropMetric name
      (if p.result.droppedMetrics.isEmpty then [nameWarning config runId name reason] else []) := by
  rw [nameStep, h, Bool.and_true]
  cases p.result.droppedMetrics <;> rfl

theorem nameWarning_quoted {name start : String} (h : excerpt name = some start) :
    nameWarning config runId name .tooLong =
      s!"Metric name '{start}...' exceeds max length {config.maxMetricNameLength}" := by
  change s!"Metric name '{quoted name}...' exceeds max length {config.maxMetricNameLength}" = _
  rw [quoted, h]
  rfl

theorem validateTag_ok {tag : String × String} (h : validateTag config projectId runId tag p = (.ok u, p')) :
    p' = tagStep config projectId runId p tag (tagDrop config p.run.tagKeys p.project.tagPairs tag) := by
  rw [validateTag] at h
  rw [tagDrop]
  by_cases hkey : config.maxTagKeyLength < byteLength tag.1
  · rw [if_pos hkey] at h ⊢
    cases hexcerpt : excerpt tag.1 with
    | none =>
        rw [hexcerpt] at h
        cases (Prod.mk.inj h).1
    | some start =>
        rw [hexcerpt] at h
        rw [tagStep_loud rfl, tagWarning_quoted hexcerpt]
        exact (Prod.mk.inj h).2.symm
  rw [if_neg hkey] at h ⊢
  by_cases hvalue : config.maxTagValueLength < byteLength tag.2
  · rw [if_pos hvalue] at h ⊢
    rw [tagStep_loud rfl]
    exact (Prod.mk.inj h).2.symm
  rw [if_neg hvalue] at h ⊢
  by_cases hrun : tag.1 ∉ p.run.tagKeys ∧ config.maxTagKeysPerRun ≤ p.run.tagKeys.card
  · rw [if_pos hrun] at h ⊢
    rw [tagStep_cap rfl]
    exact (Prod.mk.inj h).2.symm
  rw [if_neg hrun] at h ⊢
  by_cases hproject : tag ∉ p.project.tagPairs ∧ config.maxTagsPerProject ≤ p.project.tagPairs.card
  · rw [if_pos hproject] at h ⊢
    rw [tagStep_cap rfl]
    exact (Prod.mk.inj h).2.symm
  · rw [if_neg hproject] at h ⊢
    exact (Prod.mk.inj h).2.symm

theorem validateMetricName_ok {name : String} (h : validateMetricName config runId name p = (.ok u, p')) :
    p' = nameStep config runId p name (nameDrop config p.run.metricNames name) := by
  rw [validateMetricName] at h
  rw [nameDrop]
  by_cases hlong : config.maxMetricNameLength < byteLength name
  · rw [if_pos hlong] at h ⊢
    cases hexcerpt : excerpt name with
    | none =>
        rw [hexcerpt] at h
        cases (Prod.mk.inj h).1
    | some start =>
        rw [hexcerpt] at h
        rw [nameStep_loud rfl, nameWarning_quoted hexcerpt]
        exact (Prod.mk.inj h).2.symm
  rw [if_neg hlong] at h ⊢
  by_cases hrun : name ∉ p.run.metricNames ∧ config.maxMetricNamesPerRun ≤ p.run.metricNames.card
  · rw [if_pos hrun] at h ⊢
    rw [nameStep_cap rfl]
    exact (Prod.mk.inj h).2.symm
  · rw [if_neg hrun] at h ⊢
    exact (Prod.mk.inj h).2.symm

/-- What a loop over tags adds to the result. -/
structure AddsTags (config : LimitsConfig) (projectId runId : String) (tags : List (String × String))
    (p p' : Progress) :
    Prop where
  accepted : p'.result.acceptedTags =
    p.result.acceptedTags ++ kept (tagFates config p.run.tagKeys p.project.tagPairs tags)
  warnings : p'.result.warnings = p.result.warnings ++ reports (tagWarning config projectId runId) TagDrop.isCap
    (!p.result.droppedTags.isEmpty) (tagFates config p.run.tagKeys p.project.tagPairs tags)
  metricNames : p'.run.metricNames = p.run.metricNames
  acceptedMetrics : p'.result.acceptedMetrics = p.result.acceptedMetrics
  droppedMetrics : p'.result.droppedMetrics = p.result.droppedMetrics

theorem adds_tags {tags : List (String × String)}
    (h : tags.forM (validateTag config projectId runId) p = (.ok u, p')) :
    AddsTags config projectId runId tags p p' := by
  induction tags generalizing p with
  | nil =>
      obtain ⟨-, rfl⟩ := pure_eq_ok h
      exact ⟨(List.append_nil _).symm, (List.append_nil _).symm, rfl, rfl, rfl⟩
  | cons tag tags ih =>
      obtain ⟨_, p₁, hstep, hrest⟩ := bind_eq_ok h
      obtain rfl := validateTag_ok hstep
      obtain ⟨haccepted, hwarnings, hnames, hmetrics, hdropped⟩ := ih hrest
      cases hdrop : tagDrop config p.run.tagKeys p.project.tagPairs tag with
      | none =>
          rw [hdrop] at haccepted hwarnings hnames hmetrics hdropped
          refine ⟨?_, ?_, hnames, hmetrics, hdropped⟩
          · rw [haccepted, tagFates, hdrop]
            exact List.append_assoc _ _ _
          · rw [hwarnings, tagFates, hdrop]
            rfl
      | some reason =>
          rw [hdrop] at haccepted hwarnings hnames hmetrics hdropped
          refine ⟨?_, ?_, hnames, hmetrics, hdropped⟩
          · rw [haccepted, tagFates, hdrop]
            rfl
          · have hnonempty : (!(p.result.droppedTags ++ [tag]).isEmpty) = true := by
              cases p.result.droppedTags <;> rfl
            rw [hwarnings, tagFates, hdrop]
            change _ ++ _ ++ reports _ _ (!(p.result.droppedTags ++ [tag]).isEmpty) _ = _
            rw [hnonempty, List.append_assoc]
            rfl

structure AddsNames (config : LimitsConfig) (runId : String) (names : List String) (p p' : Progress) : Prop where
  accepted : p'.result.acceptedMetrics =
    p.result.acceptedMetrics ++ kept (nameFates config p.run.metricNames names)
  warnings : p'.result.warnings = p.result.warnings ++ reports (nameWarning config runId) NameDrop.isCap
    (!p.result.droppedMetrics.isEmpty) (nameFates config p.run.metricNames names)
  acceptedTags : p'.result.acceptedTags = p.result.acceptedTags

theorem adds_names {names : List String} (h : names.forM (validateMetricName config runId) p = (.ok u, p')) :
    AddsNames config runId names p p' := by
  induction names generalizing p with
  | nil =>
      obtain ⟨-, rfl⟩ := pure_eq_ok h
      exact ⟨(List.append_nil _).symm, (List.append_nil _).symm, rfl⟩
  | cons name names ih =>
      obtain ⟨_, p₁, hstep, hrest⟩ := bind_eq_ok h
      obtain rfl := validateMetricName_ok hstep
      obtain ⟨haccepted, hwarnings, htags⟩ := ih hrest
      cases hdrop : nameDrop config p.run.metricNames name with
      | none =>
          rw [hdrop] at haccepted hwarnings htags
          refine ⟨?_, ?_, htags⟩
          · rw [haccepted, nameFates, hdrop]
            exact List.append_assoc _ _ _
          · rw [hwarnings, nameFates, hdrop]
            rfl
      | some reason =>
          rw [hdrop] at haccepted hwarnings htags
          refine ⟨?_, ?_, htags⟩
          · rw [haccepted, nameFates, hdrop]
            rfl
          · have hnonempty : (!(p.result.droppedMetrics ++ [name]).isEmpty) = true := by
              cases p.result.droppedMetrics <;> rfl
            rw [hwarnings, nameFates, hdrop]
            change _ ++ _ ++ reports _ _ (!(p.result.droppedMetrics ++ [name]).isEmpty) _ = _
            rw [hnonempty, List.append_assoc]
            rfl

/-- What the validation of a batch lets in and says about the rest. -/
structure Validated (config : LimitsConfig) (projectId runId : String) (tags : List (String × String))
    (names : List String) (run : RunCardinality) (project : ProjectCardinality) (validation : ValidationResult) :
    Prop where
  acceptedTags : validation.acceptedTags = kept (tagFates config run.tagKeys project.tagPairs tags)
  acceptedMetrics : validation.acceptedMetrics = kept (nameFates config run.metricNames names)
  warnings : validation.warnings =
    reports (tagWarning config projectId runId) TagDrop.isCap false
      (tagFates config run.tagKeys project.tagPairs tags) ++
      reports (nameWarning config runId) NameDrop.isCap false (nameFates config run.metricNames names)

open TrackedBatches in
theorem validated {tags : List (String × String)} {names : List String} {tracker tracker' : CardinalityTracker}
    {validation : ValidationResult}
    (h : validateBatch config projectId runId tags names tracker = (.ok validation, tracker')) :
    Validated config projectId runId tags names (known tracker runId)
      (knownPairs tracker projectId) validation := by
  obtain rfl := result_validateBatch h
  have hok : (validateItems config projectId runId tags names
      ⟨known tracker runId, knownPairs tracker projectId, {}⟩).1 = .ok () := by
    have hfirst : (validateItems config projectId runId tags names
        ⟨known tracker runId, knownPairs tracker projectId, {}⟩).1.map (fun _ => _) = .ok _ := congrArg Prod.fst h
    cases hend : (validateItems config projectId runId tags names
        ⟨known tracker runId, knownPairs tracker projectId, {}⟩).1 with
    | error e =>
        rw [hend] at hfirst
        cases hfirst
    | ok u => rfl
  obtain ⟨_, p, htags, hnames⟩ := bind_eq_ok (show validateItems config projectId runId tags names
      ⟨known tracker runId, knownPairs tracker projectId, {}⟩ = (.ok (), _) from Prod.ext hok rfl)
  obtain ⟨htagsAccepted, htagWarnings, hmetricNames, hmetrics, hdropped⟩ := adds_tags htags
  obtain ⟨haccepted, hwarnings, hkept⟩ := adds_names hnames
  refine ⟨?_, ?_, ?_⟩
  · rw [hkept, htagsAccepted]
    rfl
  · rw [haccepted, hmetrics, hmetricNames]
    rfl
  · rw [hwarnings, htagWarnings, hdropped, hmetricNames]
    rfl

/-! A name has one fate in a batch. -/

variable {names : List String} {known : Finset String} {name : String} {reason : NameDrop}

theorem nameDrop_insert (h : nameDrop config known name = none) :
    nameDrop config (insert name known) name = none := by
  rw [nameDrop] at h ⊢
  split_ifs at h with hlong hfull
  rw [if_neg hlong, if_neg]
  exact fun h => h.1 (Finset.mem_insert_self _ _)

theorem nameDrop_grow {other : String} (h : nameDrop config known name = none)
    (hknown : name ∈ known) : nameDrop config (insert other known) name = none := by
  rw [nameDrop] at h ⊢
  split_ifs at h with hlong hfull
  rw [if_neg hlong, if_neg]
  exact fun h => h.1 (Finset.mem_insert_of_mem hknown)

theorem kept_known (h : nameDrop config known name = none) (hknown : name ∈ known) :
    (name, some reason) ∉ nameFates config known names := by
  induction names generalizing known with
  | nil => exact List.not_mem_nil
  | cons other names ih =>
      rw [nameFates]
      cases hother : nameDrop config known other with
      | some r =>
          intro hmem
          rcases List.mem_cons.1 hmem with heq | hrest
          · obtain ⟨rfl, -⟩ := Prod.mk.inj heq
            rw [h] at hother
            cases hother
          · exact ih h hknown hrest
      | none =>
          intro hmem
          rcases List.mem_cons.1 hmem with heq | hrest
          · cases heq
          · exact ih (nameDrop_grow h hknown) (Finset.mem_insert_of_mem hknown) hrest

theorem dropped_stays (h : nameDrop config known name = some reason) :
    (name, none) ∉ nameFates config known names := by
  induction names generalizing known reason with
  | nil => exact List.not_mem_nil
  | cons other names ih =>
      rw [nameFates]
      cases hother : nameDrop config known other with
      | some r =>
          intro hmem
          rcases List.mem_cons.1 hmem with heq | hrest
          · cases heq
          · exact ih h hrest
      | none =>
          have hne : name ≠ other := by
            rintro rfl
            rw [h] at hother
            cases hother
          have hstill : ∃ r, nameDrop config (insert other known) name = some r := by
            rw [nameDrop] at h ⊢
            split_ifs at h with hlong hfull
            · exact ⟨_, if_pos hlong⟩
            · refine ⟨.runFull, ?_⟩
              rw [if_neg hlong, if_pos]
              refine ⟨?_, hfull.2.trans (Finset.card_le_card (Finset.subset_insert _ _))⟩
              rw [Finset.mem_insert]
              exact fun h => h.elim hne hfull.1
          intro hmem
          rcases List.mem_cons.1 hmem with heq | hrest
          · exact hne (Prod.mk.inj heq).1
          · obtain ⟨r, hr⟩ := hstill
            exact ih hr hrest

theorem one_fate (hkept : (name, none) ∈ nameFates config known names) :
    (name, some reason) ∉ nameFates config known names := by
  induction names generalizing known with
  | nil => exact List.not_mem_nil
  | cons other names ih =>
      rw [nameFates] at hkept ⊢
      cases hother : nameDrop config known other with
      | some r =>
          rw [hother] at hkept
          intro hmem
          have hrest : (name, none) ∈ nameFates config known names := by
            rcases List.mem_cons.1 hkept with heq | hrest
            · cases heq
            · exact hrest
          rcases List.mem_cons.1 hmem with heq | hmem
          · obtain ⟨rfl, -⟩ := Prod.mk.inj heq
            exact dropped_stays hother hrest
          · exact ih hrest hmem
      | none =>
          rw [hother] at hkept
          intro hmem
          rcases List.mem_cons.1 hmem with heq | hmem
          · cases heq
          · by_cases hname : name = other
            · subst hname
              exact kept_known (nameDrop_insert hother) (Finset.mem_insert_self _ _) hmem
            · rcases List.mem_cons.1 hkept with heq | hrest
              · exact hname (Prod.mk.inj heq).1
              · exact ih hrest hmem

end MLRunX.DroppedItems
