import MLRunX.JsObjects

namespace MLRunX.MetricObjectives

open CodeUnits JsObjects JsonText

def maxMetricOverrides : Nat := 100

def maxMetricNameLen : Nat := 128

def isMetricObjective : JsValue → Bool
  | .string s => s == units "higher" || s == units "lower"
  | _ => false

def normalizeMetricName (metricName : JsString) : JsString := cut maxMetricNameLen metricName

abbrev Overrides := List (JsString × JsValue)

variable (localeCompare : JsString → JsString → Int)

def normalizeMetricObjectiveOverrides (overrides : Overrides) : Overrides :=
  fromEntries (((((ownEntries overrides).map (fun e => (normalizeMetricName e.1, e.2))).filter
    (fun e => !e.1.isEmpty && isMetricObjective e.2)).take maxMetricOverrides).mergeSort
      (fun e f => decide (localeCompare e.1 f.1 ≤ 0)))

def parseMetricObjectiveOverridesParam (raw : Option (List Char)) : Overrides :=
  match raw.bind (fun text => if text.isEmpty then none else jsonParse text) with
  | some (.object fields) =>
      normalizeMetricObjectiveOverrides localeCompare
        (fromEntries ((ownEntries (fromEntries fields)).filter (fun e => isMetricObjective e.2)))
  | _ => []

def serializeMetricObjectiveOverridesParam (overrides : Overrides) : Option (List Char) :=
  let normalized := normalizeMetricObjectiveOverrides localeCompare overrides
  if (ownEntries normalized).isEmpty then none else some (jsonStringify (.object (ownEntries normalized)))

/-- The entries that are not left out: they have a name and an objective, and there is room for them. -/
def keptEntries (overrides : Overrides) : Overrides :=
  ((ownEntries overrides).filter (fun e => !(normalizeMetricName e.1).isEmpty && isMetricObjective e.2)).take
    maxMetricOverrides

/-- The cut of the names leaves no space at their ends. -/
def Settled (overrides : Overrides) : Prop := ∀ e ∈ keptEntries overrides, Unpadded (normalizeMetricName e.1)

/-- What an object has that comes out of the normalisation. -/
structure Normalized (overrides : Overrides) : Prop where
  object : Object overrides
  length : overrides.length ≤ maxMetricOverrides
  objectives : ∀ e ∈ overrides, isMetricObjective e.2 = true
  names : ∀ e ∈ overrides, e.1 ≠ [] ∧ ∃ raw, normalizeMetricName raw = e.1

variable {localeCompare} {overrides : Overrides}

theorem normalize_eq (overrides : Overrides) : ∃ entries : Overrides,
    entries.Perm ((keptEntries overrides).map (fun e => (normalizeMetricName e.1, e.2))) ∧
      normalizeMetricObjectiveOverrides localeCompare overrides = fromEntries entries := by
  refine ⟨_, ?_, rfl⟩
  refine (List.mergeSort_perm _ _).trans (List.Perm.of_eq ?_)
  rw [List.filter_map, ← List.map_take]
  rfl

theorem mem_keys_normalize {name : JsString} :
    name ∈ (normalizeMetricObjectiveOverrides localeCompare overrides).map Prod.fst ↔
      ∃ e ∈ keptEntries overrides, normalizeMetricName e.1 = name := by
  obtain ⟨entries, hperm, heq⟩ := @normalize_eq localeCompare overrides
  rw [heq, mem_keys_fromEntries, (hperm.map Prod.fst).mem_iff]
  simp

theorem normalized_normalize (overrides : Overrides) :
    Normalized (normalizeMetricObjectiveOverrides localeCompare overrides) := by
  obtain ⟨entries, hperm, heq⟩ := @normalize_eq localeCompare overrides
  rw [heq]
  have hkept : ∀ e ∈ fromEntries entries, ∃ raw ∈ keptEntries overrides,
      (normalizeMetricName raw.1, raw.2) = e :=
    fun e he => List.mem_map.mp (hperm.mem_iff.mp (mem_fromEntries he))
  have hchecked : ∀ raw ∈ keptEntries overrides, normalizeMetricName raw.1 ≠ [] ∧
      isMetricObjective raw.2 = true := by
    intro raw hraw
    have hfilter := (List.mem_filter.mp (List.mem_of_mem_take hraw)).2
    simpa using hfilter
  constructor
  · exact object_fromEntries entries
  · refine (length_fromEntries_le entries).trans ?_
    rw [hperm.length_eq, List.length_map]
    exact List.length_take_le _ _
  · intro e he
    obtain ⟨raw, hraw, rfl⟩ := hkept e he
    exact (hchecked raw hraw).2
  · intro e he
    obtain ⟨raw, hraw, rfl⟩ := hkept e he
    exact ⟨(hchecked raw hraw).1, raw.1, rfl⟩

theorem normalizeMetricName_ne_nil {raw : JsString} (h : normalizeMetricName raw ≠ []) :
    normalizeMetricName (normalizeMetricName raw) ≠ [] := cut_ne_nil h (head_cut _ _) (by decide)

theorem keptEntries_of_normalized (h : Normalized overrides) : keptEntries overrides = ownEntries overrides := by
  have hperm := ownEntries_perm overrides
  rw [keptEntries, List.filter_eq_self.mpr]
  · refine List.take_of_length_le ?_
    rw [hperm.length_eq]
    exact h.length
  · intro e he
    obtain ⟨hne, raw, hraw⟩ := h.names e (hperm.mem_iff.mp he)
    rw [← hraw] at hne
    have hagain := normalizeMetricName_ne_nil hne
    rw [hraw] at hagain
    simpa [h.objectives e (hperm.mem_iff.mp he)] using hagain

theorem normalize_perm (h : Normalized overrides) (hnames : ∀ e ∈ overrides, Unpadded e.1) :
    (normalizeMetricObjectiveOverrides localeCompare overrides).Perm overrides := by
  obtain ⟨entries, hperm, heq⟩ := @normalize_eq localeCompare overrides
  have hsame : (keptEntries overrides).map (fun e => (normalizeMetricName e.1, e.2)) = ownEntries overrides := by
    rw [keptEntries_of_normalized h]
    refine (List.map_congr_left ?_).trans (List.map_id _)
    intro e he
    have hmem := (ownEntries_perm overrides).mem_iff.mp he
    obtain ⟨-, raw, hraw⟩ := h.names e hmem
    have hfixed : normalizeMetricName e.1 = e.1 := by
      have hunpadded := hnames e hmem
      rw [← hraw] at hunpadded ⊢
      exact cut_cut.mpr hunpadded
    exact Prod.ext hfixed rfl
  rw [hsame] at hperm
  have hentries := hperm.trans (ownEntries_perm overrides)
  rw [heq, fromEntries_of_object (h.object.perm hentries)]
  exact hentries

theorem unpadded_of_short (hshort : ∀ e ∈ overrides, e.1.length ≤ maxMetricNameLen) :
    ∀ name ∈ (normalizeMetricObjectiveOverrides localeCompare overrides).map Prod.fst, Unpadded name := by
  intro name hname
  obtain ⟨e, he, rfl⟩ := mem_keys_normalize.mp hname
  have hmem := (ownEntries_perm overrides).mem_iff.mp (List.mem_filter.mp (List.mem_of_mem_take he)).1
  exact unpadded_cut (hshort e hmem)

theorem Normalized.short (h : Normalized overrides) : ∀ e ∈ overrides, e.1.length ≤ maxMetricNameLen := by
  intro e he
  obtain ⟨-, raw, hraw⟩ := h.names e he
  rw [← hraw]
  exact length_cut _ _

theorem settled_iff : Settled overrides ↔
    ∀ e ∈ normalizeMetricObjectiveOverrides localeCompare overrides, Unpadded e.1 := by
  constructor
  · intro h e he
    obtain ⟨raw, hraw, hname⟩ := mem_keys_normalize.mp (List.mem_map_of_mem he)
    rw [← hname]
    exact h raw hraw
  · intro h e he
    obtain ⟨f, hf, hname⟩ := List.mem_map.mp
      ((@mem_keys_normalize localeCompare overrides _).mpr ⟨e, he, rfl⟩)
    rw [← hname]
    exact h f hf

theorem Normalized.perm {overrides' : Overrides} (h : Normalized overrides) (hperm : overrides'.Perm overrides) :
    Normalized overrides' where
  object := h.object.perm hperm
  length := hperm.length_eq.trans_le h.length
  objectives := fun e he => h.objectives e (hperm.mem_iff.mp he)
  names := fun e he => h.names e (hperm.mem_iff.mp he)

/-- A normalised object is normalised again to the same map just when none of its names ends in space. -/
theorem sameMap_normalize {overrides' : Overrides} (h : Normalized overrides) (hperm : overrides'.Perm overrides) :
    SameMap (normalizeMetricObjectiveOverrides localeCompare overrides') overrides ↔
      ∀ e ∈ overrides, Unpadded e.1 := by
  have h' := h.perm hperm
  constructor
  · intro hsame e he
    refine @unpadded_of_short localeCompare overrides' h'.short e.1 ?_
    exact SameMap.keys h.object (normalized_normalize overrides').object (fun key => (hsame key).symm)
      (List.mem_map_of_mem he)
  · intro hnames
    exact sameMap_of_perm h.object ((normalize_perm h' (fun e he => hnames e (hperm.mem_iff.mp he))).trans hperm)

theorem Normalized.ownEntries (h : Normalized overrides) : Normalized (ownEntries overrides) :=
  h.perm (ownEntries_perm overrides)

theorem isNumeral_of_objectives (h : ∀ e ∈ overrides, isMetricObjective e.2 = true) :
    allNumbersFields Literal.isNumeral overrides = true := by
  rw [allNumbersFields_iff]
  intro e he
  have hobjective := h e he
  cases hvalue : e.2 with
  | string s => rfl
  | null | bool | number | array | object =>
      rw [hvalue] at hobjective
      cases hobjective

theorem parse_stringify (h : Normalized overrides) :
    parseMetricObjectiveOverridesParam localeCompare (some (jsonStringify (.object (JsObjects.ownEntries overrides)))) =
      normalizeMetricObjectiveOverrides localeCompare (JsObjects.ownEntries (JsObjects.ownEntries overrides)) := by
  have hown := h.ownEntries
  have hparse : jsonParse (jsonStringify (.object (JsObjects.ownEntries overrides))) =
      some (.object (JsObjects.ownEntries overrides)) :=
    jsonParse_jsonStringify (isNumeral_of_objectives hown.objectives)
  have htext : (jsonStringify (.object (JsObjects.ownEntries overrides))).isEmpty = false := by
    cases JsObjects.ownEntries overrides with
    | nil => rfl
    | cons e entries => rfl
  have hobjectives : (JsObjects.ownEntries (JsObjects.ownEntries overrides)).filter (fun e => isMetricObjective e.2) =
      JsObjects.ownEntries (JsObjects.ownEntries overrides) := by
    rw [List.filter_eq_self]
    exact hown.ownEntries.objectives
  simp only [parseMetricObjectiveOverridesParam, Option.bind_some, htext, Bool.false_eq_true, if_false, hparse]
  rw [fromEntries_of_object hown.object, hobjectives, fromEntries_of_object hown.ownEntries.object]

theorem normalize_ne_nil (h : Normalized overrides) (hne : overrides ≠ []) :
    normalizeMetricObjectiveOverrides localeCompare overrides ≠ [] := by
  obtain ⟨e, entries, hcons⟩ := List.exists_cons_of_ne_nil hne
  have hmem : e ∈ keptEntries overrides := by
    rw [keptEntries_of_normalized h, (ownEntries_perm overrides).mem_iff, hcons]
    exact List.mem_cons_self
  have hkey := (@mem_keys_normalize localeCompare overrides _).mpr ⟨e, hmem, rfl⟩
  intro hnil
  rw [hnil] at hkey
  cases hkey

/-- The parameter gives a normalised object back. -/
def Inverts (localeCompare : JsString → JsString → Int) (overrides : Overrides) : Prop :=
  ∃ text, serializeMetricObjectiveOverridesParam localeCompare overrides = some text ∧
    SameMap (parseMetricObjectiveOverridesParam localeCompare (some text)) overrides

theorem inverts_iff (h : Normalized overrides) (hne : overrides ≠ []) :
    Inverts localeCompare overrides ↔ ∀ e ∈ overrides, Unpadded e.1 := by
  have hagain := @normalized_normalize localeCompare overrides
  have hnonempty : ¬ (JsObjects.ownEntries (normalizeMetricObjectiveOverrides localeCompare overrides)).isEmpty =
      true := by
    rw [List.isEmpty_iff, ownEntries_eq_nil]
    exact normalize_ne_nil h hne
  simp only [Inverts, serializeMetricObjectiveOverridesParam, if_neg hnonempty, Option.some.injEq, exists_eq_left',
    parse_stringify hagain]
  constructor
  · intro hsame e he
    refine @unpadded_of_short localeCompare _ hagain.ownEntries.ownEntries.short e.1 ?_
    exact SameMap.keys h.object (normalized_normalize _).object (fun key => (hsame key).symm)
      (List.mem_map_of_mem he)
  · intro hnames
    have hperm := @normalize_perm localeCompare _ h hnames
    have hunpadded : ∀ e ∈ JsObjects.ownEntries (JsObjects.ownEntries
        (normalizeMetricObjectiveOverrides localeCompare overrides)), Unpadded e.1 := by
      intro e he
      exact hnames e (hperm.mem_iff.mp ((ownEntries_perm _).mem_iff.mp ((ownEntries_perm _).mem_iff.mp he)))
    have hlast := @normalize_perm localeCompare _ hagain.ownEntries.ownEntries hunpadded
    exact sameMap_of_perm h.object (hlast.trans ((ownEntries_perm _).trans ((ownEntries_perm _).trans hperm)))

end MLRunX.MetricObjectives
