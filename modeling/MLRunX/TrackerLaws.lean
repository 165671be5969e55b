import MLRunX.DroppedItems
import MLRunX.NameExcerpts
import MLRunX.Runs
import MLRunX.Sieves

namespace MLRunX.TrackerLaws

open Cardinality Commands DroppedItems NameExcerpts ReportedDrops Runs Sieves Text TrackedBatches

inductive Op
  | validateBatch (projectId runId : String) (tags : List (String × String)) (metricNames : List String)
  | clearRun (runId : String)

inductive Reply
  | validated (result : Except Panic ValidationResult)
  | cleared

variable (config : LimitsConfig)

def step : Machine CardinalityTracker Op Reply
  | tracker, .validateBatch projectId runId tags metricNames =>
      let r := validateBatch config projectId runId tags metricNames tracker
      (.validated r.1, r.2)
  | tracker, .clearRun runId => (.cleared, tracker.clearRun runId)

structure WithinCaps (tracker : CardinalityTracker) : Prop where
  tagKeys : ∀ runId, (known tracker runId).tagKeys.card ≤ config.maxTagKeysPerRun
  metricNames : ∀ runId, (known tracker runId).metricNames.card ≤ config.maxMetricNamesPerRun
  tagPairs : ∀ projectId, (knownPairs tracker projectId).tagPairs.card ≤ config.maxTagsPerProject

/-- A tag is dropped for its length or for a cap it would exceed, and never if it is known. -/
structure JudgedTag (sets : Finset String × Finset (String × String)) (tag : String × String)
    (reason : Option TagDrop) : Prop where
  known : byteLength tag.1 ≤ config.maxTagKeyLength → byteLength tag.2 ≤ config.maxTagValueLength →
    tag.1 ∈ sets.1 → tag ∈ sets.2 → reason = none
  keyTooLong : reason = some .keyTooLong → config.maxTagKeyLength < byteLength tag.1
  valueTooLong : reason = some .valueTooLong → config.maxTagValueLength < byteLength tag.2
  runFull : reason = some .runFull → config.maxTagKeysPerRun < (insert tag.1 sets.1).card
  projectFull : reason = some .projectFull → config.maxTagsPerProject < (insert tag sets.2).card

structure JudgedName (names : Finset String) (name : String) (reason : Option NameDrop) : Prop where
  known : byteLength name ≤ config.maxMetricNameLength → name ∈ names → reason = none
  tooLong : reason = some .tooLong → config.maxMetricNameLength < byteLength name
  runFull : reason = some .runFull → config.maxMetricNamesPerRun < (insert name names).card

def tagSets (tracker : CardinalityTracker) (projectId runId : String) : Finset String × Finset (String × String) :=
  ((known tracker runId).tagKeys, (knownPairs tracker projectId).tagPairs)

def takeTag (sets : Finset String × Finset (String × String)) (tag : String × String) :
    Finset String × Finset (String × String) := (insert tag.1 sets.1, insert tag sets.2)

def takeName (names : Finset String) (name : String) : Finset String := insert name names

/-- The accepted and the dropped items of a call part its input in order, each is judged by the sets that
the accepted ones before it lead to, and these lead to the sets behind the call. -/
structure Lawful (tracker tracker' : CardinalityTracker) (projectId runId : String) (tags : List (String × String))
    (metricNames : List String) (result : ValidationResult) : Prop where
  tags : ∃ fates, fates.map Prod.fst = tags ∧ result.acceptedTags = kept fates ∧
    result.droppedTags = lost fates ∧
    tagSets tracker' projectId runId = taken takeTag (tagSets tracker projectId runId) fates ∧
    ∀ before tag reason rest, fates = before ++ (tag, reason) :: rest →
      JudgedTag config (taken takeTag (tagSets tracker projectId runId) before) tag reason
  names : ∃ fates, fates.map Prod.fst = metricNames ∧ result.acceptedMetrics = kept fates ∧
    result.droppedMetrics = lost fates ∧
    (known tracker' runId).metricNames = taken takeName (known tracker runId).metricNames fates ∧
    ∀ before name reason rest, fates = before ++ (name, reason) :: rest →
      JudgedName config (taken takeName (known tracker runId).metricNames before) name reason
  runs : ∀ other, other ≠ runId → known tracker' other = known tracker other
  projects : ∀ other, other ≠ projectId → knownPairs tracker' other = knownPairs tracker other

/-- What was accepted is known from then on, until its run is cleared. -/
def Remembers (ops : List Op) : Prop :=
  ∀ before later projectId runId tags metricNames result,
    ops = before ++ .validateBatch projectId runId tags metricNames :: later →
    (step config (after (step config) .empty before) (.validateBatch projectId runId tags metricNames)).1 =
      .validated (.ok result) →
    (∀ tag ∈ result.acceptedTags, tag ∈ (knownPairs (after (step config) .empty ops) projectId).tagPairs) ∧
      (.clearRun runId ∉ later →
        (∀ tag ∈ result.acceptedTags, tag.1 ∈ (known (after (step config) .empty ops) runId).tagKeys) ∧
          ∀ name ∈ result.acceptedMetrics, name ∈ (known (after (step config) .empty ops) runId).metricNames)

variable {config} {projectId runId : String} {tags : List (String × String)} {names : List String}
  {tracker tracker' : CardinalityTracker} {result : ValidationResult}

/-! How an item is judged. -/

theorem card_insert_of_full {α : Type} [DecidableEq α] {items : Finset α} {item : α} {cap : ℕ}
    (h : item ∉ items ∧ cap ≤ items.card) : cap < (insert item items).card := by
  rw [Finset.card_insert_of_notMem h.1]
  exact Nat.lt_succ_of_le h.2

theorem judgedTag (sets : Finset String × Finset (String × String)) (tag : String × String) :
    JudgedTag config sets tag (tagDrop config sets.1 sets.2 tag) where
  known hkey hvalue hrun hproject := by
    rw [tagDrop, if_neg (not_lt.2 hkey), if_neg (not_lt.2 hvalue), if_neg (fun h => h.1 hrun),
      if_neg (fun h => h.1 hproject)]
  keyTooLong h := by
    by_contra hkey
    rw [tagDrop, if_neg hkey] at h
    split_ifs at h <;> cases h
  valueTooLong h := by
    by_contra hvalue
    rw [tagDrop, if_neg hvalue] at h
    split_ifs at h <;> cases h
  runFull h := by
    apply card_insert_of_full
    by_contra hrun
    rw [tagDrop, if_neg hrun] at h
    split_ifs at h <;> cases h
  projectFull h := by
    apply card_insert_of_full
    by_contra hproject
    rw [tagDrop, if_neg hproject] at h
    split_ifs at h <;> cases h

theorem judgedName (names : Finset String) (name : String) :
    JudgedName config names name (nameDrop config names name) where
  known hlong hrun := by
    rw [nameDrop, if_neg (not_lt.2 hlong), if_neg (fun h => h.1 hrun)]
  tooLong h := by
    by_contra hlong
    rw [nameDrop, if_neg hlong] at h
    split_ifs at h
    cases h
  runFull h := by
    apply card_insert_of_full
    by_contra hrun
    rw [nameDrop, if_neg hrun] at h
    split_ifs at h
    cases h

theorem sifts_validateTag : Sifts (fun sets tag => tagDrop config sets.1 sets.2 tag) takeTag
    (fun p : Progress => (p.run.tagKeys, p.project.tagPairs)) (fun p => p.result.acceptedTags)
    (fun p => p.result.droppedTags) (validateTag config projectId runId) where
  takes tag p u p' h hjudge := by
    rw [validateTag_ok h, hjudge]
    exact ⟨rfl, rfl, rfl⟩
  drops tag p u p' reason h hjudge := by
    rw [validateTag_ok h, hjudge]
    exact ⟨rfl, rfl, rfl⟩

theorem sifts_validateMetricName : Sifts (nameDrop config) takeName (fun p : Progress => p.run.metricNames)
    (fun p => p.result.acceptedMetrics) (fun p => p.result.droppedMetrics) (validateMetricName config runId) where
  takes name p u p' h hjudge := by
    rw [validateMetricName_ok h, hjudge]
    exact ⟨rfl, rfl, rfl⟩
  drops name p u p' reason h hjudge := by
    rw [validateMetricName_ok h, hjudge]
    exact ⟨rfl, rfl, rfl⟩

/-! What one call does. -/

section Call

def tagView (p : Progress) :=
  ((p.run.tagKeys, p.project.tagPairs), p.result.acceptedTags, p.result.droppedTags)

def nameView (p : Progress) := (p.run.metricNames, p.result.acceptedMetrics, p.result.droppedMetrics)

theorem nameView_validateTag (tag : String × String) {p p' : Progress} {u : Unit}
    (h : validateTag config projectId runId tag p = (.ok u, p')) : nameView p' = nameView p := by
  rw [validateTag_ok h]
  cases tagDrop config p.run.tagKeys p.project.tagPairs tag <;> rfl

theorem tagView_validateMetricName (name : String) {p p' : Progress} {u : Unit}
    (h : validateMetricName config runId name p = (.ok u, p')) : tagView p' = tagView p := by
  rw [validateMetricName_ok h]
  cases nameDrop config p.run.metricNames name <;> rfl

theorem forM_view {α σ ε γ : Type} {view : σ → γ} {f : α → Command σ ε Unit}
    (hf : ∀ a s u s', f a s = (.ok u, s') → view s' = view s) {as : List α} {s s' : σ} {u : Unit}
    (h : as.forM f s = (.ok u, s')) : view s' = view s := by
  induction as generalizing s with
  | nil =>
      obtain ⟨-, rfl⟩ := pure_eq_ok h
      rfl
  | cons a as ih =>
      obtain ⟨v, s₁, hstep, hrest⟩ := bind_eq_ok h
      exact (ih hrest).trans (hf a s v s₁ hstep)

theorem knownPairs_validateBatch (tracker : CardinalityTracker) :
    knownPairs (validateBatch config projectId runId tags names tracker).2 projectId =
      (validateItems config projectId runId tags names
        ⟨known tracker runId, knownPairs tracker projectId, {}⟩).2.project := by
  simp [known, knownPairs, validateBatch]

theorem knownPairs_validateBatch_other (tracker : CardinalityTracker) {other : String} (h : other ≠ projectId) :
    knownPairs (validateBatch config projectId runId tags names tracker).2 other = knownPairs tracker other := by
  simp [knownPairs, validateBatch, Function.update_of_ne h]

theorem validateBatch_ok (h : validateBatch config projectId runId tags names tracker = (.ok result, tracker')) :
    ∃ p, validateItems config projectId runId tags names ⟨known tracker runId, knownPairs tracker projectId, {}⟩ =
      (.ok (), p) ∧ result = p.result ∧ known tracker' runId = p.run ∧
        knownPairs tracker' projectId = p.project := by
  have hresult := result_validateBatch h
  have hknown := @known_validateBatch config projectId runId tags names tracker
  have hpairs := @knownPairs_validateBatch config projectId runId tags names tracker
  rw [h] at hknown hpairs
  have hfirst : (validateItems config projectId runId tags names
      ⟨known tracker runId, knownPairs tracker projectId, {}⟩).1.map (fun _ => _) = .ok result :=
        congrArg Prod.fst h
  refine ⟨_, Prod.ext ?_ rfl, hresult, hknown, hpairs⟩
  cases hend : (validateItems config projectId runId tags names
      ⟨known tracker runId, knownPairs tracker projectId, {}⟩).1 with
  | error e =>
      rw [hend] at hfirst
      cases hfirst
  | ok u => rfl

theorem lawful_validateBatch (h : validateBatch config projectId runId tags names tracker = (.ok result, tracker')) :
    Lawful config tracker tracker' projectId runId tags names result := by
  obtain ⟨p, hitems, rfl, hknown, hpairs⟩ := validateBatch_ok h
  obtain ⟨u, p₁, htags, hnames⟩ := bind_eq_ok hitems
  obtain ⟨hsets, haccepted, hdropped⟩ := sifts_validateTag.forM htags
  obtain ⟨hmetricNames, hmetrics, hlost⟩ := sifts_validateMetricName.forM hnames
  have htagView := forM_view (fun name _ _ _ hstep => tagView_validateMetricName name hstep) hnames
  have hnameView := forM_view (fun tag _ _ _ hstep => nameView_validateTag tag hstep) htags
  obtain ⟨htagSets, htagLists⟩ := Prod.mk.inj htagView
  obtain ⟨hacceptedTags, hdroppedTags⟩ := Prod.mk.inj htagLists
  obtain ⟨hnameSets, hnameLists⟩ := Prod.mk.inj hnameView
  obtain ⟨hacceptedNames, hdroppedNames⟩ := Prod.mk.inj hnameLists
  refine ⟨⟨sieve (fun sets tag => tagDrop config sets.1 sets.2 tag) takeTag (tagSets tracker projectId runId) tags,
    sieve_items, ?_, ?_, ?_, ?_⟩, ⟨sieve (nameDrop config) takeName (known tracker runId).metricNames names,
    sieve_items, ?_, ?_, ?_, ?_⟩, ?_, ?_⟩
  · exact hacceptedTags.trans haccepted
  · exact hdroppedTags.trans hdropped
  · rw [tagSets, hknown, hpairs]
    exact htagSets.trans hsets
  · intro before tag reason rest hsplit
    rw [sieve_split hsplit]
    exact judgedTag _ tag
  · rw [hmetrics, hacceptedNames, hnameSets]
    rfl
  · rw [hlost, hdroppedNames, hnameSets]
    rfl
  · rw [hknown, hmetricNames, hnameSets]
  · intro before name reason rest hsplit
    rw [sieve_split hsplit]
    exact judgedName _ name
  · intro other hother
    have hsame := @known_validateBatch_other config projectId runId tags names tracker other hother
    rwa [h] at hsame
  · intro other hother
    have hsame := @knownPairs_validateBatch_other config projectId runId tags names tracker other hother
    rwa [h] at hsame

end Call

/-! What every run of calls keeps. -/

section Runs

theorem keeps_tagPairs (tag : String × String) : Keeps
    (fun p : Progress => p.project.tagPairs.card ≤ config.maxTagsPerProject)
      (validateTag config projectId runId tag) := by
  constructor
  intro p h
  simp only [validateTag]
  split
  · cases excerpt tag.1 with
    | none => exact h
    | some text => exact h
  split
  · exact h
  split
  · exact h
  split
  · exact h
  · rename_i hroom
    exact card_insert_le_of_room hroom h

theorem grows_tagPairs (pairs : Finset (String × String)) (tag : String × String) : Keeps
    (fun p : Progress => pairs ⊆ p.project.tagPairs) (validateTag config projectId runId tag) := by
  constructor
  intro p h
  simp only [validateTag]
  split
  · cases excerpt tag.1 with
    | none => exact h
    | some text => exact h
  split
  · exact h
  split
  · exact h
  split
  · exact h
  · exact h.trans (Finset.subset_insert _ _)

theorem leaves_project (name : String) : Leaves Progress.project (validateMetricName config runId name) := by
  constructor
  intro p
  simp only [validateMetricName]
  split
  · cases excerpt name with
    | none => rfl
    | some text => rfl
  split <;> rfl

theorem keeps_project {I : ProjectCardinality → Prop} (htag : ∀ tag, Keeps (fun p : Progress => I p.project)
    (validateTag config projectId runId tag)) :
    Keeps (fun p : Progress => I p.project) (validateItems config projectId runId tags names) := by
  apply keeps_bind
  · exact triple_forM (fun tag _ => htag tag)
  · intro _
    exact triple_forM (fun name _ => (leaves_project name).keeps (fun p p' h hp => h ▸ hp))

theorem known_clearRun (tracker : CardinalityTracker) (runId : String) :
    known (tracker.clearRun runId) runId = {} := by
  have hnone : (tracker.clearRun runId).runs runId = none := Function.update_self _ _ _
  rw [known, hnone]
  rfl

theorem known_clearRun_other {other : String} (h : other ≠ runId) :
    known (tracker.clearRun runId) other = known tracker other := by
  have hsame : (tracker.clearRun runId).runs other = tracker.runs other := Function.update_of_ne h _ _
  rw [known, hsame]
  rfl

theorem withinCaps_step {op : Op} (h : WithinCaps config tracker) :
    WithinCaps config (step config tracker op).2 := by
  cases op with
  | clearRun runId =>
      have hknown : ∀ other, known (tracker.clearRun runId) other = {} ∨
          known (tracker.clearRun runId) other = known tracker other := by
        intro other
        by_cases hid : other = runId
        · rw [hid]
          exact .inl (known_clearRun tracker runId)
        · exact .inr (known_clearRun_other hid)
      change WithinCaps config (tracker.clearRun runId)
      refine ⟨?_, ?_, h.tagPairs⟩
      · intro other
        rcases hknown other with hempty | hsame
        · rw [hempty]
          exact Nat.zero_le _
        · rw [hsame]
          exact h.tagKeys other
      · intro other
        rcases hknown other with hempty | hsame
        · rw [hempty]
          exact Nat.zero_le _
        · rw [hsame]
          exact h.metricNames other
  | validateBatch projectId runId tags names =>
      have htracks := @tracks_validateBatch config projectId runId tags names tracker
      change WithinCaps config (validateBatch config projectId runId tags names tracker).2
      refine ⟨?_, ?_, ?_⟩
      · intro other
        by_cases hid : other = runId
        · rw [hid, known_validateBatch]
          exact htracks.tagKeys (h.tagKeys runId)
        · rw [known_validateBatch_other tracker hid]
          exact h.tagKeys other
      · intro other
        by_cases hid : other = runId
        · rw [hid, known_validateBatch]
          exact htracks.metricNames (h.metricNames runId)
        · rw [known_validateBatch_other tracker hid]
          exact h.metricNames other
      · intro other
        by_cases hid : other = projectId
        · rw [hid, knownPairs_validateBatch]
          exact (keeps_project (I := fun project => project.tagPairs.card ≤
            config.maxTagsPerProject) keeps_tagPairs).after (fun _ _ hp => hp) (fun _ hp => hp) (h.tagPairs projectId)
        · rw [knownPairs_validateBatch_other tracker hid]
          exact h.tagPairs other

theorem withinCaps_after (config : LimitsConfig) (ops : List Op) :
    WithinCaps config (after (step config) .empty ops) := by
  apply invariant_history (G := fun _ _ _ => True) (fun _ => WithinCaps config)
    (fun _ _ _ h _ => withinCaps_step h) [] _ ops ?_ (guarded_true _ _ _ _)
  exact ⟨fun _ => Nat.zero_le _, fun _ => Nat.zero_le _, fun _ => Nat.zero_le _⟩

theorem knownPairs_grows (op : Op) (projectId : String) :
    (knownPairs tracker projectId).tagPairs ⊆ (knownPairs (step config tracker op).2 projectId).tagPairs := by
  cases op with
  | clearRun runId => exact subset_rfl
  | validateBatch id runId tags names =>
      change _ ⊆ (knownPairs (validateBatch config id runId tags names tracker).2 projectId).tagPairs
      by_cases hid : projectId = id
      · rw [← hid, knownPairs_validateBatch]
        exact (keeps_project (I := fun project => (knownPairs tracker projectId).tagPairs ⊆ project.tagPairs)
          (grows_tagPairs _)).after (fun _ _ hp => hp) (fun _ hp => hp) subset_rfl
      · rw [knownPairs_validateBatch_other tracker hid]

theorem known_grows {op : Op} (hop : op ≠ .clearRun runId) :
    (known tracker runId).tagKeys ⊆ (known (step config tracker op).2 runId).tagKeys ∧
      (known tracker runId).metricNames ⊆ (known (step config tracker op).2 runId).metricNames := by
  cases op with
  | clearRun id =>
      have hid : runId ≠ id := fun heq => hop (heq ▸ rfl)
      have hsame : known (tracker.clearRun id) runId = known tracker runId := known_clearRun_other hid
      change _ ⊆ (known (tracker.clearRun id) runId).tagKeys ∧ _ ⊆ (known (tracker.clearRun id) runId).metricNames
      rw [hsame]
      exact ⟨subset_rfl, subset_rfl⟩
  | validateBatch projectId id tags names =>
      have htracks := @tracks_validateBatch config projectId id tags names tracker
      change _ ⊆ (known (validateBatch config projectId id tags names tracker).2 runId).tagKeys ∧
        _ ⊆ (known (validateBatch config projectId id tags names tracker).2 runId).metricNames
      by_cases hid : runId = id
      · rw [hid, known_validateBatch]
        exact ⟨htracks.tagKeysGrow, htracks.metricNamesGrow⟩
      · rw [known_validateBatch_other tracker hid]
        exact ⟨subset_rfl, subset_rfl⟩

theorem knownPairs_after (ops : List Op) (tracker : CardinalityTracker) (projectId : String) :
    (knownPairs tracker projectId).tagPairs ⊆ (knownPairs (after (step config) tracker ops) projectId).tagPairs := by
  induction ops generalizing tracker with
  | nil => exact subset_rfl
  | cons op ops ih => exact (knownPairs_grows op projectId).trans (ih _)

theorem known_after {ops : List Op} (hops : .clearRun runId ∉ ops) (tracker : CardinalityTracker) :
    (known tracker runId).tagKeys ⊆ (known (after (step config) tracker ops) runId).tagKeys ∧
      (known tracker runId).metricNames ⊆ (known (after (step config) tracker ops) runId).metricNames := by
  induction ops generalizing tracker with
  | nil => exact ⟨subset_rfl, subset_rfl⟩
  | cons op ops ih =>
      have hop : op ≠ .clearRun runId := fun heq => hops (heq ▸ List.mem_cons_self)
      obtain ⟨hkeys, hnames⟩ := @known_grows config runId tracker op hop
      obtain ⟨hkeys', hnames'⟩ := ih (fun hmem => hops (List.mem_cons_of_mem _ hmem)) (step config tracker op).2
      exact ⟨hkeys.trans hkeys', hnames.trans hnames'⟩

theorem mem_taken_pairs {fates : List ((String × String) × Option TagDrop)} {tag : String × String}
    {sets : Finset String × Finset (String × String)} (h : tag ∈ sets.2 ∨ tag ∈ kept fates) :
    tag ∈ (taken takeTag sets fates).2 := by
  induction fates generalizing sets with
  | nil => exact h.resolve_right List.not_mem_nil
  | cons fate fates ih =>
      obtain ⟨other, reason⟩ := fate
      rw [taken]
      apply ih
      cases reason with
      | none =>
          rw [kept_taken] at h
          rcases h with hold | hnew
          · exact .inl (Finset.mem_insert_of_mem hold)
          · rcases List.mem_cons.1 hnew with rfl | hnew
            · exact .inl (Finset.mem_insert_self _ _)
            · exact .inr hnew
      | some reason =>
          rw [kept_lost] at h
          exact h

theorem remembers (config : LimitsConfig) (ops : List Op) : Remembers config ops := by
  rintro before later projectId runId tags names result rfl hresult
  have hvalid : validateBatch config projectId runId tags names (after (step config) .empty before) =
      (.ok result, (step config (after (step config) .empty before)
        (.validateBatch projectId runId tags names)).2) := Prod.ext (Reply.validated.inj hresult) rfl
  rw [after_append, after_cons]
  obtain ⟨hkeys, hnames⟩ := accepted_mem hvalid
  obtain ⟨fates, -, haccepted, -, hsets, -⟩ := (lawful_validateBatch hvalid).tags
  constructor
  · intro tag htag
    rw [haccepted] at htag
    have hpair : tag ∈ (taken takeTag (tagSets (after (step config) .empty before) projectId runId) fates).2 :=
      mem_taken_pairs (.inr htag)
    rw [← hsets] at hpair
    exact knownPairs_after later _ projectId hpair
  · intro hlater
    obtain ⟨hkeysGrow, hnamesGrow⟩ := @known_after config runId later hlater
      (step config (after (step config) .empty before) (.validateBatch projectId runId tags names)).2
    exact ⟨fun tag htag => hkeysGrow (hkeys tag htag).2, fun name hname => hnamesGrow (hnames name hname).2⟩

variable (config) in
/-- Every call of a run returns, and treats its items lawfully. -/
def ReturnsLawfully (ops : List Op) : Prop :=
  ∀ before later projectId runId tags names, ops = before ++ .validateBatch projectId runId tags names :: later →
    ∃ result tracker', validateBatch config projectId runId tags names (after (step config) .empty before) =
        (.ok result, tracker') ∧
      Lawful config (after (step config) .empty before) tracker' projectId runId tags names result

/-- The sets stay within the caps in every run and what was accepted is known. All calls return and
treat their items lawfully just when the texts that their warnings cut can be cut where they are. -/
theorem tracker_lawful_iff (config : LimitsConfig) (ops : List Op) :
    (WithinCaps config (after (step config) .empty ops) ∧ Remembers config ops) ∧
      (ReturnsLawfully config ops ↔ ∀ projectId runId tags names,
        .validateBatch projectId runId tags names ∈ ops →
        (∀ tag ∈ tags, Citable config.maxTagKeyLength tag.1) ∧
          ∀ name ∈ names, Citable config.maxMetricNameLength name) := by
  refine ⟨⟨withinCaps_after config ops, remembers config ops⟩, ?_, ?_⟩
  · intro h projectId runId tags names hop
    obtain ⟨before, later, hsplit⟩ := List.append_of_mem hop
    obtain ⟨result, tracker', hresult, -⟩ := h before later projectId runId tags names hsplit
    simp only [← quotable_iff]
    exact (returns_iff_quotable _).1 ⟨result, congrArg Prod.fst hresult⟩
  · rintro h before later projectId runId tags names rfl
    have hcitable := h projectId runId tags names (List.mem_append_right _ List.mem_cons_self)
    simp only [← quotable_iff] at hcitable
    obtain ⟨result, hresult⟩ := (returns_iff_quotable (after (step config) .empty before)).2 hcitable
    have hcall : validateBatch config projectId runId tags names (after (step config) .empty before) =
        (.ok result, (validateBatch config projectId runId tags names (after (step config) .empty before)).2) :=
      Prod.ext hresult rfl
    exact ⟨result, _, hcall, lawful_validateBatch hcall⟩

theorem cutName_unlawful : ¬ ReturnsLawfully {} [.validateBatch "p" "r" [] [cutName]] := by
  intro h
  obtain ⟨result, tracker', hresult, -⟩ := h [] [] "p" "r" [] [cutName] rfl
  obtain ⟨-, hnames⟩ := (returns_iff_quotable .empty).1 ⟨result, congrArg Prod.fst hresult⟩
  have hsome := hnames cutName (List.mem_singleton_self cutName) (byteLength_cutName ▸ by decide)
  rw [excerpt_cutName] at hsome
  cases hsome

end Runs

end MLRunX.TrackerLaws
