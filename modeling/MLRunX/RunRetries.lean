import MLRunX.RunLifecycle

namespace MLRunX.RunRetries

open Commands Http Ingest IngestRequest MetadataKey RunInit RunLifecycle RunServer RunTables Runs Sqlite
  Statements Tables

/-- What a request for a run asks for: the run in the project that is named, and each
tag and each value of the configuration under its canonical key. -/
structure Initialized (req : InitRunHttpRequest) (runId : String) (db : Database) : Prop where
  run : ∃ run ∈ db.runs.rows, run.id = runId ∧ ∀ projectId, req.projectId = some projectId →
    run.projectId = projectId
  tags : ∀ tag ∈ req.tags, ∃ key, canonicalizeMetadataKey tag.1 "tags" = .ok key ∧
    ⟨runId, key, tag.2⟩ ∈ db.tags.rows
  config : ∀ param ∈ req.config, ∃ key, canonicalizeMetadataKey param.1 "parameters" = .ok key ∧
    ⟨runId, key, param.2.encoded⟩ ∈ db.params.rows

structure Consistent (req : InitRunHttpRequest) : Prop where
  tags : ∀ tag ∈ req.tags, ∀ tag' ∈ req.tags,
    canonicalizeMetadataKey tag.1 "tags" = canonicalizeMetadataKey tag'.1 "tags" → tag.2 = tag'.2
  config : ∀ param ∈ req.config, ∀ param' ∈ req.config,
    canonicalizeMetadataKey param.1 "parameters" = canonicalizeMetadataKey param'.1 "parameters" →
      param.2.encoded = param'.2.encoded

/-- The run is still to be made, of values that do not displace each other, or it is there as
the request wants it. -/
def Ready (req : InitRunHttpRequest) (runId : String) (db : Database) : Prop :=
  db.findRun runId = none ∧ Consistent req ∨ Initialized req runId db

theorem validateInitTag_ok {maxTagValueLen : Nat} {tag stored : String × String}
    (h : validateInitTag maxTagValueLen tag = .ok stored) :
    canonicalizeMetadataKey tag.1 "tags" = .ok stored.1 ∧ stored.2 = tag.2 := by
  unfold validateInitTag at h
  split at h
  · cases h
  · rename_i key hkey
    split at h
    · cases h
    · cases h
      exact ⟨hkey, rfl⟩

theorem validateInitParam_ok {param : String × ConfigValue} {stored : String × String}
    (h : validateInitParam param = .ok stored) :
    canonicalizeMetadataKey param.1 "parameters" = .ok stored.1 ∧ stored.2 = param.2.encoded := by
  unfold validateInitParam stringifyConfigParamValue at h
  split at h
  · cases h
  · rename_i key hkey
    split at h
    · cases h
    · rename_i text htext
      split at htext
      · cases htext
      · split at htext
        · cases htext
        · cases htext
          cases h
          exact ⟨hkey, rfl⟩

theorem stored_iff {α : Type} (key : α → Except String String) (value : α → String)
    (Stored : String → String → Prop) {validate : α → Answer (String × String)} {as : List α}
    {rows : List (String × String)} (hrows : as.mapM validate = .ok rows)
    (hvalidate : ∀ a row, validate a = .ok row → key a = .ok row.1 ∧ row.2 = value a)
    (hstored : (∀ row ∈ rows, Stored row.1 row.2) ↔ ∀ row ∈ rows, ∀ row' ∈ rows, row.1 = row'.1 →
      row.2 = row'.2) :
    (∀ a ∈ as, ∃ k, key a = .ok k ∧ Stored k (value a)) ↔ ∀ a ∈ as, ∀ b ∈ as, key a = key b →
      value a = value b := by
  have hto : ∀ a ∈ as, ∃ row ∈ rows, key a = .ok row.1 ∧ row.2 = value a := by
    intro a ha
    obtain ⟨row, hrow, hok⟩ := Fallible.mapM_exists hrows a ha
    exact ⟨row, hrow, hvalidate a row hok⟩
  have hfrom : ∀ row ∈ rows, ∃ a ∈ as, key a = .ok row.1 ∧ row.2 = value a := by
    intro row hrow
    obtain ⟨a, ha, hok⟩ := Fallible.exists_of_mapM hrows row hrow
    exact ⟨a, ha, hvalidate a row hok⟩
  constructor
  · intro h a ha b hb hkeys
    obtain ⟨row, hrow, hkey, hvalue⟩ := hto a ha
    obtain ⟨row', hrow', hkey', hvalue'⟩ := hto b hb
    have hsame : row.1 = row'.1 := Except.ok.inj (hkey.symm.trans (hkeys.trans hkey'))
    rw [← hvalue, ← hvalue']
    apply hstored.mp _ row hrow row' hrow' hsame
    intro row₁ hrow₁
    obtain ⟨a₁, ha₁, hkey₁, hvalue₁⟩ := hfrom row₁ hrow₁
    obtain ⟨k, hk, hthere⟩ := h a₁ ha₁
    obtain rfl := Except.ok.inj (hk.symm.trans hkey₁)
    rwa [hvalue₁]
  · intro h a ha
    obtain ⟨row, hrow, hkey, hvalue⟩ := hto a ha
    refine ⟨row.1, hkey, ?_⟩
    rw [← hvalue]
    apply hstored.mpr _ row hrow
    intro row₁ hrow₁ row₂ hrow₂ hsame
    obtain ⟨a₁, ha₁, hkey₁, hvalue₁⟩ := hfrom row₁ hrow₁
    obtain ⟨a₂, ha₂, hkey₂, hvalue₂⟩ := hfrom row₂ hrow₂
    rw [hvalue₁, hvalue₂]
    exact h a₁ ha₁ a₂ ha₂ (by rw [hkey₁, hkey₂, hsame])

theorem tags_setTags (runId : String) (tags : List (String × String)) (db : Database) :
    (db.setTags runId tags).tags = (tags.map (fun tag => TagRow.mk runId tag.1 tag.2)).foldl Table.replace db.tags := by
  induction tags generalizing db with
  | nil => rfl
  | cons tag tags ih => exact ih (db.setTag runId tag)

theorem params_setParams (runId : String) (params : List (String × String)) (db : Database) :
    (db.setParams runId params).params =
      (params.map (fun param => ParamRow.mk runId param.1 param.2)).foldl Table.replace db.params := by
  induction params generalizing db with
  | nil => rfl
  | cons param params ih => exact ih (db.setParam runId param)

theorem stored_setTags (runId : String) (tags : List (String × String)) (db : Database) :
    (∀ tag ∈ tags, ⟨runId, tag.1, tag.2⟩ ∈ (db.setTags runId tags).tags.rows) ↔
      ∀ tag ∈ tags, ∀ tag' ∈ tags, tag.1 = tag'.1 → tag.2 = tag'.2 := by
  have hrows := mem_foldl_replace_iff (fun a b (h : TagRow.clash a b) => ⟨h.1.symm, h.2.symm⟩) db.tags
    (tags.map (fun tag => TagRow.mk runId tag.1 tag.2))
  simp only [List.forall_mem_map] at hrows
  rw [tags_setTags, hrows]
  simp [TagRow.clash, imp_and]

theorem stored_setParams (runId : String) (params : List (String × String)) (db : Database) :
    (∀ param ∈ params, ⟨runId, param.1, param.2⟩ ∈ (db.setParams runId params).params.rows) ↔
      ∀ param ∈ params, ∀ param' ∈ params, param.1 = param'.1 → param.2 = param'.2 := by
  have hrows := mem_foldl_replace_iff (fun a b (h : ParamRow.clash a b) => ⟨h.1.symm, h.2.symm⟩) db.params
    (params.map (fun param => ParamRow.mk runId param.1 param.2))
  simp only [List.forall_mem_map] at hrows
  rw [params_setParams, hrows]
  simp [ParamRow.clash, imp_and]

/-- The run is in the project. -/
def InProject (runId projectId : String) (db : Database) : Prop :=
  ∃ run ∈ db.runs.rows, run.id = runId ∧ run.projectId = projectId

theorem createRun_ok {fault : Option String} {runId projectId : String} {name keyId userId : Option String}
    {u : Unit}
    {db db' : Database} (h : createRun fault runId projectId name keyId userId db = (.ok u, db')) :
    db.findRun runId = none ∧ db'.tags = db.tags ∧ db'.params = db.params ∧ InProject runId projectId db' := by
  have hinsert := execute_ok h
  split at hinsert
  · rename_i runs hruns
    obtain ⟨-, rfl⟩ := Prod.mk.inj (Except.ok.inj hinsert)
    obtain ⟨hrows, hfresh⟩ := insert_eq_some hruns
    refine ⟨find_none_iff.mpr (fun r hr => beq_eq_false_iff_ne.mpr (hfresh r hr)), rfl, rfl, ?_⟩
    exact ⟨_, hrows ▸ List.mem_concat_self, rfl, rfl⟩
  · cases hinsert

theorem runs_setTags (runId : String) (tags : List (String × String)) (db : Database) :
    (db.setTags runId tags).runs = db.runs ∧ (db.setTags runId tags).params = db.params := by
  induction tags generalizing db with
  | nil => exact ⟨rfl, rfl⟩
  | cons tag tags ih => exact ih (db.setTag runId tag)

theorem runs_setParams (runId : String) (params : List (String × String)) (db : Database) :
    (db.setParams runId params).runs = db.runs ∧ (db.setParams runId params).tags = db.tags := by
  induction params generalizing db with
  | nil => exact ⟨rfl, rfl⟩
  | cons param params ih => exact ih (db.setParam runId param)

theorem InProject.countParams {runId projectId : String} {db : Database} (h : InProject runId projectId db)
    (id : String) :
    InProject runId projectId (db.countParams id) := by
  obtain ⟨run, hrun, rfl, rfl⟩ := h
  exact ⟨_, List.mem_map_of_mem hrun, setWhere_keeps RunRow.id (by exact fun _ => rfl) run,
    setWhere_keeps RunRow.projectId (by exact fun _ => rfl) run⟩

section Init

variable {flags : Auth.EndpointRbacTier → Bool} {maxTagValueLen : Nat} {auth : Auth.AuthContext} {env : InitEnv}
  {req : InitRunHttpRequest} {runId projectId : String} {response : InitRunHttpResponse} {s s' : MetadataStore}

theorem onDb_ok {α : Type} {x : Statement α} {a : α} (h : internal (RunInit.onDb x) s = (.ok a, s')) :
    x s.db = (.ok a, s'.db) := by
  obtain ⟨db, hx, rfl⟩ := zoom_eq_ok (mapError_eq_ok h)
  exact hx

theorem insertRun_ok {name : Option String} {tags params : List (String × String)}
    (h : insertRun auth env runId projectId name tags params s = (.ok response, s')) :
    s.db.findRun runId = none ∧ s'.db.tags = (s.db.setTags runId tags).tags ∧
      s'.db.params = (s.db.setParams runId params).params ∧ InProject runId projectId s'.db := by
  obtain ⟨_, s₁, hcreate, h⟩ := bind_eq_ok h
  obtain ⟨_, s₂, hstamp, h⟩ := bind_eq_ok h
  obtain ⟨_, s₃, htags, h⟩ := bind_eq_ok h
  obtain ⟨_, s₄, hparams, h⟩ := bind_eq_ok h
  obtain ⟨_, s₅, hevent, hlast⟩ := bind_eq_ok h
  obtain ⟨-, rfl⟩ := pure_eq_ok hlast
  obtain ⟨hnone, htags₁, hparams₁, hmade⟩ := createRun_ok (onDb_ok hcreate)
  have hstamped : s₂.db = s₁.db := by rw [← (Prod.mk.inj hstamp).2]
  have htagged : s₃.db = s₂.db.setTags runId tags := by
    have htags := onDb_ok htags
    split at htags
    · rename_i hempty
      rw [List.isEmpty_iff.mp hempty]
      exact (pure_eq_ok htags).2
    · exact setTags_ok htags
  have hset : s₄.db.tags = s₃.db.tags ∧ s₄.db.params = (s₃.db.setParams runId params).params ∧
      (InProject runId projectId s₃.db → InProject runId projectId s₄.db) := by
    have hparams := onDb_ok hparams
    split at hparams
    · rename_i hempty
      rw [List.isEmpty_iff.mp hempty, (pure_eq_ok hparams).2]
      exact ⟨rfl, rfl, id⟩
    · obtain ⟨hruns, htags⟩ := runs_setParams runId params s₃.db
      rw [(insertParams_ok hparams).2]
      refine ⟨htags, rfl, fun h => InProject.countParams ?_ runId⟩
      rwa [InProject, hruns]
  have hnoted : ∃ events, s'.db = s₄.db.addEvents runId events := by
    obtain ⟨n, hadded⟩ := insertRunEvents_prefix env.faults.event runId
      [⟨"info", "system", "Run initialized", some 0, none⟩] s₄.db
    exact ⟨_, (congrArg MetadataStore.db (Prod.mk.inj hevent).2.symm).trans hadded⟩
  obtain ⟨events, hnoted⟩ := hnoted
  obtain ⟨htags₄, hparams₄, hmade₄⟩ := hset
  obtain ⟨hruns₃, hparams₃⟩ := runs_setTags runId tags s₁.db
  rw [hstamped] at htagged
  have htags₃ : s₃.db.tags = (s.db.setTags runId tags).tags := by
    rw [htagged, tags_setTags, tags_setTags, htags₁]
  have hparams₃ : s₃.db.params = s.db.params := by
    rw [htagged, hparams₃, hparams₁]
  have hmade₃ : InProject runId projectId s₃.db := by
    rwa [InProject, htagged, hruns₃]
  rw [hnoted]
  refine ⟨hnone, htags₄.trans htags₃, hparams₄.trans ?_, hmade₄ hmade₃⟩
  rw [params_setParams, params_setParams, hparams₃]

theorem resolveProject_ok (h : resolveProject env req s = (.ok projectId, s')) :
    req.projectId = some projectId := by
  cases hrequested : req.projectId with
  | none =>
      rw [resolveProject, hrequested] at h
      cases h
  | some requested =>
      rw [resolveProject, hrequested] at h
      obtain ⟨name, s₁, -, h⟩ := bind_eq_ok h
      cases name with
      | none => cases h
      | some name =>
          dsimp only at h
          split at h
          · rw [(pure_eq_ok h).1]
          · cases h

theorem startRun_ok (h : startRun flags maxTagValueLen auth env req runId s = (.ok response, s')) :
    ∃ projectId tags params s₁, req.projectId = some projectId ∧
      req.tags.mapM (validateInitTag maxTagValueLen) = .ok tags ∧ req.config.mapM validateInitParam = .ok params ∧
      s₁.db = s.db ∧ insertRun auth env runId projectId req.name tags params s₁ = (.ok response, s') := by
  obtain ⟨projectId, s₁, hproject, h⟩ := bind_eq_ok h
  obtain ⟨_, s₂, haccess, h⟩ := bind_eq_ok h
  obtain ⟨_, s₃, hrate, h⟩ := bind_eq_ok h
  obtain ⟨tags, s₄, htags, h⟩ := bind_eq_ok h
  obtain ⟨params, s₅, hparams, h⟩ := bind_eq_ok h
  have hdb : s₁.db = s.db := (congrArg (fun r => r.2.db) hproject).symm.trans
    ((leaves_resolveProject env req).shows s)
  obtain ⟨-, rfl⟩ := Prod.mk.inj haccess
  obtain ⟨-, rfl⟩ := Prod.mk.inj hrate
  obtain ⟨htagged, rfl⟩ := Prod.mk.inj htags
  obtain ⟨hset, rfl⟩ := Prod.mk.inj hparams
  exact ⟨projectId, tags, params, _, resolveProject_ok hproject, htagged, hset, hdb, h⟩

theorem initialized_iff_consistent (h : startRun flags maxTagValueLen auth env req runId s = (.ok response, s')) :
    Initialized req runId s'.db ↔ Consistent req := by
  obtain ⟨projectId, tags, params, s₁, hproject, htags, hparams, hdb, hinsert⟩ := startRun_ok h
  obtain ⟨-, htagged, hset, run, hrun, hid, hin⟩ := insertRun_ok hinsert
  have hrows := stored_setTags runId tags s₁.db
  have hrows' := stored_setParams runId params s₁.db
  rw [← htagged] at hrows
  rw [← hset] at hrows'
  have htag : (∀ tag ∈ req.tags, ∃ key, canonicalizeMetadataKey tag.1 "tags" = .ok key ∧
      (⟨runId, key, tag.2⟩ : TagRow) ∈ s'.db.tags.rows) ↔ ∀ tag ∈ req.tags, ∀ tag' ∈ req.tags,
        canonicalizeMetadataKey tag.1 "tags" = canonicalizeMetadataKey tag'.1 "tags" → tag.2 = tag'.2 := by
    apply stored_iff (fun tag => canonicalizeMetadataKey tag.1 "tags") Prod.snd
      (fun key value => (⟨runId, key, value⟩ : TagRow) ∈ s'.db.tags.rows) htags _ hrows
    exact fun _ _ => validateInitTag_ok
  have hparam : (∀ param ∈ req.config, ∃ key, canonicalizeMetadataKey param.1 "parameters" = .ok key ∧
      (⟨runId, key, param.2.encoded⟩ : ParamRow) ∈ s'.db.params.rows) ↔
        ∀ param ∈ req.config, ∀ param' ∈ req.config,
        canonicalizeMetadataKey param.1 "parameters" = canonicalizeMetadataKey param'.1 "parameters" →
          param.2.encoded = param'.2.encoded := by
    apply stored_iff (fun param => canonicalizeMetadataKey param.1 "parameters") (fun param => param.2.encoded)
      (fun name value => (⟨runId, name, value⟩ : ParamRow) ∈ s'.db.params.rows) hparams _ hrows'
    exact fun _ _ => validateInitParam_ok
  constructor
  · rintro ⟨-, hstored, hstored'⟩
    exact ⟨htag.mp hstored, hparam.mp hstored'⟩
  · rintro ⟨hone, hone'⟩
    refine ⟨⟨run, hrun, hid, ?_⟩, htag.mpr hone, hparam.mpr hone'⟩
    intro requested hrequested
    exact hin.trans (Option.some.inj (hproject.symm.trans hrequested))

theorem initialized_iff_ready (hid : req.runId.getD env.generatedId = runId)
    (h : httpInitRun flags maxTagValueLen auth env req s = (.ok response, s')) :
    Initialized req runId s'.db ↔ Ready req runId s.db := by
  subst hid
  cases hrun : s.db.findRun (req.runId.getD env.generatedId) with
  | none =>
      rw [httpInitRun_absent flags maxTagValueLen auth env req hrun] at h
      have habsent : ¬ Initialized req (req.runId.getD env.generatedId) s.db := by
        rintro ⟨⟨run, hmem, hid, -⟩, -, -⟩
        have hother := find_none_iff.mp hrun run hmem
        rw [hid, beq_self_eq_true] at hother
        cases hother
      rw [initialized_iff_consistent h, Ready, hrun]
      exact ⟨fun hone => .inl ⟨rfl, hone⟩, fun hready => (hready.resolve_right habsent).2⟩
  | some run =>
      have hsame : s'.db = s.db := (congrArg (fun r => r.2.db) h).symm.trans (httpInitRun_present hrun)
      rw [hsame, Ready, hrun]
      exact ⟨.inr, fun hready => hready.resolve_left (fun hnone => absurd hnone.1 (Option.some_ne_none run))⟩

end Init

/-- A run that is reported as initialised is there as it was asked for exactly when it
could be made so, or was so before. -/
theorem initialized_iff (env : Env) (s : Server) {auth : Auth.AuthContext} {initEnv : InitEnv}
    {req : InitRunHttpRequest}
    {runId : String} {response : InitRunHttpResponse} (hid : req.runId = some runId)
    (h : (step env s (.init auth initEnv req)).1 = .init (.ok response)) :
    Initialized req runId (step env s (.init auth initEnv req)).2.db ↔ Ready req runId s.db := by
  have hok := Reply.init.inj h
  exact initialized_iff_ready (s := ⟨s.store.ui, s.store.runTables, s.times⟩) (by rw [hid]; rfl) (Prod.ext hok rfl)

def taggedRun : InitRunHttpRequest :=
  ⟨some "r", some "p", none, none, [("team", "vision")], [("lr", ⟨1, "0.1"⟩)]⟩

def initTagged (faults : InitFaults) : Op := .init (.devMode 0) { generatedId := "g", now := "t", faults } taggedRun

theorem initialized_new :
    Initialized taggedRun "r" (step RetrySafety.devServer (.start projectStore) (initTagged {})).2.db :=
  (@initialized_iff RetrySafety.devServer (.start projectStore) (.devMode 0) { generatedId := "g", now :=
    "t" } taggedRun
    "r" ⟨"r", false⟩ rfl (congrArg Reply.init (by decide +kernel))).mpr
    (.inl ⟨by decide +kernel, by decide +kernel, by decide +kernel⟩)

def locked : InitFaults := { tags := fun _ => some "database is locked" }

theorem retried_without_tag :
    ∃ s, step RetrySafety.devServer (.start projectStore) (initTagged locked) = (.init (.error internalError), s) ∧
      (step RetrySafety.devServer s (initTagged {})).1 = .init (.ok ⟨"r", false⟩) ∧
        ¬ Initialized taggedRun "r" (step RetrySafety.devServer s (initTagged {})).2.db := by
  refine ⟨(step RetrySafety.devServer (.start projectStore) (initTagged locked)).2,
    Prod.ext (congrArg Reply.init (by decide +kernel)) rfl, congrArg Reply.init (by decide +kernel), ?_⟩
  intro h
  obtain ⟨key, -, hthere⟩ := h.tags ("team", "vision") List.mem_cons_self
  have hnone : (step RetrySafety.devServer (step RetrySafety.devServer (.start projectStore) (initTagged locked)).2
      (initTagged {})).2.db.tags.rows = [] := by
    decide +kernel
  rw [hnone] at hthere
  exact List.not_mem_nil hthere

end MLRunX.RunRetries
