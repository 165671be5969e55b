import MLRunX.ForeignKeys

namespace MLRunX.ProjectDeletion

open Atomicity Auth Commands Constraints ForeignKeys Http Ingest KeyCopies KeyServer Mutators Processor RunInit
  RunTables Runs
  Sqlite Statements Tables UiTables
open KeyStore hiding Op Reply step

structure Rest where
  metrics : List (String × MetricRow)
  tags : Table TagRow TagRow.clash
  params : Table ParamRow ParamRow.clash
  events : List (String × RunEventInput)
  ui : UiStore
  batches : Table BatchRow BatchRow.clash
  auditEvents : List AuditEventRow
  shareTokens : List ShareTokenRow
  metricAliases : List MetricAliasRow
  sequences : Sequences

def setRest (rest : Rest) (s : SqliteStore) : SqliteStore where
  runTables := ⟨s.runTables.runs, rest.metrics, rest.tags, rest.params, rest.events⟩
  ui := rest.ui
  apiKeys := s.apiKeys
  batches := rest.batches
  auditEvents := rest.auditEvents
  shareTokens := rest.shareTokens
  metricAliases := rest.metricAliases
  sequences := rest.sequences

def setRuns (runs : Table RunRow RunRow.clash) (s : SqliteStore) : SqliteStore :=
  { s with runTables := { s.runTables with runs } }

/-- What a statement may do to a run: its status, its counters and its times, not where it belongs. -/
structure RunUpdate where
  set : RunRow → RunRow
  id : ∀ r, (set r).id = r.id
  projectId : ∀ r, (set r).projectId = r.projectId
  createdByKeyId : ∀ r, (set r).createdByKeyId = r.createdByKeyId
  createdByUserId : ∀ r, (set r).createdByUserId = r.createdByUserId

def updateRuns (update : RunUpdate) (s : SqliteStore) : SqliteStore :=
  setRuns (s.runTables.runs.update update.set (fun a b h => by
    unfold RunRow.clash at h ⊢
    rwa [update.id, update.id] at h)) s

/-- Who starts a run: the holder of a key, or somebody without one. -/
inductive Caller
  | key (rawKey : String) (now : Nat) (faults : ValidateFaults)
  | keyless (auth : AuthContext) (h : (auth.isUiJwt || auth.isDevMode) = true)

def authenticate (H : Hashing) (s : Server) : Caller → Option AuthContext × Server
  | .key rawKey now faults =>
      let r := validateKey H faults rawKey now s.store
      (r.1.map AuthContext.ofApiKey, s.setStore r.2)
  | .keyless auth _ => (some auth, s)

def createRun (row : RunRow) (fault : Option String) : Mutation Unit := fun s =>
  match s.runTables.runs.insert row with
  | none => (.error (uniqueViolation "runs.id"), s)
  | some runs => enforced Referential refusal (fault, setRuns runs) s

def newRun (auth : AuthContext) (keyOwner : Option String) (runId projectId : String) (name : Option String) :
    RunRow where
  id := runId
  projectId := projectId
  name := name
  status := "running"
  createdByKeyId := (runCreator auth keyOwner).1
  createdByUserId := (runCreator auth keyOwner).2

def httpInitRun (flags : EndpointRbacTier → Bool) (auth : AuthContext) (keyOwner : Option String)
    (runId projectId : String)
    (name fault : Option String) : Command SqliteStore HttpError Unit := do
  let project ← mapError (fun _ => internalError)
    (query none (fun s : SqliteStore => s.ui.projects.find (fun r => r.id == projectId)))
  match project with
  | none => fail ⟨.notFound, s!"Project not found: '{projectId}'"⟩
  | some _ => do
      ofExcept (requireEndpointAccess auth flags .write (some projectId))
      mapError (fun _ => internalError) (createRun (newRun auth keyOwner runId projectId name) fault)

/-- What happens to the tables and the keys. Where a project, a user, a membership, an alias, a share token,
an audit event or the data of a run is written, the other tables become whatever the foreign keys allow. -/
inductive Op
  | createKey (rawKey : String) (projectId name : Option String) (scopes : List String) (expiresInSeconds : Option Nat)
      (createdByUserId : Option String) (gen : KeyGen) (fault : Option String)
  | validateKey (rawKey : String) (now : Nat) (faults : ValidateFaults)
  | revokeKey (keyHash : String) (now : Nat) (fault : Bool)
  | initRun (caller : Caller) (keyOwner : Option String) (runId projectId : String) (name fault : Option String)
  | updateRuns (update : RunUpdate) (fault : Option String)
  | write (rest : Rest) (fault : Option String)
  | deleteRun (faults : Nat → Option String) (runId : String)
  | deleteProject (faults : DeleteProjectFaults) (projectId : String)

variable (H : Hashing) (flags : EndpointRbacTier → Bool)

def onStore (x : SqliteStore → SqliteStore) (s : Server) : Server := { s with sqlite := x s.sqlite }

def step : Machine Server Op Unit
  | s, .createKey rawKey projectId name scopes expiresIn owner gen fault =>
      ((), s.setStore (createKeyWithOwner H projectId name scopes expiresIn owner gen rawKey
        (ownedFault s.sqlite projectId owner fault) s.store).2)
  | s, .validateKey rawKey now faults => ((), s.setStore (KeyStore.validateKey H faults rawKey now s.store).2)
  | s, .revokeKey keyHash now fault => ((), s.setStore (KeyStore.revokeKey keyHash now fault s.store).2)
  | s, .initRun caller keyOwner runId projectId name fault =>
      let r := authenticate H s caller
      match r.1 with
      | none => ((), r.2)
      | some auth => ((), onStore (fun db => (httpInitRun flags auth keyOwner runId projectId name fault db).2) r.2)
  | s, .updateRuns update fault =>
      ((), onStore (fun db => (enforced Referential refusal (fault, ProjectDeletion.updateRuns update) db).2) s)
  | s, .write rest fault => ((), onStore (fun db => (enforced Referential refusal (fault, setRest rest) db).2) s)
  | s, .deleteRun faults runId => ((), onStore (fun db => (ForeignKeys.deleteRun faults runId db).2) s)
  | s, .deleteProject faults projectId => ((), onStore (fun db => (ForeignKeys.deleteProject faults projectId db).2) s)

def empty : Server where
  sqlite := ⟨.empty, .empty, .empty, .empty, [], [], [], {}⟩
  keys := []

def Fresh (_ : List (Op × Unit)) (s : Server) : Op → Prop
  | .createKey _ _ _ _ _ _ gen _ => Copies (fun c => c.id ≠ gen.id) s.store
  | _ => True

/-- The project that each key is for, and runs that were created with keys for their own project or for all. -/
structure Scoped (scope : String → Option String) (s : Server) : Prop where
  copies : Copies (fun c => scope c.id = c.projectId) s.store
  runs : ∀ r ∈ s.sqlite.runTables.runs.rows, ∀ keyId, r.createdByKeyId = some keyId →
    scope keyId = none ∨ scope keyId = some r.projectId

/-- The references hold, and no run was created with a key for another project. -/
structure Sound (s : Server) : Prop where
  referential : Referential s.sqlite
  scopes : ∃ scope, Scoped scope s

theorem Sound.keysInside {s : Server} (h : Sound s) (projectId : String) : KeysInside projectId s.sqlite := by
  obtain ⟨scope, hscoped⟩ := h.scopes
  intro r hr k hk hcreated hproject
  have hscope : scope k.id = some projectId := (hscoped.copies.rows k hk).trans hproject
  rcases hscoped.runs r hr k.id hcreated with hnone | hsome
  · rw [hscope] at hnone
    cases hnone
  · exact (Option.some.inj (hscope.symm.trans hsome)).symm

theorem sound_empty : Sound empty where
  referential := by constructor <;> exact fun _ hr => absurd hr List.not_mem_nil
  scopes := ⟨fun _ => none, ⟨fun _ hr => absurd hr List.not_mem_nil, fun _ hr => absurd hr List.not_mem_nil⟩,
    fun _ hr => absurd hr List.not_mem_nil⟩

/-- A key row after a statement that leaves what it refers to. -/
structure SameRefs (r r' : ApiKeyRow) : Prop where
  id : r'.id = r.id
  projectId : r'.projectId = r.projectId
  createdByUserId : r'.createdByUserId = r.createdByUserId

theorem sameRefs_rfl {r : ApiKeyRow} : SameRefs r r := ⟨rfl, rfl, rfl⟩

variable {H flags} {s : Server}

theorem acceptRow_rows (fault : Bool) (raw : String) (now : Nat) (store : ApiKeyStore) (row : ApiKeyRow) :
    ∃ f, (acceptRow H fault raw now store row).2.table.rows = store.table.rows.map f ∧ ∀ r, SameRefs r (f r) := by
  have hsame : ∃ f, store.table.rows = store.table.rows.map f ∧ ∀ r, SameRefs r (f r) :=
    ⟨id, (List.map_id _).symm, fun _ => sameRefs_rfl⟩
  unfold acceptRow
  split
  · exact hsame
  split
  · exact hsame
  split
  · exact hsame
  split
  · exact hsame
  · refine ⟨_, rfl, fun r => ?_⟩
    split
    · exact ⟨rfl, rfl, rfl⟩
    · exact sameRefs_rfl

theorem validateKey_rows (faults : ValidateFaults) (raw : String) (now : Nat) (store : ApiKeyStore) :
    ∃ f, (KeyStore.validateKey H faults raw now store).2.table.rows = store.table.rows.map f ∧
      ∀ r, SameRefs r (f r) := by
  unfold KeyStore.validateKey
  split
  · exact acceptRow_rows _ _ _ _ _
  · split
    · exact acceptRow_rows _ _ _ _ _
    · refine ⟨id, ?_, fun _ => sameRefs_rfl⟩
      unfold validateInMemory
      split
      · exact (List.map_id _).symm
      · exact (List.map_id _).symm

theorem revokeKey_rows (keyHash : String) (now : Nat) (fault : Bool) (store : ApiKeyStore) :
    ∃ f, (KeyStore.revokeKey keyHash now fault store).2.table.rows = store.table.rows.map f ∧
      ∀ r, SameRefs r (f r) := by
  unfold KeyStore.revokeKey
  split
  · refine ⟨_, rfl, fun r => ?_⟩
    split
    · exact ⟨rfl, rfl, rfl⟩
    · exact sameRefs_rfl
  · exact ⟨id, (List.map_id _).symm, fun _ => sameRefs_rfl⟩

theorem referential_mapKeys (h : Referential s.sqlite) {store : ApiKeyStore}
    (hrows : ∃ f, store.table.rows = s.sqlite.apiKeys.rows.map f ∧ ∀ r, SameRefs r (f r)) :
    Referential (s.setStore store).sqlite := by
  obtain ⟨f, hrows, hf⟩ := hrows
  have hkeys : ∀ o : Option String, o.all (hasKey s.sqlite) = true →
      o.all (hasKey (s.setStore store).sqlite) = true := by
    intro o ho
    apply Option.all_eq_true _ _ |>.mpr
    intro id hid
    obtain ⟨r, hr, rfl⟩ := hasKey_iff.mp ((Option.all_eq_true _ _).mp ho id hid)
    refine hasKey_iff.mpr ⟨f r, ?_, (hf r).id⟩
    change f r ∈ store.table.rows
    rw [hrows]
    exact List.mem_map_of_mem hr
  have hold : ∀ r ∈ (s.setStore store).sqlite.apiKeys.rows, ∃ r₀ ∈ s.sqlite.apiKeys.rows,
      SameRefs r₀ r := by
    intro r hr
    change r ∈ store.table.rows at hr
    rw [hrows] at hr
    obtain ⟨r₀, hr₀, rfl⟩ := List.mem_map.mp hr
    exact ⟨r₀, hr₀, hf r₀⟩
  refine { h with
    runsKey := fun r hr => hkeys _ (h.runsKey r hr)
    auditKey := fun r hr => hkeys _ (h.auditKey r hr)
    keysProject := ?_
    keysUser := ?_ }
  · intro r hr
    obtain ⟨r₀, hr₀, hsame⟩ := hold r hr
    rw [hsame.projectId]
    exact h.keysProject r₀ hr₀
  · intro r hr
    obtain ⟨r₀, hr₀, hsame⟩ := hold r hr
    rw [hsame.createdByUserId]
    exact h.keysUser r₀ hr₀

theorem referential_insertKey (h : Referential s.sqlite) {row : ApiKeyRow} {keys : List ApiKey}
    {fault : Option String} :
    Referential (s.setStore ⟨(insertApiKey (ownedFault s.sqlite row.projectId row.createdByUserId fault)
      s.sqlite.apiKeys row).toOption.getD s.sqlite.apiKeys, keys⟩).sqlite := by
  cases hinsert : insertApiKey (ownedFault s.sqlite row.projectId row.createdByUserId fault) s.sqlite.apiKeys row with
  | error e => exact h
  | ok table =>
      obtain ⟨hnone, hrun⟩ := statement_eq_ok.mp hinsert
      have howned : (row.projectId.all (hasProject s.sqlite) && row.createdByUserId.all (hasUser s.sqlite)) = true := by
        by_contra hmissing
        rw [ownedFault, if_neg hmissing] at hnone
        cases hnone
      rw [Bool.and_eq_true] at howned
      have hrows : table.rows = s.sqlite.apiKeys.rows ++ [row] := by
        split at hrun
        · rename_i hnew
          obtain rfl := Except.ok.inj hrun
          exact (insert_eq_some hnew).1
        · cases hrun
      have hkeys : ∀ o : Option String, o.all (hasKey s.sqlite) = true →
          o.all (hasKey (s.setStore ⟨table, keys⟩).sqlite) = true := by
        intro o ho
        apply Option.all_eq_true _ _ |>.mpr
        intro id hid
        obtain ⟨r, hr, rfl⟩ := hasKey_iff.mp ((Option.all_eq_true _ _).mp ho id hid)
        refine hasKey_iff.mpr ⟨r, ?_, rfl⟩
        change r ∈ table.rows
        rw [hrows]
        exact List.mem_append_left _ hr
      have hcases : ∀ r ∈ table.rows, r ∈ s.sqlite.apiKeys.rows ∨ r = row := by
        intro r hr
        rw [hrows, List.mem_append, List.mem_singleton] at hr
        exact hr
      refine { h with
        runsKey := fun r hr => hkeys _ (h.runsKey r hr)
        auditKey := fun r hr => hkeys _ (h.auditKey r hr)
        keysProject := ?_
        keysUser := ?_ }
      · intro r hr
        rcases hcases r hr with hr | rfl
        · exact h.keysProject r hr
        · exact howned.1
      · intro r hr
        rcases hcases r hr with hr | rfl
        · exact h.keysUser r hr
        · exact howned.2

theorem Scoped.setStore {scope : String → Option String} (h : Scoped scope s) {store : ApiKeyStore}
    (hcopies : Copies (fun c => scope c.id = c.projectId) store) : Scoped scope (s.setStore store) :=
  ⟨hcopies, h.runs⟩

theorem ages_scope {scope : String → Option String} (r r' : ApiKeyRow) (h : Ages r r')
    (hr : scope r.id = r.projectId) :
    scope r'.id = r'.projectId := by rw [h.id, h.projectId, hr]

theorem Scoped.extend {scope : String → Option String} (h : Scoped scope s) (href : Referential s.sqlite)
    {id : String}
    (hnew : Copies (fun c => c.id ≠ id) s.store) (projectId : Option String) :
    Scoped (Function.update scope id projectId) s where
  copies := by
    refine ⟨fun r hr => ?_, fun k hk => ?_⟩
    · rw [Function.update_of_ne (hnew.rows r hr)]
      exact h.copies.rows r hr
    · obtain ⟨fingerprint, hne⟩ := hnew.keys k hk
      obtain ⟨fingerprint', hscope⟩ := h.copies.keys k hk
      exact ⟨fingerprint', (Function.update_of_ne hne projectId scope).trans hscope⟩
  runs := by
    intro r hr keyId hcreated
    obtain ⟨k, hk, rfl⟩ := hasKey_iff.mp ((Option.all_eq_true _ _).mp (href.runsKey r hr) keyId hcreated)
    rw [Function.update_of_ne (hnew.rows k hk)]
    exact h.runs r hr k.id hcreated

theorem sound_createKey (h : Sound s) (rawKey : String) (projectId name : Option String) (scopes : List String)
    (expiresIn : Option Nat) (owner : Option String) (gen : KeyGen) (fault : Option String)
    (hfresh : Copies (fun c => c.id ≠ gen.id) s.store) :
    Sound (step H flags s (.createKey rawKey projectId name scopes expiresIn owner gen fault)).2 := by
  obtain ⟨scope, hscoped⟩ := h.scopes
  have hextended := hscoped.extend h.referential hfresh projectId
  refine ⟨?_, Function.update scope gen.id projectId, hextended.setStore ?_⟩
  · exact @referential_insertKey s h.referential ⟨{ createKeyFromRaw H gen rawKey projectId name scopes
      (expiresIn.map (gen.now + ·)) with createdByUserId := owner }, some (hashWithHmac H rawKey)⟩ _ fault
  · exact hextended.copies.createKeyWithOwner projectId name scopes expiresIn owner gen rawKey _
      (Function.update_self gen.id projectId scope)

theorem sound_setStore (h : Sound s) {store : ApiKeyStore}
    (hrows : ∃ f, store.table.rows = s.sqlite.apiKeys.rows.map f ∧ ∀ r, SameRefs r (f r))
    (hcopies : ∀ scope : String → Option String, Copies (fun c => scope c.id = c.projectId) s.store →
      Copies (fun c => scope c.id = c.projectId) store) : Sound (s.setStore store) := by
  obtain ⟨scope, hscoped⟩ := h.scopes
  exact ⟨referential_mapKeys h.referential hrows, scope, hscoped.setStore (hcopies scope hscoped.copies)⟩

theorem sound_validateKey (h : Sound s) (rawKey : String) (now : Nat) (faults : ValidateFaults) :
    Sound (s.setStore (KeyStore.validateKey H faults rawKey now s.store).2) :=
  sound_setStore h (validateKey_rows faults rawKey now s.store)
    (fun _ hcopies => hcopies.validateKey ages_scope faults rawKey now)

theorem sound_revokeKey (h : Sound s) (keyHash : String) (now : Nat) (fault : Bool) :
    Sound (s.setStore (KeyStore.revokeKey keyHash now fault s.store).2) :=
  sound_setStore h (revokeKey_rows keyHash now fault s.store)
    (fun _ hcopies => hcopies.revokeKey ages_scope keyHash now fault)

theorem sound_onStore (h : Sound s) {α : Type} {x : Mutation α} (href : Referential (x s.sqlite).2)
    (hruns : ∀ r ∈ (x s.sqlite).2.runTables.runs.rows, ∃ r₀ ∈ s.sqlite.runTables.runs.rows,
      r.createdByKeyId = r₀.createdByKeyId ∧ r.projectId = r₀.projectId)
    (hkeys : ∀ k ∈ (x s.sqlite).2.apiKeys.rows, k ∈ s.sqlite.apiKeys.rows) :
    Sound (onStore (fun db => (x db).2) s) := by
  obtain ⟨scope, hscoped⟩ := h.scopes
  refine ⟨href, scope, ⟨fun k hk => hscoped.copies.rows k (hkeys k hk), hscoped.copies.keys⟩, ?_⟩
  intro r hr keyId hcreated
  obtain ⟨r₀, hr₀, hsame, hproject⟩ := hruns r hr
  rw [hproject]
  exact hscoped.runs r₀ hr₀ keyId (hsame.symm.trans hcreated)

/-- What the statements of a deletion leave of the runs and the keys was there before. -/
def Within (s s' : SqliteStore) : Prop :=
  s'.runTables.runs.rows ⊆ s.runTables.runs.rows ∧ s'.apiKeys.rows ⊆ s.apiKeys.rows

theorem within_refl (s : SqliteStore) : Within s s := ⟨List.Subset.refl _, List.Subset.refl _⟩

theorem within_runDeletes (runId : String) : ∀ write ∈ MutatorAtomicity.runDeletes runId, ∀ s,
    Within s (write s) := by
  simp only [MutatorAtomicity.runDeletes, dataDeletes, List.cons_append, List.nil_append, List.forall_mem_cons]
  refine ⟨within_refl, within_refl, within_refl, within_refl, within_refl, within_refl, within_refl, fun s => ?_,
    fun _ h => absurd h List.not_mem_nil⟩
  exact ⟨List.filter_sublist.subset, List.Subset.refl _⟩

theorem within_writes {write : List (SqliteStore → SqliteStore)} (h : ∀ w ∈ write, ∀ s, Within s (w s))
    (faults : Nat → Option String) : ∀ w ∈ writes id faults write, ∀ s, Within s (w.2 s) := by
  intro w hw s
  obtain ⟨f, hf, heq⟩ := mem_writes hw
  rw [heq]
  exact h f hf s

theorem within_runWrites (faults : Nat → Nat → Option String) (runIds : List String) :
    ∀ w ∈ runWrites faults runIds, ∀ s, Within s (w.2 s) := by
  induction runIds generalizing faults with
  | nil => exact fun _ hw => absurd hw List.not_mem_nil
  | cons runId runIds ih =>
      exact List.forall_mem_append.mpr ⟨within_writes (within_runDeletes runId) (faults 0), ih _⟩

theorem within_projectWrites (faults : DeleteProjectFaults) (projectId : String) :
    ∀ w ∈ projectWrites faults projectId, ∀ s, Within s (w.2 s) := by
  simp only [projectWrites, List.forall_mem_cons]
  refine ⟨within_refl, within_refl, fun s => ?_, within_refl, within_refl, within_refl, fun _ h =>
    absurd h List.not_mem_nil⟩
  exact ⟨List.Subset.refl _, List.filter_sublist.subset⟩

theorem keeps_within {ws : List (Write SqliteStore)} (h : ∀ w ∈ ws, ∀ s, Within s (w.2 s)) (s : SqliteStore) :
    Keeps (fun s' => Referential s' ∧ Within s s') (enforcedAll Referential refusal ws) := by
  apply keeps_enforcedAll_of
  rintro w hw s' ⟨-, hs'⟩ href
  exact ⟨href, List.Subset.trans (h w hw s').1 hs'.1, List.Subset.trans (h w hw s').2 hs'.2⟩

theorem keeps_deleteRun (faults : Nat → Option String) (runId : String) (s : SqliteStore) :
    Keeps (fun s' => Referential s' ∧ Within s s') (ForeignKeys.deleteRun faults runId) := by
  refine triple_bind (keeps_within (within_writes ?_ faults) s) (fun _ => ?_)
  · exact fun w hw => within_runDeletes runId w (List.mem_append_left _ hw)
  refine keeps_bind (triple_query (fun _ h => h) (fun _ h => h)) (fun changes => ?_)
  refine keeps_bind (keeps_enforced_of ?_) (fun _ => ?_)
  · rintro s' ⟨-, hs'⟩ href
    have hrow := within_runDeletes runId (deleteRunRow runId) (List.mem_append_right _ (List.mem_singleton_self _)) s'
    exact ⟨href, List.Subset.trans hrow.1 hs'.1, List.Subset.trans hrow.2 hs'.2⟩
  · exact triple_ite (fun _ => triple_fail (fun _ h => h)) (fun _ => triple_pure (fun _ h => h))

theorem keeps_deleteProject (faults : DeleteProjectFaults) (projectId : String) (s : SqliteStore) :
    Keeps (fun s' => Referential s' ∧ Within s s') (ForeignKeys.deleteProject faults projectId) := by
  apply keeps_transaction
  refine keeps_bind (triple_query (fun _ h => h) (fun _ h => h)) (fun project => ?_)
  cases project with
  | none => exact triple_fail (fun _ h => h)
  | some project =>
      refine keeps_bind (triple_query (fun _ h => h) (fun _ h => h)) (fun runIds => ?_)
      apply keeps_within
      exact List.forall_mem_append.mpr ⟨within_runWrites faults.run runIds, within_projectWrites faults projectId⟩

theorem sound_within (h : Sound s) {α : Type} {x : Mutation α}
    (hx : Keeps (fun s' => Referential s' ∧ Within s.sqlite s') x) : Sound (onStore (fun db => (x db).2) s) := by
  have hafter := hx.after (fun _ _ h => h) (fun _ h => h) ⟨h.referential, within_refl s.sqlite⟩
  exact sound_onStore h hafter.1 (fun r hr => ⟨r, hafter.2.1 hr, rfl, rfl⟩) hafter.2.2

theorem referential_enforced {db : SqliteStore} (h : Referential db) (w : Write SqliteStore) :
    Referential (enforced Referential refusal w db).2 := by
  have hkeeps : Keeps Referential (enforced Referential refusal w) := keeps_enforced_of (fun _ _ hI => hI)
  exact hkeeps.after (fun _ _ h => h) (fun _ h => h) h

theorem enforced_cases (w : Write SqliteStore) (db : SqliteStore) :
    (enforced Referential refusal w db).2 = db ∨ (enforced Referential refusal w db).2 = w.2 db := by
  cases hrun : enforced Referential refusal w db with
  | mk answer db' =>
      cases answer with
      | ok u => exact .inr (enforced_ok hrun).2.2
      | error e => exact .inl (enforced_error hrun)

theorem sound_write (h : Sound s) (rest : Rest) (fault : Option String) :
    Sound (step H flags s (.write rest fault)).2 := by
  have href := referential_enforced h.referential (fault, setRest rest)
  rcases enforced_cases (fault, setRest rest) s.sqlite with heq | heq
  · refine sound_onStore h href ?_ ?_
    · rw [heq]
      exact fun r hr => ⟨r, hr, rfl, rfl⟩
    · rw [heq]
      exact fun _ hk => hk
  · refine sound_onStore h href ?_ ?_
    · rw [heq]
      exact fun r hr => ⟨r, hr, rfl, rfl⟩
    · rw [heq]
      exact fun _ hk => hk

theorem sound_updateRuns (h : Sound s) (update : RunUpdate) (fault : Option String) :
    Sound (step H flags s (.updateRuns update fault)).2 := by
  have href := referential_enforced h.referential (fault, updateRuns update)
  rcases enforced_cases (fault, updateRuns update) s.sqlite with heq | heq
  · refine sound_onStore h href ?_ ?_
    · rw [heq]
      exact fun r hr => ⟨r, hr, rfl, rfl⟩
    · rw [heq]
      exact fun _ hk => hk
  · refine sound_onStore h href ?_ ?_
    · rw [heq]
      intro r hr
      obtain ⟨r₀, hr₀, rfl⟩ := List.mem_map.mp hr
      exact ⟨r₀, hr₀, update.createdByKeyId r₀, update.projectId r₀⟩
    · rw [heq]
      exact fun _ hk => hk

theorem createRun_cases (row : RunRow) (fault : Option String) (db : SqliteStore) :
    (createRun row fault db).2 = db ∨
    ∃ runs, db.runTables.runs.insert row = some runs ∧ (createRun row fault db).2 = setRuns runs db ∧
      Referential (setRuns runs db) := by
  unfold createRun
  cases hinsert : db.runTables.runs.insert row with
  | none => exact .inl rfl
  | some runs =>
      cases hrun : enforced Referential refusal (fault, setRuns runs) db with
      | mk answer db' =>
          cases answer with
          | error e => exact .inl ((congrArg Prod.snd hrun).trans (enforced_error hrun))
          | ok u =>
              obtain ⟨-, href, rfl⟩ := enforced_ok hrun
              exact .inr ⟨runs, rfl, congrArg Prod.snd hrun, href⟩

theorem httpInitRun_cases (auth : AuthContext) (keyOwner : Option String) (runId projectId : String)
    (name fault : Option String)
    (db : SqliteStore) : (httpInitRun flags auth keyOwner runId projectId name fault db).2 = db ∨
    requireEndpointAccess auth flags .write (some projectId) = .ok () ∧
      (httpInitRun flags auth keyOwner runId projectId name fault db).2 =
        (createRun (newRun auth keyOwner runId projectId name) fault db).2 := by
  cases hproject : db.ui.projects.find (fun r => r.id == projectId) with
  | none =>
      left
      simp only [httpInitRun, bind, mapError, query, statement_none, hproject, Except.mapError]
      rfl
  | some project =>
      cases haccess : requireEndpointAccess auth flags .write (some projectId) with
      | error e =>
          left
          simp only [httpInitRun, bind, mapError, query, statement_none, hproject, Except.mapError,
            Commands.ofExcept, haccess]
      | ok u =>
          refine .inr ⟨rfl, ?_⟩
          simp only [httpInitRun, bind, mapError, query, statement_none, hproject, Except.mapError,
            Commands.ofExcept, haccess]

theorem scope_authenticate {scope : String → Option String} (h : Scoped scope s) {caller : Caller}
    {auth : AuthContext}
    (hauth : (authenticate H s caller).1 = some auth) {keyOwner : Option String} {keyId projectId : String}
    (hcreator : (runCreator auth keyOwner).1 = some keyId)
    (haccess : requireEndpointAccess auth flags .write (some projectId) = .ok ()) :
    scope keyId = none ∨ scope keyId = some projectId := by
  cases caller with
  | keyless auth' hkeyless =>
      obtain rfl := Option.some.inj hauth
      simp only [runCreator] at hcreator
      split at hcreator
      · cases hcreator
      split at hcreator
      · cases hcreator
      · rename_i hui hdev
        rw [Bool.or_eq_true] at hkeyless
        exact absurd hkeyless (not_or.mpr ⟨hui, hdev⟩)
  | key rawKey now faults =>
      obtain ⟨key, hkey, rfl⟩ := Option.map_eq_some_iff.mp hauth
      obtain ⟨⟨fingerprint, hscope⟩, -, -⟩ := h.copies.validated ages_scope hkey
      obtain rfl : key.id = keyId := Option.some.inj hcreator
      rw [show scope key.id = key.projectId from hscope]
      obtain ⟨-, hproject⟩ := (requireEndpointAccess_ok_iff _ flags .write (some projectId)).mp haccess
      exact (KeyCreation.requireProjectAccess_ofApiKey key projectId).mp (hproject projectId rfl)

theorem scoped_authenticate {scope : String → Option String} (h : Scoped scope s) (caller : Caller) :
    Scoped scope (authenticate H s caller).2 := by
  cases caller with
  | key rawKey now faults => exact h.setStore (h.copies.validateKey ages_scope faults rawKey now)
  | keyless auth hkeyless => exact h

theorem sound_authenticate (h : Sound s) (caller : Caller) : Sound (authenticate H s caller).2 := by
  cases caller with
  | key rawKey now faults => exact sound_validateKey h rawKey now faults
  | keyless auth hkeyless => exact h

theorem sound_initRun (h : Sound s) (caller : Caller) (keyOwner : Option String) (runId projectId : String)
    (name fault : Option String) : Sound (step H flags s (.initRun caller keyOwner runId projectId name fault)).2 := by
  have hsound := sound_authenticate (H := H) h caller
  obtain ⟨scope, hscoped⟩ := h.scopes
  have hafter := scoped_authenticate (H := H) hscoped caller
  cases hauth : (authenticate H s caller).1 with
  | none =>
      simp only [step, hauth]
      exact hsound
  | some auth =>
      simp only [step, hauth]
      rcases @httpInitRun_cases flags auth keyOwner runId projectId name fault (authenticate H s caller).2.sqlite with
        heq | ⟨haccess, heq⟩
      · simp only [onStore, heq]
        exact hsound
      · rcases createRun_cases (newRun auth keyOwner runId projectId name) fault
          (authenticate H s caller).2.sqlite with
          hsame | ⟨runs, hinsert, hset, href⟩
        · simp only [onStore, heq, hsame]
          exact hsound
        · simp only [onStore, heq, hset]
          refine ⟨href, scope, hafter.copies, ?_⟩
          intro r hr keyId hcreated
          change r ∈ runs.rows at hr
          rw [(insert_eq_some hinsert).1, List.mem_append, List.mem_singleton] at hr
          rcases hr with hr | rfl
          · exact hafter.runs r hr keyId hcreated
          · exact scope_authenticate hscoped hauth hcreated haccess

theorem sound_step (past : List (Op × Unit)) (s : Server) (op : Op) (h : Sound s) (hfresh : Fresh past s op) :
    Sound (step H flags s op).2 := by
  cases op with
  | createKey rawKey projectId name scopes expiresIn owner gen fault =>
      exact sound_createKey h rawKey projectId name scopes expiresIn owner gen fault hfresh
  | validateKey rawKey now faults => exact sound_validateKey h rawKey now faults
  | revokeKey keyHash now fault => exact sound_revokeKey h keyHash now fault
  | initRun caller keyOwner runId projectId name fault =>
      exact sound_initRun h caller keyOwner runId projectId name fault
  | updateRuns update fault => exact sound_updateRuns h update fault
  | write rest fault => exact sound_write h rest fault
  | deleteRun faults runId => exact sound_within h (keeps_deleteRun faults runId s.sqlite)
  | deleteProject faults projectId => exact sound_within h (keeps_deleteProject faults projectId s.sqlite)

/-- Whatever has happened, a project that is there can be deleted, with everything of it and nothing else. -/
theorem deletion_total (ops : List Op) (hfresh : Guarded (step H flags) Fresh [] empty ops) {projectId : String}
    (hproject : hasProject (after (step H flags) empty ops).sqlite projectId = true) :
    ∃ s', ForeignKeys.deleteProject {} projectId (after (step H flags) empty ops).sqlite = (.ok (), s') ∧
      Deleted projectId (after (step H flags) empty ops).sqlite s' := by
  have hsound : Sound (after (step H flags) empty ops) :=
    invariant_history (fun _ s => Sound s) sound_step [] empty ops sound_empty hfresh
  exact deleteProject_ok hsound.referential (hsound.keysInside projectId) hproject

def twoProjects (auditEvents : List AuditEventRow) : Rest where
  metrics := []
  tags := .empty
  params := .empty
  events := []
  ui := (UiTables.createProject { now := 0, projectId := "q" } "q" none
    (UiTables.createProject { now := 0, projectId := "p" } "p" none .empty).2).2
  batches := .empty
  auditEvents := auditEvents
  shareTokens := []
  metricAliases := []
  sequences := {}

/-- The holder of a key of one project has asked for the runs of another. -/
def crossing : List Op :=
  [.write (twoProjects []) none, .createKey "raw" (some "p") none ["read"] none none ⟨"k", "s", 1⟩ none,
    .write (twoProjects [⟨some "k", some "q", none⟩]) none]

theorem fresh_crossing : Guarded (step KeyStore.plainHashing (fun _ => true)) Fresh [] empty crossing :=
  ⟨trivial, ⟨fun _ hr => absurd hr List.not_mem_nil, fun _ hk => absurd hk List.not_mem_nil⟩, trivial, trivial⟩

theorem deletion_crossing : ∃ s', ForeignKeys.deleteProject {} "p"
      (after (step KeyStore.plainHashing (fun _ => true)) empty crossing).sqlite = (.ok (), s') ∧
    Deleted "p" (after (step KeyStore.plainHashing (fun _ => true)) empty crossing).sqlite s' :=
  deletion_total crossing fresh_crossing (by decide +kernel)

theorem auditEvent_changed :
    Guarded (step KeyStore.plainHashing (fun _ => true)) Fresh [] empty crossing ∧
    hasProject (after (step KeyStore.plainHashing (fun _ => true)) empty crossing).sqlite "p" = true ∧
    ∃ r ∈ (after (step KeyStore.plainHashing (fun _ => true)) empty crossing).sqlite.auditEvents,
      r.projectId = some "q" ∧
      r ∉ (ForeignKeys.deleteProject {} "p"
        (after (step KeyStore.plainHashing (fun _ => true)) empty crossing).sqlite).2.auditEvents :=
  ⟨fresh_crossing, by decide +kernel, ⟨some "k", some "q", none⟩, by decide +kernel, rfl, by decide +kernel⟩

end MLRunX.ProjectDeletion
