import MLRunX.Displacement
import MLRunX.RunRetries

namespace MLRunX.InitOrder

open Auth Commands Displacement Http Ingest IngestRequest MetadataKey RunInit RunRetries RunTables Sqlite Statements
  Tables

def written : (ℕ → Option String) → ℕ → ℕ
  | _, 0 => 0
  | faults, n + 1 => if (faults 0).isSome then 0 else written (fun i => faults (i + 1)) n + 1

def SameKey (a b : String × String) : Prop := a.1 = b.1

instance : DecidableRel SameKey := fun a b => inferInstanceAs (Decidable (a.1 = b.1))

/-- A request whose maps are iterated over in another order. -/
def Reordered (req' req : InitRunHttpRequest) : Prop :=
  ∃ tags config, tags.Perm req.tags ∧ config.Perm req.config ∧ req' = { req with tags, config }

/-- Neither the run nor a tag or a parameter of it is there. -/
structure NewRun (runId : String) (db : Database) : Prop where
  run : db.findRun runId = none
  tags : ∀ row ∈ db.tags.rows, row.runId ≠ runId
  params : ∀ row ∈ db.params.rows, row.runId ≠ runId

structure SameStored (runId : String) (db' db : Database) : Prop where
  tags : ∀ key value, ⟨runId, key, value⟩ ∈ db'.tags.rows ↔ ⟨runId, key, value⟩ ∈ db.tags.rows
  params : ∀ name value, ⟨runId, name, value⟩ ∈ db'.params.rows ↔ ⟨runId, name, value⟩ ∈ db.params.rows

variable (flags : EndpointRbacTier → Bool) (maxTagValueLen : ℕ) (auth : AuthContext) (env : InitEnv)

/-- What is checked and read before the statements of a new run. -/
def prepare (req : InitRunHttpRequest) : Handler (String × List (String × String) × List (String × String)) := do
  let projectId ← resolveProject env req
  ofExcept (requireEndpointAccess auth flags .write (some projectId))
  ofExcept (checkRateLimit env.retryAfter)
  let tags ← ofExcept (req.tags.mapM (validateInitTag maxTagValueLen))
  let params ← ofExcept (req.config.mapM validateInitParam)
  pure (projectId, tags, params)

/-- No order of the maps changes what is stored: neither map has two values for a key, nor
is one of its keys missed where a statement fails midway. -/
def Settled (req : InitRunHttpRequest) (s : MetadataStore) : Prop :=
  ∀ projectId tags params, (prepare flags maxTagValueLen auth env req s).1 = .ok (projectId, tags, params) →
    env.faults.createRun = none → OrderFree SameKey (written env.faults.tags tags.length) tags ∧
      (written env.faults.tags tags.length = tags.length →
        OrderFree SameKey (written env.faults.params params.length) params)

variable {flags maxTagValueLen auth env} {req req' : InitRunHttpRequest} {runId projectId : String}
  {tags params : List (String × String)} {s : MetadataStore} {db : Database}

theorem written_le (faults : ℕ → Option String) (n : ℕ) : written faults n ≤ n := by
  induction n generalizing faults with
  | zero => exact le_rfl
  | succ n ih =>
      rw [written]
      split
      · exact Nat.zero_le _
      · exact Nat.succ_le_succ (ih _)

theorem executeEach_eq {σ ρ : Type} (write : ρ → σ → σ) (faults : ℕ → Option String)
    (rows : List ρ) (s : σ) :
    (executeEach write faults rows s).2 =
        (rows.take (written faults rows.length)).foldl (fun s row => write row s) s ∧
      ((executeEach write faults rows s).1 = .ok () ↔ written faults rows.length = rows.length) := by
  induction rows generalizing faults s with
  | nil => exact ⟨rfl, by simp [executeEach, written, pure]⟩
  | cons row rows ih =>
      rw [executeEach, List.length_cons, written]
      cases h0 : faults 0 with
      | some text => exact ⟨rfl, by simp [bind, execute]⟩
      | none =>
          obtain ⟨hstate, hok⟩ := ih (fun i => faults (i + 1)) (write row s)
          rw [bind_ok (show execute none (fun s => .ok ((), write row s)) s = (.ok (), write row s) from rfl)]
          exact ⟨hstate, by simpa using hok⟩

/-! What the statements of a new run store. -/

theorem lastClash_map {ρ : Type} {clash : ρ → ρ → Prop} [DecidableRel clash] {row : String × String → ρ}
    (hclash : ∀ a b, clash (row a) (row b) ↔ SameKey a b) (rows : List (String × String)) (r : String × String) :
    lastClash clash (rows.map row) (row r) = (lastClash SameKey rows r).map row := by
  rw [lastClash, lastClash, ← List.map_reverse, List.find?_map]
  congr 2
  funext b
  exact decide_eq_decide.mpr (hclash r b)

theorem mem_foldl_iff {ρ : Type} {clash : ρ → ρ → Prop} [DecidableRel clash] {row : String × String → ρ}
    (hrow : row.Injective) (hclash : ∀ a b, clash (row a) (row b) ↔ SameKey a b) (hrefl : ∀ r, clash r r)
    {t : Table ρ clash} (hnew : ∀ a, row a ∉ t.rows) (rows : List (String × String)) (r : String × String) :
    row r ∈ ((rows.map row).foldl Table.replace t).rows ↔ lastClash SameKey rows r = some r := by
  rw [mem_foldl_replace hrefl, lastClash_map hclash]
  simp [hnew, hrow.eq_iff]

theorem mem_setTags (h : ∀ row ∈ db.tags.rows, row.runId ≠ runId) (rows : List (String × String))
    (key value : String) :
    ⟨runId, key, value⟩ ∈ (db.setTags runId rows).tags.rows ↔
      lastClash SameKey rows (key, value) = some (key, value) := by
  rw [tags_setTags]
  refine @mem_foldl_iff _ TagRow.clash _ (fun tag => ⟨runId, tag.1, tag.2⟩) ?_ ?_ ?_ _ ?_ rows (key, value)
  · intro a b hab
    exact Prod.ext (TagRow.mk.inj hab).2.1 (TagRow.mk.inj hab).2.2
  · exact fun a b => ⟨And.right, fun hkey => ⟨rfl, hkey⟩⟩
  · exact fun r => ⟨rfl, rfl⟩
  · exact fun a hmem => h _ hmem rfl

theorem mem_setParams (h : ∀ row ∈ db.params.rows, row.runId ≠ runId) (rows : List (String × String))
    (name value : String) : ⟨runId, name, value⟩ ∈ (db.setParams runId rows).params.rows ↔
      lastClash SameKey rows (name, value) = some (name, value) := by
  rw [params_setParams]
  refine @mem_foldl_iff _ ParamRow.clash _ (fun param => ⟨runId, param.1, param.2⟩) ?_ ?_ ?_ _ ?_ rows
    (name, value)
  · intro a b hab
    exact Prod.ext (ParamRow.mk.inj hab).2.1 (ParamRow.mk.inj hab).2.2
  · exact fun a b => ⟨And.right, fun hkey => ⟨rfl, hkey⟩⟩
  · exact fun r => ⟨rfl, rfl⟩
  · exact fun a hmem => h _ hmem rfl

/-- What is stored of a new run depends on its tables alone. -/
def stored (s : MetadataStore) : Table TagRow TagRow.clash × Table ParamRow ParamRow.clash := (s.db.tags, s.db.params)

theorem createRun_absent (h : db.findRun runId = none) (name keyId userId : Option String) :
    ∃ runs, createRun none runId projectId name keyId userId db = (.ok (), { db with runs }) := by
  have hfresh : ∀ r ∈ db.runs.rows, ¬ r.clash ⟨runId, projectId, name, "running", keyId, userId, 0, 0⟩ := by
    intro r hr hclash
    have hother := find_none_iff.mp h r hr
    rw [beq_eq_false_iff_ne] at hother
    exact hother hclash
  obtain ⟨runs, hinsert, -⟩ := insert_isSome db.runs _ hfresh
  refine ⟨runs, ?_⟩
  simp only [createRun, execute, statement_none, hinsert]

theorem setTags_eq (faults : ℕ → Option String) (tags : List (String × String)) (db : Database) :
    ((if tags.isEmpty then pure () else setTags faults runId tags : Statement Unit) db).2 =
        db.setTags runId (tags.take (written faults tags.length)) ∧
      (((if tags.isEmpty then pure () else setTags faults runId tags : Statement Unit) db).1 = .ok () ↔
        written faults tags.length = tags.length) := by
  cases tags with
  | nil => exact ⟨rfl, by simp [written, pure]⟩
  | cons tag tags => exact executeEach_eq (Database.setTag runId) faults (tag :: tags) db

theorem insertParams_stored (faults : ℕ → Option String) (params : List (String × String)) (db : Database) :
    ((if params.isEmpty then pure 0 else insertParams faults runId params : Statement ℕ) db).2.tags = db.tags ∧
      ((if params.isEmpty then pure 0 else insertParams faults runId params : Statement ℕ) db).2.params =
        (db.setParams runId (params.take (written faults params.length))).params := by
  cases params with
  | nil => exact ⟨rfl, rfl⟩
  | cons param params =>
      have hrest : ∀ u : Unit, Leaves (fun db : Database => (db.tags, db.params))
          (do execute (faults (param :: params).length) (fun db => .ok ((), db.countParams runId))
              pure (param :: params).length : Statement ℕ) := by
        intro u
        refine leaves_bind (leaves_execute ?_) (fun _ => leaves_pure _)
        intro db₁ a db₂ h
        obtain ⟨-, rfl⟩ := Prod.mk.inj (Except.ok.inj h)
        rfl
      have heq := bind_leaves (fun db : Database => (db.tags, db.params)) hrest db
        (x := executeEach (Database.setParam runId) faults (param :: params))
      rw [(executeEach_eq (Database.setParam runId) faults (param :: params) db).1] at heq
      obtain ⟨htags, hparams⟩ := Prod.mk.inj heq
      exact ⟨htags.trans (runs_setParams runId _ db).2, hparams⟩

theorem leaves_insertInitEvent : Leaves stored (insertInitEvent env runId) := by
  have hinsert : ∀ events, Leaves (fun db : Database => (db.tags, db.params))
      (insertRunEvents env.faults.event runId events) := by
    intro events
    apply leaves_bind
    · apply leaves_executeEach
      exact fun _ _ => rfl
    · intro _
      refine leaves_bind ?_ (fun _ => leaves_pure _)
      rw [RunTables.stampRun]
      split
      · apply leaves_execute
        intro db a db' h
        obtain ⟨-, rfl⟩ := Prod.mk.inj (Except.ok.inj h)
        rfl
      · exact leaves_pure _
  apply leaves_attempt
  exact leaves_zoom (fun _ _ => rfl) (hinsert _)

theorem insertRun_stored (habsent : s.db.findRun runId = none) (hcreate : env.faults.createRun = none)
    (name : Option String) :
    (insertRun auth env runId projectId name tags params s).2.db.tags =
        (s.db.setTags runId (tags.take (written env.faults.tags tags.length))).tags ∧
      (insertRun auth env runId projectId name tags params s).2.db.params =
        if written env.faults.tags tags.length = tags.length then
          (s.db.setParams runId (params.take (written env.faults.params params.length))).params
        else s.db.params := by
  obtain ⟨runs, hrun⟩ := @createRun_absent runId projectId _ habsent name
    (runCreator auth env.keyOwner).1 (runCreator auth env.keyOwner).2
  have hmade : internal (RunInit.onDb (createRun env.faults.createRun runId projectId name
      (runCreator auth env.keyOwner).1 (runCreator auth env.keyOwner).2)) s =
      (.ok (), { s with db := { s.db with runs } }) := by
    apply mapError_ok
    rw [hcreate]
    simp only [RunInit.onDb, zoom, hrun]
  rw [insertRun, bind_ok hmade]
  generalize hs₁ : ({ s with db := { s.db with runs } } : MetadataStore) = s₁
  have htags₁ : s₁.db.tags = s.db.tags := by rw [← hs₁]
  have hparams₁ : s₁.db.params = s.db.params := by rw [← hs₁]
  rw [bind_ok (show RunInit.stampRun env runId s₁ = (.ok (), _) from rfl)]
  generalize hs₂ : ({ s₁ with times := _ } : MetadataStore) = s₂
  have hdb₂ : s₂.db = s₁.db := by rw [← hs₂]
  obtain ⟨hset, hok⟩ := @setTags_eq runId env.faults.tags tags s₂.db
  generalize hx : (if tags.isEmpty then pure () else setTags env.faults.tags runId tags : Statement Unit) =
    x at hset hok
  have htags : (s₂.db.setTags runId (tags.take (written env.faults.tags tags.length))).tags =
      (s.db.setTags runId (tags.take (written env.faults.tags tags.length))).tags := by
    rw [tags_setTags, tags_setTags, hdb₂, htags₁]
  have hparams : (s₂.db.setTags runId (tags.take (written env.faults.tags tags.length))).params = s.db.params := by
    rw [(runs_setTags runId _ s₂.db).2, hdb₂, hparams₁]
  cases hresult : (x s₂.db).1 with
  | error e =>
      have hfail : internal (RunInit.onDb x) s₂ = (.error internalError, { s₂ with db := (x s₂.db).2 }) := by
        simp only [internal, mapError, RunInit.onDb, zoom, hresult]
        rfl
      have hnot : ¬ written env.faults.tags tags.length = tags.length := by
        rw [← hok, hresult]
        intro h
        cases h
      rw [bind_error hfail, if_neg hnot, hset]
      exact ⟨htags, hparams⟩
  | ok u =>
      have hdone : internal (RunInit.onDb x) s₂ = (.ok u, { s₂ with db := (x s₂.db).2 }) := by
        apply mapError_ok
        simp only [RunInit.onDb, zoom, hresult]
      rw [bind_ok hdone, if_pos (hok.mp hresult)]
      have hlast : ∀ n : ℕ, Leaves stored (do
          let _ ← insertInitEvent env runId
          pure ⟨runId, false⟩ : Handler InitRunHttpResponse) :=
        fun _ => leaves_bind leaves_insertInitEvent (fun _ => leaves_pure _)
      have hstored := bind_leaves stored hlast { s₂ with db := (x s₂.db).2 }
        (x := internal (RunInit.onDb (if params.isEmpty then pure 0 else insertParams env.faults.params runId params)))
      obtain ⟨hleft, hright⟩ := Prod.mk.inj hstored
      obtain ⟨hkept, hwritten⟩ := @insertParams_stored runId env.faults.params params (x s₂.db).2
      refine ⟨hleft.trans (hkept.trans (by rw [hset, htags])), hright.trans (hwritten.trans ?_)⟩
      rw [hset, params_setParams, params_setParams, hparams]

/-! Two orders of one request. -/

theorem leaves_prepare : Leaves id (prepare flags maxTagValueLen auth env req) := by
  apply leaves_bind
  · rw [resolveProject]
    split
    · exact leaves_fail _
    · apply leaves_bind (leaves_mapError ⟨fun _ => rfl⟩)
      intro name
      split
      · exact leaves_fail _
      · split
        · exact leaves_pure _
        · exact leaves_fail _
  · intro projectId
    refine leaves_bind (leaves_ofExcept _) (fun _ => leaves_bind (leaves_ofExcept _) (fun _ => ?_))
    exact leaves_bind (leaves_ofExcept _) (fun _ => leaves_bind (leaves_ofExcept _) (fun _ => leaves_pure _))

theorem prepare_ok (h : (prepare flags maxTagValueLen auth env req s).1 = .ok (projectId, tags, params)) :
    prepare flags maxTagValueLen auth env req s = (.ok (projectId, tags, params), s) :=
  Prod.ext h (leaves_prepare.shows s)

theorem startRun_eq : startRun flags maxTagValueLen auth env req runId =
    prepare flags maxTagValueLen auth env req >>= fun r => insertRun auth env runId r.1 req.name r.2.1 r.2.2 := by
  rw [startRun, prepare]
  simp only [bind_assoc]
  rfl

theorem prepare_reordered {config : List (String × ConfigValue)} {rawTags tags' params' : List (String × String)}
    (h : prepare flags maxTagValueLen auth env req s = (.ok (projectId, tags, params), s))
    (htags : rawTags.mapM (validateInitTag maxTagValueLen) = .ok tags')
    (hparams : config.mapM validateInitParam = .ok params') :
    prepare flags maxTagValueLen auth env { req with tags := rawTags, config } s =
      (.ok (projectId, tags', params'), s) := by
  obtain ⟨project, s₁, hproject, h⟩ := bind_eq_ok h
  obtain ⟨_, s₂, haccess, h⟩ := bind_eq_ok h
  obtain ⟨_, s₃, hrate, h⟩ := bind_eq_ok h
  obtain ⟨_, s₄, htagged, h⟩ := bind_eq_ok h
  obtain ⟨_, s₅, hset, hlast⟩ := bind_eq_ok h
  obtain ⟨heq, hs⟩ := pure_eq_ok hlast
  obtain ⟨rfl, -⟩ := Prod.mk.inj heq
  have hend : s₃ = s := (Prod.mk.inj htagged).2.trans ((Prod.mk.inj hset).2.trans hs.symm)
  have hproject' : resolveProject env { req with tags := rawTags, config } s = (.ok projectId, s₁) := hproject
  rw [prepare, bind_ok hproject', bind_ok haccess, bind_ok hrate, bind_ok (ofExcept_ok htags _),
    bind_ok (ofExcept_ok hparams _), hend]
  rfl

theorem prepare_validated (h : prepare flags maxTagValueLen auth env req s = (.ok (projectId, tags, params), s)) :
    req.tags.mapM (validateInitTag maxTagValueLen) = .ok tags ∧
      req.config.mapM validateInitParam = .ok params := by
  obtain ⟨_, s₁, -, h⟩ := bind_eq_ok h
  obtain ⟨_, s₂, -, h⟩ := bind_eq_ok h
  obtain ⟨_, s₃, -, h⟩ := bind_eq_ok h
  obtain ⟨_, s₄, htags, h⟩ := bind_eq_ok h
  obtain ⟨_, s₅, hparams, hlast⟩ := bind_eq_ok h
  obtain ⟨heq, -⟩ := pure_eq_ok hlast
  obtain ⟨-, hread⟩ := Prod.mk.inj heq
  obtain ⟨rfl, rfl⟩ := Prod.mk.inj hread
  exact ⟨(Prod.mk.inj htags).1, (Prod.mk.inj hparams).1⟩

theorem Reordered.symm (h : Reordered req' req) : Reordered req req' := by
  obtain ⟨tags, config, htags, hconfig, rfl⟩ := h
  exact ⟨req.tags, req.config, htags.symm, hconfig.symm, rfl⟩

theorem Reordered.prepare (hreq : Reordered req' req)
    (h : prepare flags maxTagValueLen auth env req s = (.ok (projectId, tags, params), s)) :
    ∃ tags' params', tags'.Perm tags ∧ params'.Perm params ∧
      prepare flags maxTagValueLen auth env req' s = (.ok (projectId, tags', params'), s) := by
  obtain ⟨rawTags, config, hrawTags, hconfig, rfl⟩ := hreq
  obtain ⟨htags, hparams⟩ := prepare_validated h
  obtain ⟨tags', htags', hperm⟩ := mapM_perm hrawTags htags
  obtain ⟨params', hparams', hperm'⟩ := mapM_perm hconfig hparams
  exact ⟨tags', params', hperm, hperm', prepare_reordered h htags' hparams'⟩

theorem exists_reordered {tags' params' : List (String × String)}
    (h : prepare flags maxTagValueLen auth env req s = (.ok (projectId, tags, params), s))
    (hperm : tags'.Perm tags)
    (hperm' : params'.Perm params) : ∃ req', Reordered req' req ∧
      prepare flags maxTagValueLen auth env req' s = (.ok (projectId, tags', params'), s) := by
  obtain ⟨htags, hparams⟩ := prepare_validated h
  obtain ⟨rawTags, htags', hrawTags⟩ := perm_mapM hperm htags
  obtain ⟨config, hparams', hconfig⟩ := perm_mapM hperm' hparams
  exact ⟨_, ⟨rawTags, config, hrawTags, hconfig, rfl⟩, prepare_reordered h htags' hparams'⟩

theorem stored_new (hnew : NewRun (req.runId.getD env.generatedId) s.db) (hcreate : env.faults.createRun = none)
    (h : prepare flags maxTagValueLen auth env req s = (.ok (projectId, tags, params), s)) :
    (∀ key value, ⟨req.runId.getD env.generatedId, key, value⟩ ∈
        (httpInitRun flags maxTagValueLen auth env req s).2.db.tags.rows ↔
          Kept SameKey (written env.faults.tags tags.length) tags (key, value)) ∧
      ∀ name value, ⟨req.runId.getD env.generatedId, name, value⟩ ∈
        (httpInitRun flags maxTagValueLen auth env req s).2.db.params.rows ↔
          written env.faults.tags tags.length = tags.length ∧
            Kept SameKey (written env.faults.params params.length) params (name, value) := by
  rw [httpInitRun_absent flags maxTagValueLen auth env req hnew.run, startRun_eq, bind_ok h]
  obtain ⟨htags, hparams⟩ := @insertRun_stored auth env _ projectId tags params s hnew.run hcreate req.name
  rw [htags, hparams]
  refine ⟨fun key value => mem_setTags hnew.tags _ key value, ?_⟩
  intro name value
  split
  · rename_i hall
    rw [mem_setParams hnew.params]
    exact ⟨fun hkept => ⟨hall, hkept⟩, And.right⟩
  · rename_i hpart
    exact iff_of_false (fun hmem => hnew.params _ hmem rfl) (fun hkept => hpart hkept.1)

theorem stored_refused (hnew : NewRun (req.runId.getD env.generatedId) s.db)
    (h : (∃ e, (prepare flags maxTagValueLen auth env req s).1 = .error e) ∨ env.faults.createRun ≠ none) :
    stored (httpInitRun flags maxTagValueLen auth env req s).2 = stored s := by
  rw [httpInitRun_absent flags maxTagValueLen auth env req hnew.run, startRun_eq]
  have hsame := leaves_prepare.shows (x := prepare flags maxTagValueLen auth env req) s
  cases hprepare : (prepare flags maxTagValueLen auth env req s).1 with
  | error e => rw [bind_error (Prod.ext hprepare hsame)]
  | ok r =>
      obtain ⟨text, htext⟩ := Option.ne_none_iff_exists'.mp
        (h.resolve_left (fun ⟨e, he⟩ => by rw [hprepare] at he; cases he))
      rw [bind_ok (Prod.ext hprepare hsame), insertRun, htext]
      rfl

/-- What is stored of a new run is the same for every order of its maps just when
nothing is lost or displaced in any order. -/
theorem stored_same_iff (flags : EndpointRbacTier → Bool) (maxTagValueLen : ℕ) (auth : AuthContext) (env : InitEnv)
    (req : InitRunHttpRequest) (s : MetadataStore) (hnew : NewRun (req.runId.getD env.generatedId) s.db) :
    (∀ req', Reordered req' req → SameStored (req.runId.getD env.generatedId)
      (httpInitRun flags maxTagValueLen auth env req' s).2.db
        (httpInitRun flags maxTagValueLen auth env req s).2.db) ↔
        Settled flags maxTagValueLen auth env req s := by
  have hrefl : ∀ a : String × String, SameKey a a := fun _ => rfl
  have hsymm : ∀ a b, SameKey a b → SameKey b a := fun _ _ h => Eq.symm h
  have htrans : ∀ a b c, SameKey a b → SameKey b c → SameKey a c := fun _ _ _ h h' => Eq.trans h h'
  have hperms : ∀ {faults : ℕ → Option String} {rows : List (String × String)},
      (∀ rows', rows'.Perm rows → ∀ r, Kept SameKey (written faults rows.length) rows' r ↔
        Kept SameKey (written faults rows.length) rows r) ↔ OrderFree SameKey (written faults rows.length) rows :=
    kept_perm_iff hrefl hsymm htrans (written_le _ _)
  constructor
  · intro h projectId tags params hprepare hcreate
    have hread := prepare_ok hprepare
    obtain ⟨htags, hparams⟩ := stored_new hnew hcreate hread
    refine ⟨hperms.mp ?_, fun hall => hperms.mp ?_⟩
    · intro tags' hperm r
      obtain ⟨req', hreq, hread'⟩ := exists_reordered hread hperm (List.Perm.refl params)
      have hid : req'.runId = req.runId := by
        obtain ⟨_, _, -, -, rfl⟩ := hreq
        rfl
      have hstored := (stored_new (by rwa [hid]) hcreate hread').1 r.1 r.2
      rw [hid, hperm.length_eq] at hstored
      exact hstored.symm.trans (((h req' hreq).tags r.1 r.2).trans (htags r.1 r.2))
    · intro params' hperm r
      obtain ⟨req', hreq, hread'⟩ := exists_reordered hread (List.Perm.refl tags) hperm
      have hid : req'.runId = req.runId := by
        obtain ⟨_, _, -, -, rfl⟩ := hreq
        rfl
      have hstored := (stored_new (by rwa [hid]) hcreate hread').2 r.1 r.2
      rw [hid, hperm.length_eq] at hstored
      have hboth := hstored.symm.trans (((h req' hreq).params r.1 r.2).trans (hparams r.1 r.2))
      simpa only [hall, true_and] using hboth
  · intro hsettled req' hreq
    have hid : req'.runId = req.runId := by
      obtain ⟨_, _, -, -, rfl⟩ := hreq
      rfl
    have hnew' : NewRun (req'.runId.getD env.generatedId) s.db := by rwa [hid]
    by_cases hmade : ∃ r, (prepare flags maxTagValueLen auth env req s).1 = .ok r ∧ env.faults.createRun = none
    · obtain ⟨⟨projectId, tags, params⟩, hprepare, hcreate⟩ := hmade
      have hread := prepare_ok hprepare
      obtain ⟨htags, hparams⟩ := stored_new hnew hcreate hread
      obtain ⟨tags', params', hperm, hperm', hread'⟩ := hreq.prepare hread
      obtain ⟨htags', hparams'⟩ := stored_new hnew' hcreate hread'
      rw [hid, hperm.length_eq] at htags'
      rw [hid, hperm.length_eq, hperm'.length_eq] at hparams'
      obtain ⟨hfree, hfree'⟩ := hsettled projectId tags params hprepare hcreate
      refine ⟨fun key value => ?_, fun name value => ?_⟩
      · exact (htags' key value).trans ((hperms.mpr hfree tags' hperm (key, value)).trans (htags key value).symm)
      · refine (hparams' name value).trans (Iff.trans ?_ (hparams name value).symm)
        exact and_congr_right (fun hall => hperms.mpr (hfree' hall) params' hperm' (name, value))
    · have hrefused : ∀ {r : InitRunHttpRequest}, Reordered r req →
          (∃ e, (prepare flags maxTagValueLen auth env r s).1 =
          .error e) ∨ env.faults.createRun ≠ none := by
        intro r hr
        by_contra hnot
        rw [not_or, not_not] at hnot
        obtain ⟨hok, hcreate⟩ := hnot
        cases hprepare : (prepare flags maxTagValueLen auth env r s).1 with
        | error e => exact hok ⟨e, hprepare⟩
        | ok read =>
            obtain ⟨tags', params', -, -, hread⟩ := hr.symm.prepare (prepare_ok hprepare)
            exact hmade ⟨_, congrArg Prod.fst hread, hcreate⟩
      have hsame := (stored_refused hnew' (hrefused hreq)).trans
        (stored_refused hnew (hrefused ⟨req.tags, req.config, .refl _, .refl _, rfl⟩)).symm
      obtain ⟨htags, hparams⟩ := Prod.mk.inj hsame
      exact ⟨fun key value => by rw [htags], fun name value => by rw [hparams]⟩

def projects : MetadataStore := ⟨RunServer.projectStore.ui, .empty, fun _ => ⟨"", "", none⟩⟩

def configured (config : List (String × ConfigValue)) : InitRunHttpRequest :=
  ⟨some "r", some "p", none, none, [], config⟩

def initEnv : InitEnv := { generatedId := "g", now := "t" }

theorem newRun_projects : NewRun "r" projects.db where
  run := rfl
  tags := fun _ hrow => absurd hrow List.not_mem_nil
  params := fun _ hrow => absurd hrow List.not_mem_nil

def made (config : List (String × ConfigValue)) : Database :=
  (httpInitRun (fun _ => true) 256 (.devMode 0) initEnv (configured config) projects).2.db

theorem configured_settled : SameStored "r" (made [("depth", ⟨1, "3"⟩), ("lr", ⟨1, "0.1"⟩)])
    (made [("lr", ⟨1, "0.1"⟩), ("depth", ⟨1, "3"⟩)]) := by
  apply (stored_same_iff (fun _ => true) 256 (.devMode 0) initEnv
    (configured [("lr", ⟨1, "0.1"⟩), ("depth", ⟨1, "3"⟩)]) projects newRun_projects).mpr
  · intro projectId tags params hprepare _
    have hread : (prepare (fun _ => true) 256 (.devMode 0) initEnv
        (configured [("lr", ⟨1, "0.1"⟩), ("depth", ⟨1, "3"⟩)]) projects).1 =
          .ok ("p", [], [("parameters.lr", "0.1"), ("parameters.depth", "3")]) := by
      decide +kernel
    rw [hread] at hprepare
    cases hprepare
    refine ⟨.inl rfl, fun _ => ?_⟩
    rw [OrderFree]
    decide
  · exact ⟨[], _, .nil, List.Perm.swap _ _ _, rfl⟩

theorem swapped_rates_differ : ¬ ∀ (flags : EndpointRbacTier → Bool) (maxTagValueLen : ℕ) (auth : AuthContext)
    (env : InitEnv) (req req' : InitRunHttpRequest) (s : MetadataStore),
      NewRun (req.runId.getD env.generatedId) s.db →
    Reordered req' req → SameStored (req.runId.getD env.generatedId)
      (httpInitRun flags maxTagValueLen auth env req' s).2.db
        (httpInitRun flags maxTagValueLen auth env req s).2.db := by
  intro h
  have hsame := h (fun _ => true) 256 (.devMode 0) initEnv
    (configured [("lr", ⟨1, "0.1"⟩), ("parameters.lr", ⟨1, "0.2"⟩)])
    (configured [("parameters.lr", ⟨1, "0.2"⟩), ("lr", ⟨1, "0.1"⟩)]) projects newRun_projects
    ⟨[], _, .nil, List.Perm.swap _ _ _, rfl⟩
  have hthere := (hsame.params "parameters.lr" "0.1").mp (by decide +kernel)
  revert hthere
  decide +kernel

end MLRunX.InitOrder
