import MLRunX.Atomicity
import MLRunX.RunLifecycle
import MLRunX.ShareSafety
import MLRunX.PastTime

namespace MLRunX.ShareLifetimes

open Atomicity AuditLog Auth Commands Http Ingest RunInit RunTables Runs ShareLinks ShareSafety PastTime
  Sqlite Statements
open Tables UiTables

/-- When a request is handled, and what the database refuses of it. -/
structure Moment where
  now : String
  expiry : Int → String
  faults : LinkFaults := {}

def readAt (env : LinkEnv) (moment : Moment) : LinkEnv := { env with now := moment.now, expiry := moment.expiry }

def hasRun (s : LinkStore) (runId : String) : Prop := (s.runs.db.findRun runId).isSome = true

/-- A request of another kind writes no link and removes no run. -/
structure Around where
  run : LinkStore → LinkStore
  links : ∀ s, (run s).shareTokens = s.shareTokens
  stays : ∀ s runId, hasRun s runId → hasRun (run s) runId

def aroundInitRun (flags : EndpointRbacTier → Bool) (maxTagValueLen : Nat) (auth : AuthContext) (env : InitEnv)
    (req : InitRunHttpRequest) : Around where
  run s := (onRuns (httpInitRun flags maxTagValueLen auth env req) s).2
  links _ := rfl
  stays s runId h := by
    obtain ⟨run, hrun⟩ := Option.isSome_iff_exists.mp h
    have hstatus : RunLifecycle.statusOf runId s.runs.db = some run.status := by rw [RunLifecycle.statusOf, hrun]; rfl
    have hkept := RunLifecycle.keeps_httpInitRun.after (I := fun s : MetadataStore =>
      RunLifecycle.statusOf runId s.db = some run.status) (fun _ _ h => h) (fun _ h => h) hstatus
        (x := httpInitRun flags maxTagValueLen auth env req)
    obtain ⟨run', hrun', -⟩ := Option.map_eq_some_iff.mp hkept
    exact Option.isSome_iff_exists.mpr ⟨run', hrun'⟩

def forgetRuns (gone : String → Bool) (events : List AuditEvent) : List AuditEvent :=
  events.map (fun e => { e with runId := e.runId.filter (fun id => !gone id) })

def deleteRun (deletes : Nat → Option String) (runId : String) : Command LinkStore SqliteError Unit := do
  execute (deletes 0) (fun s => .ok ((), { s with auditEvents := forgetRuns (fun id => id == runId) s.auditEvents }))
  execute (deletes 1) (fun s => .ok
    ((), { s with shareTokens := s.shareTokens.deleteWhere (fun r => r.runId == runId) }))
  onRuns (RunInit.onDb (RunTables.deleteRun (fun k => if k < 2 then none else deletes k) runId))

def runIdsOf (projectId : String) (s : LinkStore) : List String :=
  (s.runs.db.runs.select (fun r => r.projectId == projectId)).map RunRow.id

def withoutRuns (gone : String → Bool) (s : LinkStore) : LinkStore :=
  { s with
    runs := { s.runs with db :=
      { runs := s.runs.db.runs.deleteWhere (fun r => gone r.id)
        metrics := s.runs.db.metrics.filter (fun m => !gone m.1)
        tags := s.runs.db.tags.deleteWhere (fun t => gone t.runId)
        params := s.runs.db.params.deleteWhere (fun p => gone p.runId)
        events := s.runs.db.events.filter (fun e => !gone e.1) } }
    shareTokens := s.shareTokens.deleteWhere (fun r => gone r.runId)
    auditEvents := forgetRuns gone s.auditEvents }

def ownedKeyIds (projectId : String) (s : LinkStore) : List String :=
  (s.apiKeys.select (fun k => k.projectId == some projectId)).map (fun k => k.id)

def withoutProject (projectId : String) (s : LinkStore) : LinkStore :=
  let s' := withoutRuns (runIdsOf projectId s).contains s
  { s' with
    runs := { s'.runs with ui := { s'.runs.ui with
      memberships := s.runs.ui.memberships.deleteWhere (fun m => m.projectId == projectId)
      projects := s.runs.ui.projects.deleteWhere (fun p => p.id == projectId) } }
    apiKeys := s.apiKeys.deleteWhere (fun k => k.projectId == some projectId)
    aliases := s.aliases.filter (fun a => !(a.projectId == projectId))
    auditEvents := s'.auditEvents.map (fun e => { e with
      actorKeyId := e.actorKeyId.filter (fun id => !(ownedKeyIds projectId s).contains id)
      projectId := e.projectId.filter (fun id => !(id == projectId)) }) }

/-- In one transaction: a statement that is refused undoes the others. -/
def deleteProject (refused : Option String) (projectId : String) : Command LinkStore SqliteError (List String) :=
  transaction none refused (do
    let project ← query none (fun s => s.runs.ui.projects.find (fun p => p.id == projectId))
    match project with
    | none => fail (.notFound s!"Project not found: '{projectId}'")
    | some _ => execute none (fun s => .ok (runIdsOf projectId s, withoutProject projectId s)))

inductive Op
  | create (auth : AuthContext) (runId : String) (expiresInDays : Option Int) (token : String)
  | showRun (token : String)
  | showMetrics (token : String) (query : MetricsQuery)
  | revoke (auth : AuthContext) (runId token : String)
  | deleteRun (auth : AuthContext) (runId : String) (deletes : Nat → Option String)
  | deleteProject (projectId : String) (refused : Option String)
  | other (request : Around)

inductive Event
  | issued (token runId expiresAt : String)
  | revoked (token : String)
  | dropped (runIds : List String)
  | nothing
  deriving DecidableEq, Repr

variable (env : LinkEnv)

section Handlers

variable (faults : LinkFaults) (auth : AuthContext) (runId : String)

def requireRunDeletion : Command LinkStore HttpError RunRow := do
  ofExcept (RunServer.validatePathId runId "run_id")
  let run ← mapError runError (getRun faults.getRun runId)
  requireEndpointAccess ledger faults.audit env.lists.flags auth .write (some run.projectId) (some runId)
    "run.delete" "run" (some runId)
  ofExcept (requireUiRunOwner auth run)
  ofExcept (requireApiKeyRunOwnerForMutation auth run "delete")
  pure run

def httpDeleteRun (deletes : Nat → Option String) : Command LinkStore HttpError Unit := do
  let run ← requireRunDeletion env faults auth runId
  mapError runError (deleteRun deletes runId)
  emitAuditEvent ledger faults.audit (auditEvent (some auth) (some run.projectId) (some runId)
    "run.delete" "run" (some runId) "success")

end Handlers

def issuedEvent : Except HttpError CreateShareResponse → Event
  | .ok response => .issued response.token response.runId (response.expiresAt.getD "")
  | .error _ => .nothing

/-- The links of a run are gone once the second statement of its deletion went through. -/
def droppedEvent (runId : String) (deletes : Nat → Option String) : Except HttpError RunRow → Event
  | .ok _ => if deletes 0 = none ∧ deletes 1 = none then .dropped [runId] else .nothing
  | .error _ => .nothing

def step : Machine LinkStore (Moment × Op) Event := fun s (moment, op) =>
  match op with
  | .create auth runId expiresInDays token =>
      let r := httpCreateShareToken (readAt env moment) moment.faults auth runId expiresInDays token s
      (issuedEvent r.1, r.2)
  | .showRun token => (.nothing, (httpGetSharedRun (readAt env moment) moment.faults token s).2)
  | .showMetrics token query => (.nothing, (httpGetSharedMetrics (readAt env moment) moment.faults token query s).2)
  | .revoke auth runId token =>
      let r := httpRevokeShareToken (readAt env moment) moment.faults auth runId token s
      (if r.1.isOk then .revoked token else .nothing, r.2)
  | .deleteRun auth runId deletes =>
      (droppedEvent runId deletes (requireRunDeletion (readAt env moment) moment.faults auth runId s).1,
        (httpDeleteRun (readAt env moment) moment.faults auth runId deletes s).2)
  | .deleteProject projectId refused =>
      match deleteProject refused projectId s with
      | (.ok runIds, s') => (.dropped runIds, s')
      | (.error _, s') => (.nothing, s')
  | .other request => (.nothing, request.run s)

/-! What a step does to the links. -/

def links (s : LinkStore) : List ShareTokenRow := s.shareTokens.rows

def named (token : String) (row : ShareTokenRow) : Bool := row.answers (env.hmac token) (some token)

def revokeRow (now token : String) : ShareTokenRow → ShareTokenRow :=
  setWhere (fun r => named env token r && r.revokedAt.isNone) (fun r => { r with revokedAt := some now })

@[simp] theorem revokeRow_token (now token : String) (row : ShareTokenRow) :
    (revokeRow env now token row).token = row.token :=
  setWhere_keeps (fun r => r.token) (fun _ => by rfl) row

@[simp] theorem revokeRow_runId (now token : String) (row : ShareTokenRow) :
    (revokeRow env now token row).runId = row.runId :=
  setWhere_keeps (fun r => r.runId) (fun _ => by rfl) row

@[simp] theorem revokeRow_expiresAt (now token : String) (row : ShareTokenRow) :
    (revokeRow env now token row).expiresAt = row.expiresAt :=
  setWhere_keeps (fun r => r.expiresAt) (fun _ => by rfl) row

/-- The links behind a step, and the runs that it leaves. -/
structure Effect (s : LinkStore) (event : Event) (s' : LinkStore) : Prop where
  links : match event with
    | .issued token runId expiresAt => hasRun s runId ∧ ∃ keyPrefix now,
        links s' = links s ++ [⟨env.hmac token, runId, keyPrefix, now, some expiresAt, none⟩]
    | .revoked token => ∃ now, links s' = (links s).map (revokeRow env now token)
    | .dropped runIds => links s' = (links s).filter (fun r => !runIds.contains r.runId)
    | .nothing => links s' = links s
  runs : ∀ runId, hasRun s runId → hasRun s' runId ∨ ∃ runIds, event = .dropped runIds ∧ runId ∈ runIds

def seen (s : LinkStore) : List ShareTokenRow × Database := (links s, s.runs.db)

section Steps

variable {env} {faults : LinkFaults} {auth : AuthContext} {runId token : String} {s s' : LinkStore}

theorem hasRun_congr (h : s'.runs.db = s.runs.db) : hasRun s' runId ↔ hasRun s runId := by
  rw [hasRun, hasRun, h]

theorem effect_seen (h : seen s' = seen s) : Effect env s .nothing s' := by
  obtain ⟨hlinks, hdb⟩ := Prod.mk.inj h
  exact ⟨hlinks, fun runId hrun => .inl ((hasRun_congr hdb).mpr hrun)⟩

theorem leaves_audit (event : AuditEvent) :
    Leaves seen (emitAuditEvent ledger faults.audit event : Command LinkStore HttpError Unit) :=
  leaves_emitAuditEvent (fun _ => rfl) _

theorem seen_getRun (fault : Option String) : Leaves seen (getRun fault runId) :=
  ⟨fun s => congrArg (fun db => (links s, db)) ((RunTables.leaves_getRun fault runId).shows s.runs.db)⟩

theorem seen_validateShareToken (tokenHash : String) (legacy : Option String) :
    Leaves seen (validateShareToken env faults tokenHash legacy) := by
  refine leaves_bind (leaves_query _ _) (fun found => ?_)
  cases found with
  | none => exact leaves_fail _
  | some row =>
      by_cases hrevoked : row.revokedAt.isSome
      · simp only [if_pos hrevoked]
        exact leaves_fail _
      · simp only [if_neg hrevoked]
        cases row.expiresAt with
        | none => exact leaves_pure _
        | some expires =>
            refine leaves_bind (leaves_query _ _) (fun now => ?_)
            split
            · exact leaves_fail _
            · exact leaves_pure _

theorem seen_httpGetSharedRun : Leaves seen (httpGetSharedRun env faults token) := by
  simp only [httpGetSharedRun]
  split
  · apply leaves_bind (leaves_mapError (seen_validateShareToken _ _))
    intro share
    apply leaves_bind (leaves_mapError (seen_getRun _))
    intro run
    apply leaves_bind (leaves_mapError (leaves_query _ _))
    intro times
    apply leaves_bind (leaves_attempt ⟨fun _ => rfl⟩)
    intro tags
    exact leaves_bind (leaves_attempt (leaves_query _ _)) (fun _ => leaves_pure _)
  · exact leaves_fail _

theorem seen_httpGetSharedMetrics (q : MetricsQuery) : Leaves seen (httpGetSharedMetrics env faults token q) := by
  simp only [httpGetSharedMetrics]
  split
  · apply leaves_bind (leaves_mapError (seen_validateShareToken _ _))
    intro share
    apply leaves_bind (leaves_mapError (seen_getRun _))
    intro run
    apply leaves_bind (leaves_bind (leaves_mapError (leaves_query _ _)) (fun _ => leaves_mapError (leaves_ofExcept _)))
    intro series
    apply leaves_bind (leaves_attempt (leaves_query _ _))
    intro names
    exact leaves_bind (leaves_attempt (leaves_query _ _)) (fun _ => leaves_pure _)
  · exact leaves_fail _

theorem keeps_seen {ε α : Type} {x : Command LinkStore ε α} (h : Leaves seen x)
    (before : List ShareTokenRow × Database) :
    Keeps (fun s => seen s = before) x :=
  h.keeps (fun _ _ heq hs => heq.symm.trans hs)

theorem triple_createShareToken (fault createdByKeyPrefix : Option String) (tokenHash expiresAt createdAt : String)
    (before : List ShareTokenRow × Database) :
    Triple (fun s => seen s = before)
      (createShareToken fault tokenHash runId createdByKeyPrefix (some expiresAt) createdAt)
      (fun _ s => hasRun s runId ∧
        seen s = (before.1 ++ [⟨tokenHash, runId, createdByKeyPrefix, createdAt, some expiresAt, none⟩], before.2))
      (fun s => seen s = before) := by
  apply triple_execute
  · intro s u s' hs hinsert
    split at hinsert
    · rename_i hrun
      split at hinsert
      · rename_i hrow
        obtain ⟨-, rfl⟩ := Prod.mk.inj (Except.ok.inj hinsert)
        rw [← hs]
        exact ⟨hrun, Prod.ext (insert_eq_some hrow).1 rfl⟩
      · cases hinsert
    · cases hinsert
  · exact fun _ hs => hs

theorem triple_httpCreateShareToken (expiresInDays : Option Int) (before : List ShareTokenRow × Database) :
    Triple (fun s => seen s = before) (httpCreateShareToken env faults auth runId expiresInDays token)
      (fun response s => response.token = token ∧ response.runId = runId ∧ hasRun s runId ∧
        ∃ expiresAt, response.expiresAt = some expiresAt ∧
          seen s = (before.1 ++ [⟨env.hmac token, runId, some auth.apiKey.keyPrefix, env.now,
            some expiresAt, none⟩],
            before.2))
      (fun s => seen s = before) := by
  apply triple_ite
  · intro _
    apply triple_bind (keeps_seen (leaves_ofExcept _) _)
    intro _
    apply triple_bind (keeps_seen (leaves_mapError (seen_getRun _)) _)
    intro run
    apply triple_bind (keeps_seen (leaves_requireEndpointAccess (fun _ _ => rfl)) _)
    intro _
    apply triple_bind (keeps_seen (leaves_ofExcept _) _)
    intro _
    apply triple_bind (keeps_seen (leaves_ofExcept _) _)
    intro _
    apply triple_bind (keeps_seen (leaves_ofExcept _) _)
    intro expiresAt
    apply triple_bind (triple_mapError (triple_createShareToken _ _ _ _ _ before))
    intro _
    apply triple_bind (Q := fun _ s => hasRun s runId ∧ seen s = (before.1 ++ [⟨env.hmac token, runId,
      some auth.apiKey.keyPrefix, env.now, some expiresAt, none⟩], before.2))
    · constructor
      intro s hs
      rw [emitAuditEvent_eq]
      split <;> exact hs
    · exact fun _ => triple_pure (fun _ hs => ⟨rfl, rfl, hs.1, expiresAt, rfl, hs.2⟩)
  · exact fun _ => triple_fail (fun _ hs => hs)

theorem revokeRow_nothing {now : String} {rows : List ShareTokenRow}
    (h : rows.filter (fun r => named env token r && r.revokedAt.isNone) = []) :
    rows.map (revokeRow env now token) = rows := by
  rw [List.filter_eq_nil_iff] at h
  exact (List.map_congr_left (fun r hr => if_neg (h r hr))).trans (List.map_id' rows)

theorem triple_revokeShareToken (before : List ShareTokenRow × Database) :
    Triple (fun s => seen s = before) (revokeShareToken env faults (env.hmac token) (some token))
      (fun _ s => seen s = (before.1.map (revokeRow env env.now token), before.2)) (fun s => seen s = before) := by
  apply triple_bind (Q := fun changes s => seen s = (before.1.map (revokeRow env env.now token), before.2) ∧
    changes = (before.1.filter (fun r => named env token r && r.revokedAt.isNone)).length)
  · apply triple_execute
    · intro s changes s' hs h
      obtain ⟨rfl, rfl⟩ := Prod.mk.inj (Except.ok.inj h)
      rw [← hs]
      exact ⟨rfl, rfl⟩
    · exact fun _ hs => hs
  · intro changes
    apply triple_ite
    · rintro rfl
      refine triple_fail (fun s hs => ?_)
      obtain ⟨hseen, hnone⟩ := hs
      rw [hseen, revokeRow_nothing (List.length_eq_zero_iff.mp hnone.symm)]
    · exact fun _ => triple_pure (fun _ hs => hs.1)

theorem triple_httpRevokeShareToken (before : List ShareTokenRow × Database) :
    Triple (fun s => seen s = before) (httpRevokeShareToken env faults auth runId token)
      (fun _ s => seen s = (before.1.map (revokeRow env env.now token), before.2)) (fun s => seen s = before) := by
  apply triple_bind (keeps_seen (leaves_mapError (seen_getRun _)) _)
  intro run
  apply triple_bind (keeps_seen (leaves_requireEndpointAccess (fun _ _ => rfl)) _)
  intro _
  apply triple_bind (keeps_seen (leaves_ofExcept _) _)
  intro _
  apply triple_bind (keeps_seen (leaves_ofExcept _) _)
  intro _
  apply triple_bind (triple_mapError (triple_revokeShareToken before))
  intro _
  apply triple_bind (Q := fun _ s => seen s = (before.1.map (revokeRow env env.now token), before.2))
  · constructor
    intro s hs
    rw [emitAuditEvent_eq]
    split <;> exact hs
  · exact fun _ => triple_pure (fun _ hs => hs)

theorem seen_requireRunDeletion : Leaves seen (requireRunDeletion env faults auth runId) := by
  apply leaves_bind (leaves_ofExcept _)
  intro _
  apply leaves_bind (leaves_mapError (seen_getRun _))
  intro run
  apply leaves_bind (leaves_requireEndpointAccess (fun _ _ => rfl))
  intro _
  apply leaves_bind (leaves_ofExcept _)
  intro _
  exact leaves_bind (leaves_ofExcept _) (fun _ => leaves_pure _)

variable {deletes : Nat → Option String}

theorem keeps_otherRun {id : String} (hne : id ≠ runId) :
    Keeps (fun db : Database => (db.findRun id).isSome = true) (RunTables.deleteRun deletes runId) := by
  have hsame : ∀ {fault : Option String} {g : Database → Database} (h : ∀ db, (g db).runs = db.runs),
      Keeps (fun db : Database => (db.findRun id).isSome = true) (execute fault (fun db => .ok ((), g db))) := by
    intro fault g hg
    apply keeps_execute
    intro db u db' hdb h
    obtain ⟨-, rfl⟩ := Prod.mk.inj (Except.ok.inj h)
    rw [Database.findRun, hg]
    exact hdb
  refine keeps_bind (hsame (fun _ => rfl)) (fun _ => keeps_bind (hsame (fun _ => rfl)) (fun _ => ?_))
  refine keeps_bind (hsame (fun _ => rfl)) (fun _ => keeps_bind (hsame (fun _ => rfl)) (fun _ => ?_))
  refine keeps_bind (hsame (fun _ => rfl)) (fun _ => keeps_bind (hsame (fun _ => rfl)) (fun _ => ?_))
  refine keeps_bind (hsame (fun _ => rfl)) (fun _ => keeps_bind ?_ (fun changes => ?_))
  · apply keeps_execute
    intro db changes db' hdb h
    obtain ⟨-, rfl⟩ := Prod.mk.inj (Except.ok.inj h)
    obtain ⟨run, hrun⟩ := Option.isSome_iff_exists.mp hdb
    obtain ⟨hmem, hid⟩ := find_some hrun
    rw [Database.findRun, Table.find, List.find?_isSome]
    refine ⟨run, List.mem_filter.mpr ⟨hmem, ?_⟩, hid⟩
    simpa [beq_iff_eq.mp hid] using hne
  · split
    · exact triple_fail (fun _ hs => hs)
    · exact triple_pure (fun _ hs => hs)

theorem deleteRun_stopped (h : ¬ (deletes 0 = none ∧ deletes 1 = none)) (s : LinkStore) :
    seen (deleteRun deletes runId s).2 = seen s := by
  cases h0 : deletes 0 with
  | some text => simp only [deleteRun, bind, execute, h0, statement_some]
  | none =>
      cases h1 : deletes 1 with
      | some text =>
          simp only [deleteRun, bind, execute, h0, h1, statement_some, statement_none]
          rfl
      | none => exact absurd ⟨h0, h1⟩ h

theorem deleteRun_dropped (h : deletes 0 = none ∧ deletes 1 = none) (s : LinkStore) :
    links (deleteRun deletes runId s).2 = (links s).filter (fun r => !(r.runId == runId)) ∧
      ∀ id, id ≠ runId → hasRun s id → hasRun (deleteRun deletes runId s).2 id := by
  simp only [deleteRun, bind, execute, h.1, h.2, statement_none]
  refine ⟨rfl, fun id hne hid => ?_⟩
  exact (keeps_otherRun hne).after (fun _ _ h => h) (fun _ h => h) hid

theorem httpDeleteRun_past {run : RunRow} {t : LinkStore}
    (h : requireRunDeletion env faults auth runId s = (.ok run, t)) :
    seen (httpDeleteRun env faults auth runId deletes s).2 = seen (deleteRun deletes runId t).2 := by
  rw [httpDeleteRun, bind_ok h]
  exact bind_leaves seen (fun _ => leaves_audit _) t

theorem deleteProject_ok {refused : Option String} {projectId : String} {runIds : List String}
    (h : deleteProject refused projectId s = (.ok runIds, s')) :
    runIds = runIdsOf projectId s ∧ s' = withoutProject projectId s := by
  obtain ⟨project, t, hquery, hrest⟩ := bind_eq_ok (transaction_eq_ok.mp h).2.2
  obtain ⟨-, rfl⟩ := query_eq_ok hquery
  cases project with
  | none => cases hrest
  | some row =>
      obtain ⟨hids, hstore⟩ := Prod.mk.inj (Except.ok.inj (execute_ok hrest))
      exact ⟨hids.symm, hstore.symm⟩

theorem hasRun_withoutProject {projectId id : String} (h : hasRun s id) (hne : id ∉ runIdsOf projectId s) :
    hasRun (withoutProject projectId s) id := by
  obtain ⟨run, hrun⟩ := Option.isSome_iff_exists.mp h
  obtain ⟨hmem, hid⟩ := find_some hrun
  rw [hasRun, Database.findRun, Table.find, List.find?_isSome]
  refine ⟨run, List.mem_filter.mpr ⟨hmem, ?_⟩, hid⟩
  simpa [beq_iff_eq.mp hid] using hne

theorem step_effect (s : LinkStore) (i : Moment × Op) : Effect env s (step env s i).1 (step env s i).2 := by
  obtain ⟨moment, op⟩ := i
  cases op with
  | create auth runId expiresInDays token =>
      have hcreate := @triple_httpCreateShareToken
        (readAt env moment) moment.faults auth runId token expiresInDays (seen s)
      rcases hrun : httpCreateShareToken (readAt env moment) moment.faults auth runId expiresInDays token s with
        ⟨e | response, s'⟩
      · rw [step, hrun]
        exact effect_seen (hcreate.of_error rfl hrun)
      · rw [step, hrun]
        obtain ⟨rfl, rfl, hhas, expiresAt, hexpires, hseen⟩ := hcreate.of_ok rfl hrun
        obtain ⟨hlinks, hdb⟩ := Prod.mk.inj hseen
        simp only [issuedEvent, hexpires, Option.getD_some]
        exact ⟨⟨(hasRun_congr hdb).mp hhas, _, _, hlinks⟩, fun id hid => .inl ((hasRun_congr hdb).mpr hid)⟩
  | showRun token => exact effect_seen (seen_httpGetSharedRun.shows s)
  | showMetrics token query => exact effect_seen ((seen_httpGetSharedMetrics query).shows s)
  | revoke auth runId token =>
      have hrevoke := @triple_httpRevokeShareToken (readAt env moment) moment.faults auth runId token (seen s)
      rcases hrun : httpRevokeShareToken (readAt env moment) moment.faults auth runId token s with ⟨e | id, s'⟩
      · rw [step, hrun]
        exact effect_seen (hrevoke.of_error rfl hrun)
      · rw [step, hrun]
        obtain ⟨hlinks, hdb⟩ := Prod.mk.inj (hrevoke.of_ok rfl hrun)
        exact ⟨⟨moment.now, hlinks⟩, fun id hid => .inl ((hasRun_congr hdb).mpr hid)⟩
  | deleteRun auth runId deletes =>
      have hchecks := (@seen_requireRunDeletion (readAt env moment) moment.faults auth runId).shows s
      rcases hrun : requireRunDeletion (readAt env moment) moment.faults auth runId s with ⟨e | run, t⟩
      · simp only [step, hrun, droppedEvent, httpDeleteRun, bind_error hrun]
        rw [hrun] at hchecks
        exact effect_seen hchecks
      · rw [hrun] at hchecks
        have hpast := @httpDeleteRun_past (readAt env moment) moment.faults auth runId s deletes run t hrun
        obtain ⟨hlinks, hdb⟩ := Prod.mk.inj hchecks
        simp only [step, hrun, droppedEvent]
        split
        · rename_i hdeletes
          obtain ⟨hfilter, hstays⟩ := @deleteRun_dropped runId deletes hdeletes t
          obtain ⟨hlinks', hdb'⟩ := Prod.mk.inj hpast
          refine ⟨?_, fun id hid => ?_⟩
          · simp only [hlinks', hfilter, hlinks, List.contains_cons, List.contains_nil, Bool.or_false]
          · by_cases hne : id = runId
            · exact .inr ⟨[runId], rfl, List.mem_singleton.mpr hne⟩
            · exact .inl ((hasRun_congr hdb').mpr (hstays id hne ((hasRun_congr hdb).mpr hid)))
        · rename_i hdeletes
          exact effect_seen (hpast.trans ((deleteRun_stopped hdeletes t).trans hchecks))
  | deleteProject projectId refused =>
      rcases hdelete : deleteProject refused projectId s with ⟨e | runIds, s'⟩
      · simp only [step, hdelete]
        rw [allOrNothing_transaction _ _ _ s e s' hdelete]
        exact effect_seen rfl
      · simp only [step, hdelete]
        obtain ⟨rfl, rfl⟩ := deleteProject_ok hdelete
        refine ⟨rfl, fun id hid => ?_⟩
        by_cases hgone : id ∈ runIdsOf projectId s
        · exact .inr ⟨_, rfl, hgone⟩
        · exact .inl (hasRun_withoutProject hid hgone)
  | other request =>
      exact ⟨congrArg Table.rows (request.links s), fun id hid => .inl (request.stays s id hid)⟩

end Steps

/-! The links behind a run of requests. -/

/-- A link to a run with some fingerprint was made. -/
def Issues (fingerprint runId expiresAt : String) : Event → Prop
  | .issued token id expires => env.hmac token = fingerprint ∧ id = runId ∧ expires = expiresAt
  | _ => False

def Drops (runId : String) : Event → Prop
  | .dropped runIds => runId ∈ runIds
  | _ => False

def Closes (fingerprint runId : String) : Event → Prop
  | .revoked token => env.hmac token = fingerprint ∨ token = fingerprint
  | .dropped runIds => runId ∈ runIds
  | _ => False

section Runs

variable {env} {fingerprint runId expiresAt token : String} {s s' : LinkStore} {event : Event}

def Stored (fingerprint runId : String) (s : LinkStore) : Prop :=
  ∃ row ∈ links s, row.token = fingerprint ∧ row.runId = runId

def Open (fingerprint runId expiresAt : String) (s : LinkStore) : Prop :=
  ∃ row ∈ links s, row.token = fingerprint ∧ row.runId = runId ∧ row.expiresAt = some expiresAt ∧
    row.revokedAt = none

theorem named_iff {row : ShareTokenRow} : named env token row = true ↔
    env.hmac token = row.token ∨ token = row.token := by
  rw [named, answers_iff, eq_comm, eq_comm (a := row.token) (b := token)]

theorem stored_step (h : Effect env s event s') :
    Stored fingerprint runId s' ↔
      (∃ expiresAt, Issues env fingerprint runId expiresAt event) ∨ Stored fingerprint runId s ∧
        ¬ Drops runId event := by
  have hlinks := h.links
  cases event with
  | issued token id expires =>
      obtain ⟨-, keyPrefix, now, hlinks⟩ := hlinks
      simp only [Stored, hlinks, List.mem_append, List.mem_singleton, or_and_right, exists_or, exists_eq_left, Issues,
        Drops, not_false_eq_true, and_true, exists_and_left, exists_eq']
      exact or_comm
  | revoked token =>
      obtain ⟨now, hlinks⟩ := hlinks
      simp only [Stored, hlinks, List.mem_map, exists_exists_and_eq_and, revokeRow_token, revokeRow_runId,
        Issues, Drops, exists_false, false_or, not_false_eq_true, and_true]
  | dropped runIds =>
      simp only [Stored, hlinks, List.mem_filter, Issues, Drops, exists_false, false_or]
      constructor
      · rintro ⟨row, ⟨hrow, hkept⟩, htoken, rfl⟩
        exact ⟨⟨row, hrow, htoken, rfl⟩, by simpa using hkept⟩
      · rintro ⟨⟨row, hrow, htoken, rfl⟩, hkept⟩
        exact ⟨row, ⟨hrow, by simpa using hkept⟩, htoken, rfl⟩
  | nothing => simp only [Stored, hlinks, Issues, Drops, exists_false, false_or, not_false_eq_true, and_true]

theorem open_step (h : Effect env s event s') :
    Open fingerprint runId expiresAt s' ↔
      Issues env fingerprint runId expiresAt event ∨
        Open fingerprint runId expiresAt s ∧ ¬ Closes env fingerprint runId event := by
  have hlinks := h.links
  cases event with
  | issued token id expires =>
      obtain ⟨-, keyPrefix, now, hlinks⟩ := hlinks
      simp only [Open, hlinks, List.mem_append, List.mem_singleton, or_and_right, exists_or, exists_eq_left, Issues,
        Closes, not_false_eq_true, and_true, Option.some.injEq]
      exact or_comm
  | revoked token =>
      obtain ⟨now, hlinks⟩ := hlinks
      simp only [Open, hlinks, List.mem_map, exists_exists_and_eq_and, Issues, Closes, false_or]
      constructor
      · rintro ⟨row, hrow, htoken, hrun, hexpires, hkept⟩
        rw [revokeRow, setWhere] at htoken hrun hexpires hkept
        split at hkept
        · cases hkept
        · rename_i hnot
          rw [if_neg hnot] at htoken hrun hexpires
          refine ⟨⟨row, hrow, htoken, hrun, hexpires, hkept⟩, fun hnamed => hnot ?_⟩
          rw [Bool.and_eq_true, named_iff, htoken]
          exact ⟨hnamed, by rw [hkept]; rfl⟩
      · rintro ⟨⟨row, hrow, htoken, hrun, hexpires, hkept⟩, hnot⟩
        have hsame : revokeRow env now token row = row := by
          apply if_neg
          intro hp
          rw [Bool.and_eq_true, named_iff, htoken] at hp
          exact hnot hp.1
        exact ⟨row, hrow, by rw [hsame]; exact ⟨htoken, hrun, hexpires, hkept⟩⟩
  | dropped runIds =>
      simp only [Open, hlinks, List.mem_filter, Issues, Closes, false_or]
      constructor
      · rintro ⟨row, ⟨hrow, hkept⟩, htoken, rfl, hrest⟩
        exact ⟨⟨row, hrow, htoken, rfl, hrest⟩, by simpa using hkept⟩
      · rintro ⟨⟨row, hrow, htoken, rfl, hrest⟩, hkept⟩
        exact ⟨row, ⟨hrow, by simpa using hkept⟩, htoken, rfl, hrest⟩
  | nothing => simp only [Open, hlinks, Issues, Closes, false_or, not_false_eq_true, and_true]

/-- Every link leads to a run, and runs out at some time. -/
structure Led (s : LinkStore) : Prop where
  leads : ∀ row ∈ links s, hasRun s row.runId
  ends : ∀ row ∈ links s, ∃ expiresAt, row.expiresAt = some expiresAt

theorem led_step (hs : Led s) (h : Effect env s event s') : Led s' := by
  have hlinks := h.links
  have hstays : ∀ row ∈ links s, (∀ runIds, event = .dropped runIds → row.runId ∉ runIds) →
      hasRun s' row.runId := by
    intro row hrow hnot
    rcases h.runs _ (hs.leads row hrow) with hrun | ⟨runIds, hevent, hgone⟩
    · exact hrun
    · exact absurd hgone (hnot runIds hevent)
  cases event with
  | issued token id expires =>
      obtain ⟨hrun, keyPrefix, now, hlinks⟩ := hlinks
      constructor
      · intro row hrow
        rw [hlinks] at hrow
        rcases List.mem_append.mp hrow with hrow | hrow
        · exact hstays row hrow nofun
        · obtain rfl := List.mem_singleton.mp hrow
          exact (h.runs _ hrun).resolve_right nofun
      · intro row hrow
        rw [hlinks] at hrow
        rcases List.mem_append.mp hrow with hrow | hrow
        · exact hs.ends row hrow
        · obtain rfl := List.mem_singleton.mp hrow
          exact ⟨expires, rfl⟩
  | revoked token =>
      obtain ⟨now, hlinks⟩ := hlinks
      have hold : ∀ row ∈ links s', ∃ old ∈ links s, row = revokeRow env now token old := by
        intro row hrow
        rw [hlinks] at hrow
        obtain ⟨old, hmem, rfl⟩ := List.mem_map.mp hrow
        exact ⟨old, hmem, rfl⟩
      constructor
      · intro row hrow
        obtain ⟨old, hmem, rfl⟩ := hold row hrow
        rw [revokeRow_runId]
        exact hstays old hmem nofun
      · intro row hrow
        obtain ⟨old, hmem, rfl⟩ := hold row hrow
        rw [revokeRow_expiresAt]
        exact hs.ends old hmem
  | dropped runIds =>
      have hold : ∀ row ∈ links s', row ∈ links s ∧ row.runId ∉ runIds := by
        intro row hrow
        rw [hlinks] at hrow
        simpa using List.mem_filter.mp hrow
      refine ⟨fun row hrow => hstays row (hold row hrow).1 (fun ids hids => ?_), fun row hrow =>
        hs.ends row (hold row hrow).1⟩
      obtain rfl := Event.dropped.inj hids
      exact (hold row hrow).2
  | nothing =>
      refine ⟨fun row hrow => hstays row (hlinks ▸ hrow) nofun, fun row hrow => hs.ends row (hlinks ▸ hrow)⟩

theorem led_run (hs : links s = []) (is : List (Moment × Op)) : Led (after (step env) s is) := by
  have hstart : Led s := ⟨by simp [hs], by simp [hs]⟩
  have h := invariant_history (G := fun _ _ _ => True) (fun _ s => Led s) (m := step env)
    (fun _ s i hs _ => led_step hs (step_effect s i)) [] s is hstart (guarded_true _ _ _ _)
  exact h

def issuedTokens (events : List Event) : List String :=
  events.filterMap (fun
    | .issued token _ _ => some token
    | _ => none)

/-- A link to a run was made under a token, and since then neither revoked nor dropped. -/
def Standing (env : LinkEnv) (events : List Event) (raw runId expiresAt : String) : Prop :=
  Since (fun e => e = .issued raw runId expiresAt) (Closes env (env.hmac raw) runId) events

/-- A request that presents the token is shown the run, or its metrics. -/
def ShowsRun (env : LinkEnv) (token runId : String) (s : LinkStore) : Prop :=
  ∃ faults response s', httpGetSharedRun env faults token s = (.ok response, s') ∧ response.runId = runId

def ShowsMetrics (env : LinkEnv) (token runId : String) (s : LinkStore) : Prop :=
  ∃ faults query response s', httpGetSharedMetrics env faults token query s = (.ok response, s') ∧
    response.runId = runId

theorem selects_unique {row row' : ShareTokenRow} (h : Selects env token s row) (h' : Selects env token s row') :
    row = row' :=
  Option.some.inj (h.found.symm.trans h'.found)

theorem showsRun_iff : ShowsRun env token runId s ↔ ∃ row, Selects env token s row ∧ row.runId = runId := by
  have hrunId : ∀ faults response t, httpGetSharedRun env faults token s = (.ok response, t) →
      ∃ row, Selects env token s row ∧ row.runId = response.runId := by
    intro faults response t h
    obtain ⟨row, hselects⟩ := opensRun_iff.mp ⟨faults, response, t, h⟩
    rw [httpGetSharedRun, if_pos hselects.enabled] at h
    obtain ⟨share, s₁, hshare, hrest⟩ := bind_eq_ok h
    obtain ⟨hfound, -, rfl⟩ := validateShareToken_ok (mapError_eq_ok hshare)
    obtain ⟨run, s₂, hrun, hrest⟩ := bind_eq_ok hrest
    obtain ⟨hfoundRun, -⟩ := getRun_ok (mapError_eq_ok hrun)
    obtain ⟨times, s₃, -, hrest⟩ := bind_eq_ok hrest
    obtain ⟨tags, s₄, -, hrest⟩ := bind_eq_ok hrest
    obtain ⟨names, s₅, -, hrest⟩ := bind_eq_ok hrest
    obtain ⟨rfl, -⟩ := pure_eq_ok hrest
    refine ⟨row, hselects, ?_⟩
    obtain rfl := Option.some.inj (hselects.found.symm.trans hfound)
    exact (beq_iff_eq.mp (find_some hfoundRun).2).symm
  constructor
  · rintro ⟨faults, response, t, h, rfl⟩
    exact hrunId faults response t h
  · rintro ⟨row, hselects, rfl⟩
    obtain ⟨faults, response, t, h⟩ := opensRun_iff.mpr ⟨row, hselects⟩
    obtain ⟨row', hselects', hresponse⟩ := hrunId faults response t h
    exact ⟨faults, response, t, h, by rw [← hresponse, selects_unique hselects hselects']⟩

theorem showsMetrics_iff : ShowsMetrics env token runId s ↔
    ∃ row, Selects env token s row ∧ row.runId = runId := by
  have hrunId : ∀ faults query response t, httpGetSharedMetrics env faults token query s = (.ok response, t) →
      ∃ row, Selects env token s row ∧ row.runId = response.runId := by
    intro faults query response t h
    obtain ⟨row, hselects⟩ := opensMetrics_iff.mp ⟨faults, query, response, t, h⟩
    rw [httpGetSharedMetrics, if_pos hselects.enabled] at h
    obtain ⟨share, s₁, hshare, hrest⟩ := bind_eq_ok h
    obtain ⟨hfound, -, rfl⟩ := validateShareToken_ok (mapError_eq_ok hshare)
    obtain ⟨run, s₂, -, hrest⟩ := bind_eq_ok hrest
    obtain ⟨series, s₃, -, hrest⟩ := bind_eq_ok hrest
    obtain ⟨names, s₄, -, hrest⟩ := bind_eq_ok hrest
    obtain ⟨aliases, s₅, -, hrest⟩ := bind_eq_ok hrest
    obtain ⟨rfl, -⟩ := pure_eq_ok hrest
    exact ⟨row, hselects, congrArg ShareTokenRow.runId (Option.some.inj (hselects.found.symm.trans hfound))⟩
  constructor
  · rintro ⟨faults, query, response, t, h, rfl⟩
    exact hrunId faults query response t h
  · rintro ⟨row, hselects, rfl⟩
    obtain ⟨faults, query, response, t, h⟩ := opensMetrics_iff.mpr ⟨row, hselects⟩
    obtain ⟨row', hselects', hresponse⟩ := hrunId faults query response t h
    exact ⟨faults, query, response, t, h, by rw [← hresponse, selects_unique hselects hselects']⟩

theorem selects_iff (hs : Led s)
    (hone : ∀ row ∈ links s, ∀ row' ∈ links s, named env token row = true →
      named env token row' = true → row = row') :
    (∃ row, Selects env token s row ∧ row.runId = runId) ↔
      env.shareLinksEnabled = true ∧
        ∃ fingerprint expiresAt, (env.hmac token = fingerprint ∨ token = fingerprint) ∧
        Open fingerprint runId expiresAt s ∧ ¬ expiresAt < env.now := by
  constructor
  · rintro ⟨row, hselects, rfl⟩
    obtain ⟨hrow, hnamed⟩ := find_some hselects.found
    obtain ⟨expiresAt, hexpires⟩ := hs.ends row hrow
    exact ⟨hselects.enabled, row.token, expiresAt, named_iff.mp hnamed,
      ⟨row, hrow, rfl, rfl, hexpires, hselects.live.kept⟩,
      hselects.live.current expiresAt hexpires⟩
  · rintro ⟨henabled, fingerprint, expiresAt, hnamed, ⟨row, hrow, rfl, rfl, hexpires, hkept⟩, hcurrent⟩
    have hnames : named env token row = true := named_iff.mpr hnamed
    refine ⟨row, ⟨henabled, ?_, ⟨hkept, ?_⟩, hs.leads row hrow⟩, rfl⟩
    · cases hfind : s.shareTokens.find (ShareTokenRow.answers (env.hmac token) (some token)) with
      | none => exact absurd hnames (by rw [named, find_none_iff.mp hfind row hrow]; exact Bool.false_ne_true)
      | some found =>
          obtain ⟨hfound, hanswers⟩ := find_some hfind
          rw [hone found hfound row hrow hanswers hnames]
    · rintro expires hmem
      obtain rfl := Option.some.inj (hexpires.symm.trans hmem)
      exact hcurrent

theorem standing_iff {events : List Event} :
    Since (Issues env fingerprint runId expiresAt) (Closes env fingerprint runId) events ↔
      ∃ raw, env.hmac raw = fingerprint ∧ Standing env events raw runId expiresAt := by
  constructor
  · intro h
    have hraw : Since (fun e => ∃ raw, e = .issued raw runId expiresAt ∧ env.hmac raw = fingerprint)
        (Closes env fingerprint runId) events := by
      refine h.weaken (fun e he => ?_) (fun _ => id)
      cases e with
      | issued token id expires =>
          obtain ⟨hfingerprint, rfl, rfl⟩ := he
          exact ⟨token, rfl, hfingerprint⟩
      | revoked | dropped | nothing => exact he.elim
    obtain ⟨raw, hraw⟩ := since_exists.mp hraw
    obtain ⟨-, -, -, hfingerprint⟩ := hraw.started
    subst hfingerprint
    exact ⟨raw, rfl, hraw.weaken (fun _ he => he.1) (fun _ => id)⟩
  · rintro ⟨raw, rfl, h⟩
    refine h.weaken (fun e he => ?_) (fun _ => id)
    subst he
    exact ⟨rfl, rfl, rfl⟩

end Runs

/-- After any requests a token shows a run just when share links are on, and a link to the run was made
under it that has neither been revoked nor dropped with the run since, and has not run out. The
fingerprint of such a token does the same. -/
theorem shows_run {env : LinkEnv} {s : LinkStore} (hs : links s = []) (is : List (Moment × Op))
    (hapart : ∀ raw ∈ issuedTokens (told (step env) s is), ∀ raw' ∈ issuedTokens (told (step env) s is),
      env.hmac raw ≠ env.hmac (env.hmac raw')) (moment : Moment) (token runId : String) :
    (ShowsRun (readAt env moment) token runId (after (step env) s is) ↔ env.shareLinksEnabled = true ∧
      ∃ raw expiresAt, (env.hmac token = env.hmac raw ∨ token = env.hmac raw) ∧
        Standing env (told (step env) s is) raw runId expiresAt ∧ ¬ expiresAt < moment.now) ∧
    (ShowsMetrics (readAt env moment) token runId (after (step env) s is) ↔
      ShowsRun (readAt env moment) token runId (after (step env) s is)) := by
  refine ⟨?_, showsMetrics_iff.trans showsRun_iff.symm⟩
  have hstored : ∀ row ∈ links (after (step env) s is), ∃ raw ∈ issuedTokens (told (step env) s is),
      env.hmac raw = row.token := by
    intro row hrow
    have hsince : Since (fun e => ∃ expiresAt, Issues env row.token row.runId expiresAt e) (Drops row.runId)
        (told (step env) s is) :=
      (since_told (fun s i => stored_step (step_effect s i)) (by simp [Stored, hs]) is).mp ⟨row, hrow, rfl, rfl⟩
    obtain ⟨e, he, expiresAt, hissues⟩ := hsince.started
    cases e with
    | issued raw id expires => exact ⟨raw, List.mem_filterMap.mpr ⟨_, he, rfl⟩, hissues.1⟩
    | revoked | dropped | nothing => exact hissues.elim
  rw [showsRun_iff, selects_iff (led_run hs is)]
  · refine and_congr Iff.rfl ?_
    have hopen : ∀ fingerprint expiresAt, Open fingerprint runId expiresAt (after (step env) s is) ↔
        ∃ raw, env.hmac raw = fingerprint ∧ Standing env (told (step env) s is) raw runId expiresAt := fun _ _ =>
      (since_told (fun s i => open_step (step_effect s i)) (by simp [Open, hs]) is).trans standing_iff
    constructor
    · rintro ⟨fingerprint, expiresAt, hnamed, hrow, hcurrent⟩
      obtain ⟨raw, rfl, hstanding⟩ := (hopen _ _).mp hrow
      exact ⟨raw, expiresAt, hnamed, hstanding, hcurrent⟩
    · rintro ⟨raw, expiresAt, hnamed, hstanding, hcurrent⟩
      exact ⟨_, expiresAt, hnamed, (hopen _ _).mpr ⟨raw, rfl, hstanding⟩, hcurrent⟩
  · intro row hrow row' hrow' hnamed hnamed'
    obtain ⟨raw, hraw, htoken⟩ := hstored row hrow
    obtain ⟨raw', hraw', htoken'⟩ := hstored row' hrow'
    have hequal : row.token = row'.token → row = row' := fun heq =>
      eq_of_mem (p := fun r : ShareTokenRow => r.token == row.token)
        (fun a b ha hb => (beq_iff_eq.mp ha).trans (beq_iff_eq.mp hb).symm) hrow hrow' (beq_self_eq_true _)
        (beq_iff_eq.mpr heq.symm)
    rcases named_iff.mp hnamed with h | h <;> rcases named_iff.mp hnamed' with h' | h'
    · exact hequal (h.symm.trans h')
    · exact absurd (htoken.trans (h.symm.trans (congrArg env.hmac (h'.trans htoken'.symm))))
        (hapart raw hraw raw' hraw')
    · exact absurd (htoken'.trans (h'.symm.trans (congrArg env.hmac (h.trans htoken.symm))))
        (hapart raw' hraw' raw hraw)
    · exact hequal (h.symm.trans h')

/-- A run that was shared, whose link was revoked after another run had been made. -/
def revokedLink : List (Moment × Op) :=
  let moment : Moment := { now := "2026-01-01 00:00:00", expiry := fun _ => "2026-01-02 00:00:00" }
  [(moment, .create (.devMode 0) "run" (some 1) "secret"),
    (moment, .other (aroundInitRun (fun _ => true) 256 (.devMode 0) { generatedId := "other", now := "" }
      ⟨none, none, none, none, [], []⟩)),
    (moment, .showRun "secret"), (moment, .revoke (.devMode 0) "run" "secret")]

theorem apart_revokedLink : ∀ raw ∈ issuedTokens (told (step linksOn) oneRun revokedLink),
    ∀ raw' ∈ issuedTokens (told (step linksOn) oneRun revokedLink), linksOn.hmac raw ≠
      linksOn.hmac (linksOn.hmac raw') := by
  have hissued : issuedTokens (told (step linksOn) oneRun revokedLink) = ["secret"] := by decide +kernel
  rw [hissued]
  intro raw hraw raw' _ h
  exact hmac_apart raw hraw raw' (hmac_inj h).symm

theorem shows_run_revokedLink :
    (ShowsRun (readAt linksOn { now := "2026-01-01 00:00:00", expiry := fun _ => "" }) "secret" "run"
        (after (step linksOn) oneRun revokedLink) ↔ linksOn.shareLinksEnabled = true ∧
      ∃ raw expiresAt, (linksOn.hmac "secret" = linksOn.hmac raw ∨ "secret" = linksOn.hmac raw) ∧
        Standing linksOn (told (step linksOn) oneRun revokedLink) raw "run" expiresAt ∧
          ¬ expiresAt < "2026-01-01 00:00:00") ∧
    (ShowsMetrics (readAt linksOn { now := "2026-01-01 00:00:00", expiry := fun _ => "" }) "secret" "run"
        (after (step linksOn) oneRun revokedLink) ↔
      ShowsRun (readAt linksOn { now := "2026-01-01 00:00:00", expiry := fun _ => "" }) "secret" "run"
        (after (step linksOn) oneRun revokedLink)) :=
  shows_run rfl revokedLink apart_revokedLink { now := "2026-01-01 00:00:00", expiry := fun _ => "" } "secret" "run"

end MLRunX.ShareLifetimes
