import MLRunX.AuditTrail
import MLRunX.ProjectDeletion

namespace MLRunX.AuditRefinement

open Atomicity AuditLog AuditTrail Auth Commands Constraints Http MutatorAtomicity Mutators Processor RunTables Sqlite
open Statements Tables
open ForeignKeys hiding deleteProject deleteRun hasKey hasRun

/-- The columns of an audit event that are foreign keys. -/
def references (event : AuditEvent) : AuditEventRow := ⟨event.actorKeyId, event.projectId, event.runId⟩

/-- The ids are those of the store. -/
structure Stores (t : AuditTrail.Tables) (s : SqliteStore) : Prop where
  users : t.users = s.ui.users.rows.map (fun r => r.id)
  apiKeys : t.apiKeys = s.apiKeys.rows.map (fun r => (r.id, r.projectId))
  projects : t.projects = s.ui.projects.rows.map (fun r => r.id)
  runs : t.runs = s.runTables.runs.rows.map (fun r => (r.id, r.projectId))
  auditEvents : t.auditEvents.map references = s.auditEvents

variable {t : AuditTrail.Tables} {s s' : SqliteStore} {projectId runId : String} {u : Unit}

theorem Stores.hasProject (h : Stores t s) (id : String) :
    AuditTrail.hasProject t id = KeyServer.hasProject s id := by
  rw [Bool.eq_iff_iff, hasProject_iff, AuditTrail.hasProject, h.projects]
  simp

theorem Stores.hasRun (h : Stores t s) (id : String) : AuditTrail.hasRun t id = ForeignKeys.hasRun s id := by
  rw [Bool.eq_iff_iff, hasRun_iff, AuditTrail.hasRun, h.runs]
  simp

theorem Stores.hasKey (h : Stores t s) (id : String) : AuditTrail.hasKey t id = ForeignKeys.hasKey s id := by
  rw [Bool.eq_iff_iff, hasKey_iff, AuditTrail.hasKey, h.apiKeys]
  simp

theorem deleted_of_ok {faults : DeleteProjectFaults}
    (h : ForeignKeys.deleteProject faults projectId s = (.ok u, s')) :
    KeyServer.hasProject s projectId = true ∧ Deleted projectId s s' := by
  obtain ⟨project, -, hfind, -, hgranted, rfl⟩ := deleteProject_passed h
  rw [written_granted hgranted]
  refine ⟨?_, deleted_carriedOut faults projectId s⟩
  rw [KeyServer.hasProject, ← (query_eq_ok hfind).1]
  rfl

theorem contains_runs (h : Stores t s) (projectId id : String) :
    t.runs.contains (id, projectId) = (runIdsOf projectId s).contains id := by
  rw [Bool.eq_iff_iff, List.contains_iff_mem, List.contains_iff_mem, h.runs, runIdsOf, List.mem_map, List.mem_map]
  constructor
  · rintro ⟨r, hr, heq⟩
    obtain ⟨rfl, rfl⟩ := Prod.mk.inj heq
    exact ⟨r, List.mem_filter.mpr ⟨hr, beq_self_eq_true _⟩, rfl⟩
  · rintro ⟨r, hr, rfl⟩
    obtain ⟨hr, hproject⟩ := List.mem_filter.mp hr
    exact ⟨r, hr, Prod.ext rfl (beq_iff_eq.mp hproject)⟩

theorem contains_apiKeys (h : Stores t s) (projectId id : String) :
    t.apiKeys.contains (id, some projectId) = (ownedKeyIds projectId s).contains id := by
  rw [Bool.eq_iff_iff, List.contains_iff_mem, List.contains_iff_mem, h.apiKeys, ownedKeyIds, List.mem_map,
    List.mem_map]
  constructor
  · rintro ⟨k, hk, heq⟩
    obtain ⟨rfl, hproject⟩ := Prod.mk.inj heq
    exact ⟨k, List.mem_filter.mpr ⟨hk, beq_iff_eq.mpr hproject⟩, rfl⟩
  · rintro ⟨k, hk, rfl⟩
    obtain ⟨hk, hproject⟩ := List.mem_filter.mp hk
    exact ⟨k, hk, Prod.ext rfl (beq_iff_eq.mp hproject)⟩

theorem stores_deleteProject (hstores : Stores t s) {faults : DeleteProjectFaults}
    (h : ForeignKeys.deleteProject faults projectId s = (.ok u, s')) :
    Stores ((AuditTrail.Write.deleteProject projectId).apply t) s' := by
  obtain ⟨hproject, hdeleted⟩ := deleted_of_ok h
  rw [← hstores.hasProject] at hproject
  rw [AuditTrail.Write.apply, if_pos hproject]
  constructor
  case users =>
    rw [hdeleted.users.1]
    exact hstores.users
  case apiKeys =>
    rw [hdeleted.apiKeys, AuditTrail.deleteProject, hstores.apiKeys, List.filter_map]
    rfl
  case projects =>
    rw [hdeleted.projects, AuditTrail.deleteProject, hstores.projects, List.filter_map]
    rfl
  case runs =>
    rw [hdeleted.runs, AuditTrail.deleteProject, hstores.runs, List.filter_map]
    rfl
  case auditEvents =>
    rw [hdeleted.audit, ← hstores.auditEvents, AuditTrail.deleteProject, List.map_map, List.map_map, List.map_map]
    refine List.map_congr_left (fun event _ => ?_)
    simp only [Function.comp_apply, references, AuditTrail.clearProject, clearRuns, forget, contains_runs hstores,
      contains_apiKeys hstores]

theorem stores_runsGone (hstores : Stores t s) (h : RunsGone (fun id => id == runId) s s') :
    Stores (AuditTrail.deleteRun runId t) s' := by
  obtain ⟨hui, hkeys, -⟩ := h.besides
  constructor
  case users =>
    rw [hui]
    exact hstores.users
  case apiKeys =>
    rw [hkeys]
    exact hstores.apiKeys
  case projects =>
    rw [hui]
    exact hstores.projects
  case runs =>
    rw [h.runs, AuditTrail.deleteRun, hstores.runs, List.filter_map]
    rfl
  case auditEvents =>
    rw [h.audit, ← hstores.auditEvents, AuditTrail.deleteRun, List.map_map, List.map_map]
    refine List.map_congr_left (fun event _ => ?_)
    rw [Function.comp_apply, Function.comp_apply, setWhere_runId]
    rfl

theorem stores_deleteRun (hstores : Stores t s) {faults : Nat → Option String}
    (h : ForeignKeys.deleteRun faults runId s = (.ok u, s')) :
    Stores ((AuditTrail.Write.deleteRun runId).apply t) s' := by
  obtain ⟨_, s₁, hdata, hafter⟩ := bind_eq_ok h
  obtain ⟨changes, s₂, hquery, hbehind⟩ := bind_eq_ok hafter
  obtain ⟨_, s₃, hrow, hend⟩ := bind_eq_ok hbehind
  obtain ⟨hgranted, hwritten⟩ := enforcedAll_ok hdata
  have hstate : s' = deleteRunRow runId (written (writes id faults (dataDeletes runId)) s) := by
    rw [← hwritten, ← (query_eq_ok hquery).2]
    refine Eq.trans ?_ (enforced_ok hrow).2.2
    split at hend
    · cases hend
    · exact (pure_eq_ok hend).2
  rw [hstate, written_granted hgranted]
  exact stores_runsGone hstores (runsGone_runDeletes faults runId s)

theorem refers_iff (hstores : Stores t s) (event : AuditEvent) :
    trail.Refers event t ↔ event.actorUserId.all (KeyServer.hasUser s) = true ∧
      event.actorKeyId.all (ForeignKeys.hasKey s) = true ∧ event.projectId.all (KeyServer.hasProject s) = true ∧
        event.runId.all (ForeignKeys.hasRun s) = true := by
  have huser : trail.hasUser t = KeyServer.hasUser s := by
    funext id
    rw [Bool.eq_iff_iff]
    change t.users.contains id = true ↔ _
    rw [hstores.users]
    simp [KeyServer.hasUser, Table.find]
  rw [Ledger.Refers, huser, ← funext hstores.hasKey, ← funext hstores.hasProject, ← funext hstores.hasRun]
  rfl

end MLRunX.AuditRefinement
