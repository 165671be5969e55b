import MLRunX.AuditTrail

namespace MLRunX.AuditCompleteness

open AuditLog AuditTrail Auth Commands Http Runs

def label (event : AuditEvent) : String × String × Option String × String :=
  (event.action, event.resourceType, event.resourceId, event.outcome)

def Complete (s : State) : Prop := s.tables.auditEvents.map label = s.emitted.map label

instance : DecidablePred Complete := fun s => by
  unfold Complete
  infer_instance

/-- An event that is emitted right after the handler's own write is in the table. -/
def Recorded (auth : AuthContext) (site : Site) (t : Tables) : Prop :=
  ((emitAuditEvent trail none (site.event auth) : Command Tables HttpError Unit) (site.write.apply t)).2.auditEvents =
    (site.write.apply t).auditEvents ++ [site.event auth]

def ActorStands (auth : AuthContext) (t : Tables) : Prop :=
  (auditActorIds auth).1.all (fun userId => t.users.contains userId) = true ∧
    (auditActorIds auth).2.all (hasKey t) = true

/-- The event is not about what was just deleted, and ids out of a request or of the keys in memory name rows. -/
def Named (t : Tables) : Site → Prop
  | .requireEndpointAccess projectId runId _ _ _ => projectId.all (hasProject t) = true ∧ runId.all (hasRun t) = true
  | .httpCreateKeyDenied projectId | .httpCreateKey _ projectId | .httpRevokeKey _ projectId =>
      projectId.all (hasProject t) = true
  | .httpListRuns requested => hasProject t requested = true
  | .httpDeleteProject _ | .httpDeleteRun _ _ => False
  | _ => True

def Meets (auth : AuthContext) (site : Site) (t : Tables) : Prop :=
  ActorStands auth (site.write.apply t) ∧ Named t site

def Spares (t : Tables) (event : AuditEvent) : Write → Prop
  | .deleteRun runId => event.runId ≠ some runId
  | .deleteProject projectId => event.projectId ≠ some projectId ∧
      (∀ id, event.runId = some id → (id, projectId) ∉ t.runs) ∧
        ∀ id, event.actorKeyId = some id → (id, some projectId) ∉ t.apiKeys
  | _ => True

/-- A handler comes to its event as it has to, and what is written spares the events on their way. -/
def Careful (s : State) : Step → Prop
  | .write w => ∀ f ∈ s.flying, Spares s.tables (f.2.event f.1) w
  | .arrive auth site => Meets auth site s.tables ∧ ∀ f ∈ s.flying, Spares s.tables (f.2.event f.1) site.write
  | .emit _ => True

def Sound (t : Tables) : Prop := ∀ r ∈ t.runs, hasProject t r.2 = true

section Writes

variable {t : Tables} {event : AuditEvent}

theorem hasProject_deleteProject (projectId id : String) :
    hasProject (deleteProject projectId t) id = (hasProject t id && !(id == projectId)) := by
  rw [Bool.eq_iff_iff]
  simp [hasProject, deleteProject, List.mem_filter]

theorem hasRun_deleteRun (runId id : String) : hasRun (deleteRun runId t) id =
    (hasRun t id && !(id == runId)) := by
  rw [Bool.eq_iff_iff]
  simp only [hasRun, deleteRun, List.any_eq_true, List.mem_filter, Bool.and_eq_true, beq_iff_eq, Bool.not_eq_true']
  constructor
  · rintro ⟨r, ⟨hr, hne⟩, rfl⟩
    exact ⟨⟨r, hr, rfl⟩, hne⟩
  · rintro ⟨⟨r, hr, rfl⟩, hne⟩
    exact ⟨r, ⟨hr, hne⟩, rfl⟩

theorem hasRun_of_mem {runId projectId : String} (h : (runId, projectId) ∈ t.runs) : hasRun t runId = true :=
  List.any_eq_true.mpr ⟨_, h, beq_self_eq_true _⟩

theorem map_label (f : AuditEvent → AuditEvent) (hf : ∀ event, label (f event) = label event)
    (events : List AuditEvent) :
    (events.map f).map label = events.map label := by
  rw [List.map_map]
  exact List.map_congr_left (fun event _ => hf event)

theorem label_apply (w : Write) (t : Tables) : (w.apply t).auditEvents.map label = t.auditEvents.map label := by
  cases w with
  | none => rfl
  | user id | project id | apiKey id projectId | run id projectId =>
      simp only [Write.apply]
      split <;> rfl
  | deleteRun runId => exact map_label (clearRuns _) (fun _ => rfl) _
  | deleteProject projectId =>
      simp only [Write.apply]
      split
      · exact (map_label (clearProject _ _) (fun _ => rfl) _).trans (map_label (clearRuns _) (fun _ => rfl) _)
      · rfl

theorem sound_apply (h : Sound t) (w : Write) : Sound (w.apply t) := by
  cases w with
  | none => exact h
  | user id =>
      simp only [Write.apply]
      split <;> exact h
  | apiKey id projectId =>
      simp only [Write.apply]
      split <;> exact h
  | project id =>
      simp only [Write.apply]
      split
      · exact h
      · intro r hr
        have hold := h r hr
        simp only [hasProject, List.contains_iff_mem] at hold ⊢
        exact List.mem_append_left _ hold
  | run id projectId =>
      simp only [Write.apply]
      split
      · exact h
      · rename_i hchecked
        rw [Bool.or_eq_true, not_or, Bool.not_eq_true', Bool.not_eq_false] at hchecked
        intro r hr
        rcases List.mem_append.mp hr with hr | hr
        · exact h r hr
        · obtain rfl := List.mem_singleton.mp hr
          exact hchecked.2
  | deleteRun runId => exact fun r hr => h r (List.mem_filter.mp hr).1
  | deleteProject projectId =>
      simp only [Write.apply]
      split
      · intro r hr
        obtain ⟨hr, hother⟩ := List.mem_filter.mp hr
        rw [hasProject_deleteProject, h r hr, Bool.true_and]
        exact hother
      · exact h

theorem refers_mono {t' : Tables} (h : trail.Refers event t)
    (huser : ∀ id, event.actorUserId = some id → t.users.contains id = true → t'.users.contains id = true)
    (hkey : ∀ id, event.actorKeyId = some id → hasKey t id = true → hasKey t' id = true)
    (hproject : ∀ id, event.projectId = some id → hasProject t id = true → hasProject t' id = true)
    (hrun : ∀ id, event.runId = some id → hasRun t id = true → hasRun t' id = true) : trail.Refers event t' := by
  have hall : ∀ {o : Option String} {p q : String → Bool}, (∀ id, o = some id → p id = true → q id = true) →
      o.all p = true → o.all q = true := by
    intro o p q himp hp
    cases o with
    | none => rfl
    | some id => exact himp id rfl hp
  obtain ⟨h₁, h₂, h₃, h₄⟩ := h
  exact ⟨hall huser h₁, hall hkey h₂, hall hproject h₃, hall hrun h₄⟩

theorem refers_apply (h : trail.Refers event t) (w : Write) (hs : Spares t event w) :
    trail.Refers event (w.apply t) := by
  cases w with
  | none => exact h
  | user _ =>
      simp only [Write.apply]
      split
      · exact h
      · refine refers_mono h (fun _ _ hid => ?_) (fun _ _ h => h) (fun _ _ h => h) (fun _ _ h => h)
        rw [List.contains_iff_mem] at hid ⊢
        exact List.mem_append_left _ hid
  | project _ =>
      simp only [Write.apply]
      split
      · exact h
      · refine refers_mono h (fun _ _ h => h) (fun _ _ h => h) (fun _ _ hid => ?_) (fun _ _ h => h)
        rw [hasProject, List.contains_iff_mem] at hid ⊢
        exact List.mem_append_left _ hid
  | apiKey _ _ =>
      simp only [Write.apply]
      split
      · exact h
      · refine refers_mono h (fun _ _ h => h) (fun _ _ hid => ?_) (fun _ _ h => h) (fun _ _ h => h)
        rw [hasKey, List.any_append]
        exact Bool.or_eq_true_iff.mpr (.inl hid)
  | run _ _ =>
      simp only [Write.apply]
      split
      · exact h
      · refine refers_mono h (fun _ _ h => h) (fun _ _ h => h) (fun _ _ h => h) (fun _ _ hid => ?_)
        rw [hasRun, List.any_append]
        exact Bool.or_eq_true_iff.mpr (.inl hid)
  | deleteRun runId =>
      refine refers_mono h (fun _ _ h => h) (fun _ _ h => h) (fun _ _ h => h) (fun id hid hrun => ?_)
      have hne : id ≠ runId := fun heq => hs (heq ▸ hid)
      change hasRun (deleteRun runId t) id = true
      rw [hasRun_deleteRun, hrun]
      simpa using hne
  | deleteProject projectId =>
      obtain ⟨hproject, hruns, hkeys⟩ := hs
      simp only [Write.apply]
      split
      · refine refers_mono h (fun _ _ h => h) (fun id hid hkey => ?_) (fun id hid hold => ?_)
          (fun id hid hrun => ?_)
        · obtain ⟨k, hk, hname⟩ := List.any_eq_true.mp hkey
          obtain rfl := beq_iff_eq.mp hname
          refine List.any_eq_true.mpr ⟨k, List.mem_filter.mpr ⟨hk, ?_⟩, hname⟩
          have hother : k.2 ≠ some projectId := fun heq => hkeys k.1 hid (heq ▸ hk)
          simpa using hother
        · have hne : id ≠ projectId := fun heq => hproject (heq ▸ hid)
          rw [hasProject_deleteProject, hold]
          simpa using hne
        · obtain ⟨r, hr, hname⟩ := List.any_eq_true.mp hrun
          obtain rfl := beq_iff_eq.mp hname
          refine List.any_eq_true.mpr ⟨r, List.mem_filter.mpr ⟨hr, ?_⟩, hname⟩
          have hother : r.2 ≠ projectId := fun heq => hruns r.1 hid (heq ▸ hr)
          simpa using hother
      · exact h

end Writes

section Sites

variable {t : Tables} {auth : AuthContext} {site : Site}

theorem refers_event (auth : AuthContext) (site : Site) (t : Tables) :
    trail.Refers (site.event auth) t ↔
      ActorStands auth t ∧ (site.event auth).projectId.all (hasProject t) = true ∧
      (site.event auth).runId.all (hasRun t) = true := by
  have hactor : (site.event auth).actorUserId = (auditActorIds auth).1 ∧
      (site.event auth).actorKeyId = (auditActorIds auth).2 := by
    cases site <;> exact ⟨rfl, rfl⟩
  rw [Ledger.Refers, hactor.1, hactor.2, ← and_assoc]
  rfl

theorem apply_apiKey (keyId : String) (projectId : Option String) (t : Tables) :
    ((Write.apiKey keyId projectId).apply t).projects = t.projects ∧
      ((Write.apiKey keyId projectId).apply t).runs = t.runs := by
  simp only [Write.apply]
  split <;> exact ⟨rfl, rfl⟩

theorem hasProject_project (projectId : String) (t : Tables) :
    hasProject ((Write.project projectId).apply t) projectId = true := by
  simp only [Write.apply]
  split
  · assumption
  · simp [hasProject]

theorem has_run {runId projectId : String} (h : hasRun t runId = false ∧ hasProject t projectId = true) :
    hasRun ((Write.run runId projectId).apply t) runId = true ∧
      hasProject ((Write.run runId projectId).apply t) projectId = true := by
  simp only [Write.apply, h.1, h.2, Bool.not_true, Bool.or_self, Bool.false_eq_true, if_false]
  exact ⟨by simp [hasRun], h.2⟩

theorem named_iff (hsound : Sound t) (h : site.Reached t) :
    ((site.event auth).projectId.all (hasProject (site.write.apply t)) = true ∧
      (site.event auth).runId.all (hasRun (site.write.apply t)) = true) ↔ Named t site := by
  have hrunRow : ∀ {runId projectId : String}, (runId, projectId) ∈ t.runs →
      hasProject t projectId = true ∧ hasRun t runId = true := fun hr => ⟨hsound _ hr, hasRun_of_mem hr⟩
  cases site with
  | requireEndpointAccess projectId runId action resourceType resourceId => exact Iff.rfl
  | httpCreateProject projectId => exact iff_of_true ⟨hasProject_project projectId t, rfl⟩ trivial
  | httpUpsertProjectMetricAlias projectId | httpDeleteProjectMetricAlias projectId =>
      exact iff_of_true ⟨h, rfl⟩ trivial
  | httpDeleteProject projectId =>
      refine iff_of_false (fun hrow => ?_) id
      have hproject : hasProject ((Write.deleteProject projectId).apply t) projectId = true := hrow.1
      have hthere : hasProject t projectId = true := h
      rw [Write.apply, if_pos hthere, hasProject_deleteProject] at hproject
      simp at hproject
  | httpInitRun runId projectId => exact iff_of_true (has_run h).symm trivial
  | httpIngestBatch runId projectId | httpFinishRun runId projectId | httpCreateShareToken runId projectId token
  | httpRevokeShareToken runId projectId token => exact iff_of_true (hrunRow h) trivial
  | httpDeleteRun runId projectId =>
      refine iff_of_false (fun hrow => ?_) id
      have hrun : hasRun (deleteRun runId t) runId = true := hrow.2
      rw [hasRun_deleteRun] at hrun
      simp at hrun
  | httpCreateKeyDenied projectId | httpRevokeKey keyId projectId => exact and_iff_left rfl
  | httpCreateKey keyId projectId =>
      have hprojects : hasProject ((Write.apiKey keyId projectId).apply t) = hasProject t := by
        funext id
        rw [hasProject, (apply_apiKey keyId projectId t).1]
        rfl
      refine (and_iff_left rfl).trans ?_
      change projectId.all (hasProject ((Write.apiKey keyId projectId).apply t)) = true ↔
        projectId.all (hasProject t) = true
      rw [hprojects]
  | httpListRuns requested => exact and_iff_left rfl
  | requirePlatformAdminAccess | httpAdminListUsers | httpAdminListUserMemberships | httpAdminDisableUser
  | httpAdminEnableUser | httpAdminListSessions | httpAdminRevokeSession | httpAdminListAuditEvents
  | httpAdminRotateBootstrapKey | httpListKeysDenied | httpRevokeKeyDenied => exact iff_of_true ⟨rfl, rfl⟩ trivial

theorem refers_iff (hsound : Sound t) (h : site.Reached t) :
    trail.Refers (site.event auth) (site.write.apply t) ↔ Meets auth site t := by
  rw [refers_event, named_iff hsound h]
  rfl

theorem emitted_eq (event : AuditEvent) (t : Tables) :
    ((emitAuditEvent trail none event : Command Tables HttpError Unit) t).2 =
      if trail.Refers event t then { t with auditEvents := t.auditEvents ++ [event] } else t := by
  rw [emitAuditEvent_eq]
  simp only [true_and]
  rfl

theorem recorded_iff (hsound : Sound t) (h : site.Reached t) : Recorded auth site t ↔ Meets auth site t := by
  rw [← refers_iff hsound h, Recorded, emitted_eq]
  split
  · rename_i hrefers
    exact iff_of_true rfl hrefers
  · rename_i hrefers
    refine iff_of_false (fun heq => ?_) hrefers
    simpa using congrArg List.length heq

end Sites

section Runs

variable {s : State}

/-- The projects of runs are there, events on their way refer to rows, and none is missing. -/
structure Kept (s : State) : Prop where
  sound : Sound s.tables
  flying : ∀ f ∈ s.flying, trail.Refers (f.2.event f.1) s.tables
  complete : Complete s

theorem sound_step (h : Sound s.tables) (i : Step) : Sound (step s i).2.tables := by
  cases i with
  | write w => exact sound_apply h w
  | arrive auth site =>
      simp only [step]
      split
      · exact sound_apply h site.write
      · exact h
  | emit n =>
      simp only [step]
      split
      · exact h
      · rw [emitted_eq]
        split <;> exact h

theorem kept_step (h : Kept s) (i : Step) (hi : Careful s i) : Kept (step s i).2 := by
  have hsound := sound_step h.sound i
  cases i with
  | write w =>
      refine ⟨hsound, fun f hf => refers_apply (h.flying f hf) w (hi f hf), ?_⟩
      exact (label_apply w s.tables).trans h.complete
  | arrive auth site =>
      by_cases hreached : site.Reached s.tables
      · have hstep : (step s (.arrive auth site)).2 =
            { s with tables := site.write.apply s.tables, flying := s.flying ++ [(auth, site)] } := if_pos hreached
        rw [hstep] at hsound ⊢
        refine ⟨hsound, fun f hf => ?_, (label_apply site.write s.tables).trans h.complete⟩
        rcases List.mem_append.mp hf with hf | hf
        · exact refers_apply (h.flying f hf) site.write (hi.2 f hf)
        · obtain rfl := List.mem_singleton.mp hf
          exact (refers_iff h.sound hreached).mpr hi.1
      · have hstep : (step s (.arrive auth site)).2 = s := if_neg hreached
        rwa [hstep]
  | emit n =>
      cases hn : s.flying[n]? with
      | none =>
          have hstep : (step s (.emit n)).2 = s := by simp only [step, hn]
          rwa [hstep]
      | some f =>
          have hrefers := h.flying f (List.mem_of_getElem? hn)
          have hstep : (step s (.emit n)).2 =
              { tables := { s.tables with auditEvents := s.tables.auditEvents ++ [f.2.event f.1] }
                flying := s.flying.eraseIdx n
                emitted := s.emitted ++ [f.2.event f.1] } := by
            simp only [step, hn, emitted_eq, if_pos hrefers]
          rw [hstep]
          refine ⟨h.sound, fun g hg => h.flying g (List.mem_of_mem_eraseIdx hg), ?_⟩
          have hcomplete := h.complete
          simp only [Complete, List.map_append] at hcomplete ⊢
          rw [hcomplete]

theorem kept_reached (steps : List Step) (h : Guarded step (fun _ s i => Careful s i) [] ⟨.empty, [], []⟩ steps) :
    Kept (reached steps) := by
  have hempty : Kept ⟨.empty, [], []⟩ :=
    ⟨fun _ hr => absurd hr List.not_mem_nil, fun _ hf => absurd hf List.not_mem_nil, rfl⟩
  exact invariant_history (fun _ => Kept) (fun _ s i hs hi => kept_step hs i hi) [] _ steps hempty h

theorem sound_reached (steps : List Step) : Sound (reached steps).tables := by
  induction steps using List.reverseRecOn with
  | nil => exact fun _ hr => absurd hr List.not_mem_nil
  | append_singleton steps i ih =>
      rw [reached, after_concat]
      exact sound_step ih i

/-- A run whose steps are careful leaves no event out. Of a handler that comes to its event in any state, the event
is in the table just when the rows that it refers to are there. -/
theorem trail_complete (steps : List Step) :
    (Guarded step (fun _ s i => Careful s i) [] ⟨.empty, [], []⟩ steps → Complete (reached steps)) ∧
    ∀ auth site, site.Reached (reached steps).tables →
      (Recorded auth site (reached steps).tables ↔ Meets auth site (reached steps).tables) :=
  ⟨fun h => (kept_reached steps h).complete, fun _ _ h => recorded_iff (sound_reached steps) h⟩

theorem deletions_lost :
    ¬ Complete (reached [.write (.project "p"), .write (.run "r" "p"),
      .arrive (.devMode 0) (.httpDeleteRun "r" "p"), .emit 0]) ∧
    ¬ Complete (reached [.write (.project "p"), .arrive (.devMode 0) (.httpDeleteProject "p"), .emit 0]) := by
  decide +kernel

end Runs

end MLRunX.AuditCompleteness
