import MLRunX.DisabledUsers
import MLRunX.InterleavedInvariants
import MLRunX.MetricAliases

namespace MLRunX.AliasRuns

open Auth Commands Http InterleavedInvariants Interleaving KeyedTables Memberships MetricAliases Runs Sqlite Statements
open Tables Text UiAuth UiRequests UiTables

structure Kept (text : String) : Prop where
  trimmed : trim text = text
  nonempty : text ≠ ""

structure WellNamed (r : MetricAliasRow) : Prop where
  metric : Kept r.metricName ∧ byteLength r.metricName ≤ 256
  display : Kept r.displayName ∧ byteLength r.displayName ≤ 128
  unit : ∀ text ∈ r.unit, Kept text
  description : ∀ text ∈ r.description, Kept text

theorem requiredName_ok {field : String} {limit : Nat} {raw name : String}
    (h : requiredName field limit raw = .ok name) :
    name = trim raw ∧ Kept name ∧ byteLength name ≤ limit := by
  simp only [requiredName] at h
  split at h
  · cases h
  split at h
  · cases h
  · rename_i hempty hlimit
    obtain rfl := Except.ok.inj h
    exact ⟨rfl, ⟨trim_trim raw, by simpa [String.isEmpty_iff] using hempty⟩, Nat.le_of_not_lt hlimit⟩

theorem optionalText_kept {raw : Option String} {text : String} (h : text ∈ optionalText raw) : Kept text := by
  obtain ⟨hraw, hne⟩ := Option.filter_eq_some_iff.mp h
  obtain ⟨value, -, rfl⟩ := Option.map_eq_some_iff.mp hraw
  exact ⟨trim_trim value, by simpa [String.isEmpty_iff] using hne⟩

/-- Each alias belongs to a project that is there, and has the texts that the
handlers admit. -/
structure Sound (s : AliasStore) : Prop where
  owned : ∀ r ∈ s.aliases.rows, ∃ p ∈ s.ui.projects.rows, p.id = r.projectId
  named : ∀ r ∈ s.aliases.rows, WellNamed r

theorem sound_empty : Sound .empty := ⟨fun _ h => absurd h List.not_mem_nil, fun _ h => absurd h List.not_mem_nil⟩

theorem clash_symm (a b : MetricAliasRow) (h : MetricAliasRow.clash a b) : MetricAliasRow.clash b a :=
  ⟨h.1.symm, h.2.imp Eq.symm (fun ⟨ha, hb, hname⟩ => ⟨hb, ha, hname.symm⟩)⟩

theorem clash_of_key (a b : MetricAliasRow) (h : a.key = b.key) : MetricAliasRow.clash a b :=
  ⟨congrArg Prod.fst h, .inl (congrArg Prod.snd h)⟩

section Statements

variable {env : AliasEnv} {projectId metricName displayName : String} {unit description : Option String}
  {isActive : Bool} {s s' : AliasStore}

theorem key_renewed (r : MetricAliasRow) : (renewed env displayName unit description isActive r).key = r.key := rfl

def writtenRow (env : AliasEnv) (projectId metricName displayName : String) (unit description : Option String)
    (isActive : Bool) (s : AliasStore) : MetricAliasRow :=
  written MetricAliasRow.key s.aliases (newRow env projectId metricName displayName unit description isActive)
    (renewed env displayName unit description isActive)

theorem writtenRow_eq (env : AliasEnv) (projectId metricName displayName : String) (unit description : Option String)
    (isActive : Bool) (s : AliasStore) :
    ∃ createdAt, writtenRow env projectId metricName displayName unit description isActive s =
      ⟨projectId, metricName, displayName, unit, description, isActive, createdAt, env.ui.now⟩ := by
  rw [writtenRow, written]
  cases hold : lookup MetricAliasRow.key s.aliases
      (newRow env projectId metricName displayName unit description isActive).key with
  | none => exact ⟨env.ui.now, rfl⟩
  | some old =>
      have hkey := ((lookup_eq_some_iff clash_of_key).mp hold).2
      refine ⟨old.createdAt, ?_⟩
      obtain ⟨hp, hm⟩ := Prod.mk.inj hkey
      simp only [Option.map_some, Option.getD_some, renewed, hp, hm]
      rfl

theorem writeMetricAlias_ok
    (h : writeMetricAlias env projectId metricName displayName unit description isActive s = .ok ((), s')) :
    s'.ui = s.ui ∧ ((s.find (projectId, metricName)).isSome ∨ ∃ p ∈ s.ui.projects.rows, p.id = projectId) ∧
      upsert MetricAliasRow.key s.aliases (newRow env projectId metricName displayName unit description isActive)
        (renewed env displayName unit description isActive) = some s'.aliases := by
  simp only [writeMetricAlias] at h
  split at h
  · cases h
  rename_i aliases hupsert
  split at h
  · rename_i hthere
    obtain ⟨-, rfl⟩ := Prod.mk.inj (Except.ok.inj h)
    exact ⟨rfl, by simpa using hthere, hupsert⟩
  · cases h

theorem mem_writeMetricAlias
    (h : writeMetricAlias env projectId metricName displayName unit description isActive s = .ok ((), s'))
    {r : MetricAliasRow} :
    r ∈ s'.aliases.rows ↔ (r ∈ s.aliases.rows ∧ r.key ≠ (projectId, metricName)) ∨
      r = writtenRow env projectId metricName displayName unit description isActive s :=
  mem_upsert_iff clash_of_key (writeMetricAlias_ok h).2.2

end Statements

def Within (ui ui' : UiStore) : Prop := ∀ p ∈ ui.projects.rows, p ∈ ui'.projects.rows

/-- What one step of a call may do to the store. -/
inductive Effect : Call → AliasStore → AliasStore → Prop
  | around {call : Call} {s : AliasStore} {ui : UiStore} (h : Within s.ui ui) : Effect call s (s.withUi ui)
  | written {auth : AuthContext} {projectId rawName displayName : String} {req : UpsertMetricAliasRequest}
      {env : AliasEnv} {s t : AliasStore} (hraw : requiredName "raw_name" 256 req.rawName = .ok rawName)
      (hdisplay : requiredName "display_name" 128 req.displayName = .ok displayName)
      (h : writeMetricAlias env projectId rawName displayName (optionalText req.unit) (optionalText req.description)
        req.isActive s = .ok ((), t)) : Effect (.upsert auth projectId req) s t
  | removed {auth : AuthContext} {projectId metricName : String} {s : AliasStore} :
      Effect (.delete auth projectId metricName) s { s with
        aliases := s.aliases.deleteWhere (fun r => decide (r.key = (projectId, trim metricName))) }
  | dropped {auth : AuthContext} {projectId : String} {s : AliasStore} {ui : UiStore}
      (h : ∀ p ∈ s.ui.projects.rows, p.id ≠ projectId → p ∈ ui.projects.rows) :
      Effect (.deleteProject auth projectId) s ⟨ui, s.aliases.deleteWhere (fun r => r.projectId == projectId)⟩

theorem Effect.sound {call : Call} {s t : AliasStore} (h : Effect call s t) (hs : Sound s) : Sound t := by
  cases h with
  | around h =>
      refine ⟨fun r hr => ?_, hs.named⟩
      obtain ⟨p, hp, hid⟩ := hs.owned r hr
      exact ⟨p, h p hp, hid⟩
  | @written auth projectId rawName displayName req env s t hraw hdisplay h =>
      obtain ⟨hui, hthere, -⟩ := writeMetricAlias_ok h
      obtain ⟨createdAt, hwritten⟩ := writtenRow_eq env projectId rawName displayName (optionalText req.unit)
        (optionalText req.description) req.isActive s
      constructor
      · intro r hr
        rw [hui]
        rcases (mem_writeMetricAlias h).mp hr with ⟨hr, -⟩ | rfl
        · exact hs.owned r hr
        · rw [hwritten]
          rcases hthere with hold | hproject
          · obtain ⟨old, hold⟩ := Option.isSome_iff_exists.mp hold
            obtain ⟨hmem, hkey⟩ := (lookup_eq_some_iff clash_of_key).mp hold
            rw [← (Prod.mk.inj hkey).1]
            exact hs.owned old hmem
          · exact hproject
      · intro r hr
        rcases (mem_writeMetricAlias h).mp hr with ⟨hr, -⟩ | rfl
        · exact hs.named r hr
        · rw [hwritten]
          exact ⟨(requiredName_ok hraw).2, (requiredName_ok hdisplay).2, fun _ => optionalText_kept,
            fun _ => optionalText_kept⟩
  | removed =>
      exact ⟨fun r hr => hs.owned r (List.mem_filter.mp hr).1, fun r hr => hs.named r (List.mem_filter.mp hr).1⟩
  | dropped h =>
      refine ⟨fun r hr => ?_, fun r hr => hs.named r (List.mem_filter.mp hr).1⟩
      obtain ⟨hr, hother⟩ := List.mem_filter.mp hr
      obtain ⟨p, hp, hid⟩ := hs.owned r hr
      exact ⟨p, h p hp (fun heq => by simp [← heq, hid] at hother), hid⟩

/-- The keys whose rows a call may change. -/
def Touches : Call → String × String → Prop
  | .list _ _, _ => False
  | .upsert _ projectId req, k => k = (projectId, trim req.rawName)
  | .delete _ projectId metricName, k => k = (projectId, trim metricName)
  | .createProject _ _ _, _ => False
  | .deleteProject _ projectId, k => k.1 = projectId

theorem Effect.find {call : Call} {s t : AliasStore} (h : Effect call s t) {k : String × String}
    (hk : ¬ Touches call k) : t.find k = s.find k := by
  cases h with
  | around h => rfl
  | written hraw hdisplay h =>
      have hupsert := lookup_upsert clash_of_key key_renewed (writeMetricAlias_ok h).2.2
      rw [(requiredName_ok hraw).1] at hupsert
      exact (congrFun hupsert k).trans (Function.update_of_ne hk _ _)
  | @removed auth projectId metricName s =>
      have hq := lookup_deleteWhere MetricAliasRow.key s.aliases
        (fun k => decide (k = (projectId, trim metricName))) k
      exact hq.trans (if_neg (by simpa [Touches] using hk))
  | @dropped auth projectId s ui h =>
      have hq := lookup_deleteWhere MetricAliasRow.key s.aliases (fun k => k.1 == projectId) k
      exact hq.trans (if_neg (by simpa [Touches] using hk))

section Calls

variable {call : Call} {α : Type}

theorem Effect.rfl (s : AliasStore) : Effect call s s := .around (fun _ h => h)

theorem steps_onUi {x : Env → Handler α} (h : ∀ env, Moves Within (x env)) :
    Steps (Effect call) (fun _ => True) (onUi x) := by
  apply steps_atomic
  intro env
  exact ⟨fun s => .around ((h env.ui).moves s.ui)⟩

theorem moves_of_leaves {x : Handler α} (h : Leaves UiStore.projects x) : Moves Within x := by
  constructor
  intro ui p hp
  rwa [h.shows ui]

section Reading

variable {R : AliasStore → AliasStore → Prop} (hrefl : ∀ s, R s s)

include hrefl

theorem steps_reading {x : Env → Handler α} (h : ∀ env, Leaves id (x env)) : Steps R (fun _ => True) (onUi x) := by
  apply steps_atomic
  intro env
  constructor
  intro s
  have hsame : (x env.ui s.ui).2 = s.ui := (h env.ui).shows s.ui
  rw [zoom, hsame]
  exact hrefl s

theorem steps_requireProject (projectId : String) : Steps R (fun _ => True) (requireProject projectId) := by
  apply steps_bind (steps_reading hrefl (fun env => leaves_mapError (leaves_query _ _)))
  intro project _
  cases project with
  | none => exact steps_done (fun _ _ => trivial)
  | some project => exact steps_done (fun _ _ => trivial)

theorem steps_requireUiProjectEditorOrOwner (auth : AuthContext) (projectId : String) :
    Steps R (fun _ => True) (requireUiProjectEditorOrOwner auth projectId) := by
  rw [requireUiProjectEditorOrOwner]
  split
  · exact steps_done (fun _ _ => trivial)
  · cases authUserId auth with
    | none => exact steps_done (fun _ _ => trivial)
    | some userId =>
        apply steps_bind (steps_reading hrefl (fun env => leaves_mapError (leaves_query _ _)))
        exact fun memberships _ => steps_done (fun _ _ => trivial)

theorem steps_admitUpsert (setup : Setup) (auth : AuthContext) (projectId : String) (req : UpsertMetricAliasRequest) :
    Steps R (fun names => requiredName "raw_name" 256 req.rawName = .ok names.1 ∧
      requiredName "display_name" 128 req.displayName = .ok names.2) (admitUpsert setup auth projectId req) := by
  apply steps_bind (steps_check _)
  intro _ _
  apply steps_bind (steps_requireProject hrefl projectId)
  intro _ _
  apply steps_bind (steps_check _)
  intro _ _
  apply steps_bind (steps_requireUiProjectEditorOrOwner hrefl auth projectId)
  intro _ _
  apply steps_bind (steps_check _)
  intro rawName hraw
  apply steps_bind (steps_check _)
  intro displayName hdisplay
  apply steps_done
  intro names h
  obtain rfl := Except.ok.inj h
  exact ⟨hraw, hdisplay⟩

end Reading

theorem moves_createProject (env : Env) (name : String) (description : Option String) :
    Moves Within (createProject env name description) := by
  apply moves_bind (fun _ _ _ hst htu p hp => htu p (hst p hp))
  · apply moves_execute (fun _ _ h => h)
    intro s a t h p hp
    split at h
    · rename_i projects hinsert
      cases h
      rw [(insert_eq_some hinsert).1]
      exact List.mem_append_left _ hp
    · split at h <;> cases h
  · intro _
    apply moves_bind (fun _ _ _ hst htu p hp => htu p (hst p hp))
    · exact ⟨fun _ _ h => h⟩
    · intro row
      cases row with
      | some row => exact ⟨fun _ _ h => h⟩
      | none => exact ⟨fun _ _ h => h⟩

theorem leaves_grantProjectMembership (env : Env) (projectId userId : String) (role : Role)
    (grantedBy : Option String) :
    Leaves UiStore.projects (grantProjectMembership env projectId userId role grantedBy) := by
  refine leaves_bind (leaves_execute ?_) (fun _ => leaves_execute ?_)
  · intro s a s' h
    cases h
    rfl
  · intro s a s' h
    split at h <;> cases h
    rfl

theorem moves_upsertMetricAlias {R : AliasStore → AliasStore → Prop} (hrefl : ∀ s, R s s) {env : AliasEnv}
    {projectId metricName displayName : String} {unit description : Option String} {isActive : Bool}
    (h : ∀ s t, writeMetricAlias env projectId metricName displayName unit description isActive s = .ok ((), t) →
      R s t) :
    Moves R (upsertMetricAlias env projectId metricName displayName unit description isActive) := by
  apply moves_bind_leaves (moves_execute hrefl (fun s _ t hwrite => h s t hwrite))
  intro _
  apply leaves_bind (leaves_query _ _)
  intro row
  cases row with
  | some row => exact leaves_pure _
  | none => exact leaves_fail _

theorem steps_upsert (setup : Setup) (auth : AuthContext) (projectId : String) (req : UpsertMetricAliasRequest) :
    Steps (Effect (.upsert auth projectId req)) (fun _ => True)
      (httpUpsertProjectMetricAlias setup auth projectId req) := by
  apply steps_bind (steps_admitUpsert Effect.rfl setup auth projectId req)
  rintro ⟨rawName, displayName⟩ ⟨hraw, hdisplay⟩
  apply steps_atomic
  intro env
  exact ⟨(moves_upsertMetricAlias Effect.rfl (fun s t h => .written hraw hdisplay h)).moves⟩

theorem steps_delete (setup : Setup) (auth : AuthContext) (projectId metricName : String) :
    Steps (Effect (.delete auth projectId metricName)) (fun _ => True)
      (httpDeleteProjectMetricAlias setup auth projectId metricName) := by
  apply steps_bind (steps_check _)
  intro _ _
  apply steps_bind (steps_requireProject Effect.rfl projectId)
  intro _ _
  apply steps_bind (steps_check _)
  intro _ _
  apply steps_bind (steps_check _)
  intro _ _
  apply steps_bind (steps_requireUiProjectEditorOrOwner Effect.rfl auth projectId)
  intro _ _
  apply steps_bind
  · apply steps_atomic
    intro env
    refine ⟨(moves_execute Effect.rfl ?_).moves⟩
    intro s a t h
    obtain ⟨-, rfl⟩ := Prod.mk.inj (Except.ok.inj h)
    exact .removed
  · exact fun _ _ => steps_done (fun _ _ => trivial)

theorem steps_createProject (setup : Setup) (auth : AuthContext) (rawName : String) (description : Option String) :
    Steps (Effect call) (fun _ => True) (MetricAliases.httpCreateProject setup auth rawName description) := by
  have hcreate : Steps (Effect call) (fun _ => True)
      (onUi (fun env => createNamedProject env (trim rawName) description)) :=
    steps_onUi (fun env => ⟨(moves_createProject env _ _).moves⟩)
  simp only [MetricAliases.httpCreateProject]
  split
  · exact steps_done (fun _ _ => trivial)
  split
  · apply steps_bind (steps_check _)
    intro _ _
    cases authUserId auth with
    | none => exact steps_done (fun _ _ => trivial)
    | some userId =>
        apply steps_bind hcreate
        intro row _
        apply steps_bind
        · apply steps_onUi
          exact fun env => moves_of_leaves (leaves_mapError (leaves_grantProjectMembership env _ _ _ _))
        · exact fun _ _ => steps_done (fun _ _ => trivial)
  · apply steps_bind (steps_check _)
    intro _ _
    apply steps_bind (steps_check _)
    exact fun _ _ => hcreate

theorem effect_deleteProject (auth : AuthContext) (env : AliasEnv) (projectId : String) (s : AliasStore) :
    Effect (.deleteProject auth projectId) s (MetricAliases.deleteProject env projectId s).2 := by
  rw [MetricAliases.deleteProject]
  cases hrun : UiTables.deleteProject env.ui projectId s.ui with
  | mk result ui =>
      cases result with
      | error e =>
          rw [(execute_error hrun).1]
          exact Effect.rfl s
      | ok u =>
          have hok := execute_ok hrun
          split at hok
          · obtain ⟨-, rfl⟩ := Prod.mk.inj (Except.ok.inj hok)
            apply Effect.dropped
            intro p hp hne
            exact List.mem_filter.mpr ⟨hp, by simpa using hne⟩
          · cases hok

theorem steps_deleteProject (setup : Setup) (auth : AuthContext) (projectId : String) :
    Steps (Effect (.deleteProject auth projectId)) (fun _ => True)
      (MetricAliases.httpDeleteProject setup auth projectId) := by
  apply steps_bind (steps_check _)
  intro _ _
  apply steps_bind (steps_requireProject Effect.rfl projectId)
  intro _ _
  apply steps_bind (steps_check _)
  intro _ _
  apply steps_bind
  · apply steps_onUi
    exact fun env => moves_of_leaves (leaves_requireDeletionAccess env auth projectId)
  · intro _ _
    apply steps_atomic
    exact fun env => ⟨effect_deleteProject auth env projectId⟩

theorem steps_body (setup : Setup) (call : Call) : Steps (Effect call) (fun _ => True) (body setup call) := by
  cases call with
  | list auth projectId =>
      apply steps_bind (Q := fun _ => True)
      · apply steps_bind (steps_check _)
        intro _ _
        apply steps_bind (steps_requireProject Effect.rfl projectId)
        intro _ _
        apply steps_bind (steps_check _)
        intro _ _
        apply steps_atomic
        exact fun env => ⟨fun s => Effect.rfl s⟩
      · exact fun _ _ => steps_done (fun _ _ => trivial)
  | upsert auth projectId req =>
      exact steps_bind (steps_upsert setup auth projectId req) (fun _ _ => steps_done (fun _ _ => trivial))
  | delete auth projectId metricName =>
      exact steps_bind (steps_delete setup auth projectId metricName) (fun _ _ => steps_done (fun _ _ => trivial))
  | createProject auth name description =>
      exact steps_bind (steps_createProject setup auth name description) (fun _ _ => steps_done (fun _ _ => trivial))
  | deleteProject auth projectId =>
      exact steps_bind (steps_deleteProject setup auth projectId) (fun _ _ => steps_done (fun _ _ => trivial))

end Calls

section Maps

variable (s : AliasStore) (projectId : String)

theorem mem_ofProject {r : MetricAliasRow} :
    r ∈ s.ofProject projectId ↔ r ∈ s.aliases.rows ∧ r.projectId = projectId := by
  rw [AliasStore.ofProject, List.mem_insertionSort, Table.select, List.mem_filter, beq_iff_eq]

theorem pairwise_ofProject {P : MetricAliasRow → MetricAliasRow → Prop} (hsymm : ∀ a b, P a b → P b a)
    (h : ∀ a b, a.projectId = projectId → b.projectId = projectId → ¬ MetricAliasRow.clash a b → P a b) :
    (s.ofProject projectId).Pairwise P := by
  rw [AliasStore.ofProject, (List.perm_insertionSort _ _).pairwise_iff (fun {a b} => hsymm a b), Table.select]
  apply (s.aliases.apart.filter _).imp_of_mem
  intro a b ha hb hab
  exact h a b (by simpa using (List.mem_filter.mp ha).2) (by simpa using (List.mem_filter.mp hb).2) hab

theorem ofProject_ordered : (s.ofProject projectId).Pairwise (fun a b => a.metricName < b.metricName) := by
  have hsorted : (s.ofProject projectId).Pairwise (fun a b => a.metricName ≤ b.metricName) :=
    List.pairwise_insertionSort _ _
  have hapart : (s.ofProject projectId).Pairwise (fun a b => a.metricName ≠ b.metricName) := by
    apply pairwise_ofProject s projectId (fun _ _ h => h.symm)
    exact fun a b ha hb hab h => hab ⟨ha.trans hb.symm, .inl h⟩
  exact (hsorted.and hapart).imp (fun h => lt_of_le_of_ne h.1 h.2)

/-- Names come in order, and no two metrics show the same name. -/
structure Faithful (aliases : List (String × String)) : Prop where
  ordered : (aliases.map Prod.fst).Pairwise (· < ·)
  distinct : (aliases.map (fun entry => toAsciiLowercase entry.2)).Nodup

theorem faithful_aliasMap : Faithful (s.aliasMap projectId) := by
  constructor
  · rw [AliasStore.aliasMap, List.map_map, List.pairwise_map]
    exact (ofProject_ordered s projectId).filter _
  · rw [AliasStore.aliasMap, List.map_map, List.Nodup, List.pairwise_map]
    have hapart : (s.ofProject projectId).Pairwise (fun a b => a.isActive = true → b.isActive = true →
        toAsciiLowercase a.displayName ≠ toAsciiLowercase b.displayName) := by
      apply pairwise_ofProject s projectId (fun _ _ h ha hb => (h hb ha).symm)
      exact fun a b ha hb hab hactive hactive' h => hab ⟨ha.trans hb.symm, .inr ⟨hactive, hactive', h⟩⟩
    apply (hapart.filter _).imp_of_mem
    intro a b ha hb hab
    exact hab (List.mem_filter.mp ha).2 (List.mem_filter.mp hb).2

theorem mem_aliasMap {metricName displayName : String} :
    (metricName, displayName) ∈ s.aliasMap projectId ↔
      ∃ r ∈ s.find (projectId, metricName), r.isActive = true ∧ r.displayName = displayName := by
  rw [AliasStore.aliasMap, List.mem_map]
  constructor
  · rintro ⟨r, hr, h⟩
    obtain ⟨hr, hactive⟩ := List.mem_filter.mp hr
    obtain ⟨hmem, hproject⟩ := (mem_ofProject s projectId).mp hr
    obtain ⟨hname, hdisplay⟩ := Prod.mk.inj h
    exact ⟨r, (lookup_eq_some_iff clash_of_key).mpr ⟨hmem, Prod.ext hproject hname⟩, hactive, hdisplay⟩
  · rintro ⟨r, hr, hactive, rfl⟩
    obtain ⟨hmem, hkey⟩ := (lookup_eq_some_iff clash_of_key).mp hr
    obtain ⟨hproject, hname⟩ := Prod.mk.inj hkey
    exact ⟨r, List.mem_filter.mpr ⟨(mem_ofProject s projectId).mpr ⟨hmem, hproject⟩, hactive⟩,
      Prod.ext hname rfl⟩

end Maps

section Runs

variable (setup : Setup) {start : AliasStore}

/-- However requests fall between each other, each alias belongs to a project that is
there, and the map of the active ones is one to one and what the table holds. -/
theorem aliases_run (hstart : Sound start) (ts : List (Turn Call AliasEnv)) (projectId : String) :
    Sound (after (turn (body setup)) (Pool.idle start) ts).store ∧
      Faithful ((after (turn (body setup)) (Pool.idle start) ts).store.aliasMap projectId) ∧
      ∀ metricName displayName,
        (metricName, displayName) ∈ (after (turn (body setup)) (Pool.idle start) ts).store.aliasMap projectId ↔
          ∃ r ∈ (after (turn (body setup)) (Pool.idle start) ts).store.find (projectId, metricName),
            r.isActive = true ∧ r.displayName = displayName := by
  refine ⟨?_, faithful_aliasMap _ _, fun _ _ => mem_aliasMap _ _⟩
  apply invariant_run _ hstart
  intro call
  exact (steps_body setup call).weaken (fun s t h hs => h.sound hs) (fun _ _ => trivial)

/-- An alias is written while its project is deleted. -/
def raceWithDeletion : List (Turn Call AliasEnv) :=
  [.begin (.createProject (.devMode 0) "vision" none), .advance 0 { ui := { now := 1 } },
    .advance 0 { ui := { now := 1 } },
    .begin (.upsert (.devMode 0) "project" { rawName := "val/loss", displayName := "Loss" }),
    .begin (.deleteProject (.devMode 0) "project"), .advance 0 { ui := { now := 2 } },
      .advance 1 { ui := { now := 3 } },
    .advance 0 { ui := { now := 4 } }, .advance 1 { ui := { now := 5 } }, .advance 1 { ui := { now := 6 } }]

theorem aliases_run_raceWithDeletion :
    Sound (after (turn (body DisabledUsers.oneUser)) (Pool.idle .empty) raceWithDeletion).store ∧
      Faithful ((after (turn (body DisabledUsers.oneUser)) (Pool.idle .empty) raceWithDeletion).store.aliasMap
        "project") ∧
      ∀ metricName displayName,
        (metricName, displayName) ∈
            (after (turn (body DisabledUsers.oneUser)) (Pool.idle .empty) raceWithDeletion).store.aliasMap "project" ↔
          ∃ r ∈ (after (turn (body DisabledUsers.oneUser)) (Pool.idle .empty) raceWithDeletion).store.find
              ("project", metricName), r.isActive = true ∧ r.displayName = displayName :=
  aliases_run DisabledUsers.oneUser sound_empty raceWithDeletion "project"

/-- A call changes at each of its turns no rows but those of the metric, or of the
project, that it is about. -/
theorem turn_find (ts : List (Turn Call AliasEnv)) {index : Nat}
    {flight : Flight Call AliasEnv AliasStore HttpError MetricAliases.Reply}
    (hindex : (after (turn (body setup)) (Pool.idle start) ts).flights[index]? = some flight) (env : AliasEnv)
    {k : String × String} (hk : ¬ Touches flight.call k) :
    (turn (body setup) (after (turn (body setup)) (Pool.idle start) ts) (.advance index env)).2.store.find k =
      (after (turn (body setup)) (Pool.idle start) ts).store.find k := by
  have hstep : Steps (fun s t : AliasStore => t.find k = s.find k) (fun _ => True) (body setup flight.call) :=
    (steps_body setup flight.call).weaken (fun s t h => h.find hk) (fun _ h => h)
  exact turn_moves (R := fun s t : AliasStore => t.find k = s.find k) (fun _ => rfl) hindex hstep env

theorem turn_find_begun :
    (turn (body DisabledUsers.oneUser)
        (after (turn (body DisabledUsers.oneUser)) (Pool.idle .empty) [.begin (.deleteProject (.devMode 0) "p")])
        (.advance 0 { ui := { now := 1 } })).2.store.find ("q", "loss") =
      (after (turn (body DisabledUsers.oneUser)) (Pool.idle .empty)
        [.begin (.deleteProject (.devMode 0) "p")]).store.find ("q", "loss") :=
  @turn_find DisabledUsers.oneUser .empty [.begin (.deleteProject (.devMode 0) "p")] 0
    ⟨.deleteProject (.devMode 0) "p", .empty, [],
      body DisabledUsers.oneUser (.deleteProject (.devMode 0) "p")⟩ rfl _ _
    (fun h : "q" = "p" => absurd h (by decide))

end Runs

section Outcomes

variable {env : AliasEnv} {projectId metricName displayName : String} {unit description : Option String}
  {isActive : Bool} {s t : AliasStore}

/-- Another active alias of the project shows the name. -/
def Taken (s : AliasStore) (projectId metricName displayName : String) : Prop :=
  ∃ r ∈ s.aliases.rows, r.projectId = projectId ∧ r.metricName ≠ metricName ∧ r.isActive = true ∧
    toAsciiLowercase r.displayName = toAsciiLowercase displayName

theorem upsert_eq_none_iff_taken :
    upsert MetricAliasRow.key s.aliases (newRow env projectId metricName displayName unit description isActive)
        (renewed env displayName unit description isActive) = none ↔
      isActive = true ∧ Taken s projectId metricName displayName := by
  obtain ⟨createdAt, hwritten⟩ := writtenRow_eq env projectId metricName displayName unit description isActive s
  rw [upsert_eq_none_iff clash_of_key clash_symm, ← writtenRow, hwritten]
  constructor
  · rintro ⟨r, hr, hne, hproject, hname | ⟨hactive, hthis, hdisplay⟩⟩
    · exact absurd (Prod.ext hproject hname) hne
    · exact ⟨hthis, r, hr, hproject, fun hname => hne (Prod.ext hproject hname), hactive, hdisplay⟩
  · rintro ⟨hthis, r, hr, hproject, hne, hactive, hdisplay⟩
    exact ⟨r, hr, fun hkey => hne (congrArg Prod.snd hkey), hproject, .inr ⟨hactive, hthis, hdisplay⟩⟩

theorem writeMetricAlias_taken (hactive : isActive = true) (htaken : Taken s projectId metricName displayName) :
    writeMetricAlias env projectId metricName displayName unit description isActive s = .error displayActive := by
  simp only [writeMetricAlias, upsert_eq_none_iff_taken.mpr ⟨hactive, htaken⟩]

theorem writeMetricAlias_free (hproject : ∃ p ∈ s.ui.projects.rows, p.id = projectId)
    (hfree : ¬ (isActive = true ∧ Taken s projectId metricName displayName)) :
    ∃ t, writeMetricAlias env projectId metricName displayName unit description isActive s = .ok ((), t) := by
  have hsome : upsert MetricAliasRow.key s.aliases
      (newRow env projectId metricName displayName unit description isActive)
      (renewed env displayName unit description isActive) ≠ none := mt upsert_eq_none_iff_taken.mp hfree
  obtain ⟨aliases, haliases⟩ := Option.ne_none_iff_exists'.mp hsome
  have hthere : s.ui.projects.rows.any (fun p => p.id == projectId) = true := by simpa using hproject
  refine ⟨{ s with aliases := aliases }, ?_⟩
  simp only [writeMetricAlias, haliases, hthere, Bool.or_true, if_true]

theorem writeMetricAlias_find
    (h : writeMetricAlias env projectId metricName displayName unit description isActive s = .ok ((), t)) :
    t.find = Function.update s.find (projectId, metricName)
      (some (writtenRow env projectId metricName displayName unit description isActive s)) :=
  lookup_upsert clash_of_key key_renewed (writeMetricAlias_ok h).2.2

theorem upsertMetricAlias_ok_iff {row : MetricAliasRow} :
    upsertMetricAlias env projectId metricName displayName unit description isActive s = (.ok row, t) ↔
      env.writeAlias = none ∧ env.readAlias = none ∧
        ¬ (isActive = true ∧ Taken s projectId metricName displayName) ∧
        row = writtenRow env projectId metricName displayName unit description isActive s ∧
        writeMetricAlias env projectId metricName displayName unit description isActive s = .ok ((), t) := by
  constructor
  · intro h
    obtain ⟨_, t', hwrite, h⟩ := bind_eq_ok h
    have hgranted := execute_granted hwrite
    have hwrite := execute_ok hwrite
    obtain ⟨found, t'', hread, h⟩ := bind_eq_ok h
    cases hfault : env.readAlias with
    | some text =>
        rw [hfault] at hread
        exact absurd (congrArg Prod.fst hread) nofun
    | none =>
        obtain ⟨rfl, rfl⟩ := query_eq_ok hread
        have hfind := congrFun (writeMetricAlias_find hwrite) (projectId, metricName)
        rw [Function.update_self] at hfind
        rw [hfind] at h
        obtain ⟨rfl, rfl⟩ := pure_eq_ok h
        refine ⟨hgranted, rfl, ?_, rfl, hwrite⟩
        rintro ⟨hactive, htaken⟩
        rw [writeMetricAlias_taken hactive htaken] at hwrite
        cases hwrite
  · rintro ⟨hgranted, hread, -, rfl, hwrite⟩
    have hfind := congrFun (writeMetricAlias_find hwrite) (projectId, metricName)
    rw [Function.update_self] at hfind
    have hexecute : execute env.writeAlias
        (writeMetricAlias env projectId metricName displayName unit description isActive) s = (.ok (), t) := by
      rw [hgranted]
      simp only [execute, statement_none, hwrite]
    rw [upsertMetricAlias, bind_ok hexecute, hread, bind_ok (query_ok rfl), hfind]
    rfl

variable {setup : Setup} {auth : AuthContext} {req : UpsertMetricAliasRequest}

theorem alone_requireProject {u : Unit} (h : (requireProject projectId).alone env s = (.ok u, t)) :
    ∃ p ∈ s.ui.projects.rows, p.id = projectId := by
  rw [requireProject, alone_bind] at h
  obtain ⟨project, s', hfind, h⟩ := bind_eq_ok h
  have hfind : zoom AliasStore.ui AliasStore.withUi (internal (getProjectById env.ui projectId)) s =
      (.ok project, s') := hfind
  obtain ⟨ui, hfind, -⟩ := zoom_eq_ok hfind
  have hfind : query env.ui.faults.readProject (fun s : UiStore => s.projects.find (fun r => r.id == projectId)) s.ui =
      (.ok project, ui) := mapError_eq_ok hfind
  cases hfault : env.ui.faults.readProject with
  | some text =>
      rw [hfault] at hfind
      exact absurd (congrArg Prod.fst hfind) nofun
  | none =>
      rw [hfault] at hfind
      cases project with
      | none => exact absurd (congrArg Prod.fst h) nofun
      | some project =>
          obtain ⟨hmem, hid⟩ := find_some (query_eq_ok hfind).1.symm
          exact ⟨project, hmem, by simpa using hid⟩

theorem alone_admitUpsert {names : String × String}
    (h : (admitUpsert setup auth projectId req).alone env s = (.ok names, t)) :
    t = s ∧ names = (trim req.rawName, trim req.displayName) ∧ ∃ p ∈ s.ui.projects.rows, p.id = projectId := by
  have hsteps := steps_admitUpsert (R := Eq) Eq.refl setup auth projectId req
  obtain ⟨hsame, hraw, hdisplay⟩ := hsteps.alone_ok Eq.refl (fun _ _ _ hst htu => hst.trans htu) h
  refine ⟨hsame.symm, Prod.ext (requiredName_ok hraw).1 (requiredName_ok hdisplay).1, ?_⟩
  rw [admitUpsert, alone_bind] at h
  obtain ⟨_, s', hvalid, h⟩ := bind_eq_ok h
  have hs' : s' = s := (congrArg Prod.snd hvalid).symm
  rw [alone_bind, hs'] at h
  obtain ⟨_, _, hproject, -⟩ := bind_eq_ok h
  exact alone_requireProject hproject

theorem upsert_run {rawName displayName : String}
    (h : (admitUpsert setup auth projectId req).alone env s = (.ok (rawName, displayName), t)) :
    (httpUpsertProjectMetricAlias setup auth projectId req).alone env s =
      mapError upsertError (upsertMetricAlias env projectId rawName displayName (optionalText req.unit)
        (optionalText req.description) req.isActive) s := by
  obtain ⟨rfl, -⟩ := alone_admitUpsert h
  rw [httpUpsertProjectMetricAlias, alone_bind, bind_ok h]
  rfl

theorem upsert_served {rawName displayName : String}
    (hpassed : (admitUpsert setup auth projectId req).alone env s = (.ok (rawName, displayName), s))
    (hwrite : env.writeAlias = none) (hread : env.readAlias = none)
    (hfree : ¬ (req.isActive = true ∧ Taken s projectId rawName displayName)) :
    ∃ t, (httpUpsertProjectMetricAlias setup auth projectId req).alone env s =
        (.ok (writtenRow env projectId rawName displayName (optionalText req.unit) (optionalText req.description)
          req.isActive s), t) ∧
      writeMetricAlias env projectId rawName displayName (optionalText req.unit) (optionalText req.description)
        req.isActive s = .ok ((), t) := by
  obtain ⟨t, ht⟩ := writeMetricAlias_free (alone_admitUpsert hpassed).2.2 hfree
  refine ⟨t, ?_, ht⟩
  rw [upsert_run hpassed]
  exact mapError_ok (upsertMetricAlias_ok_iff.mpr ⟨hwrite, hread, hfree, Eq.refl _, ht⟩)

theorem upsert_refused {rawName displayName : String}
    (hpassed : (admitUpsert setup auth projectId req).alone env s = (.ok (rawName, displayName), s))
    (hwrite : env.writeAlias = none) (hactive : req.isActive = true) (htaken : Taken s projectId rawName displayName) :
    (httpUpsertProjectMetricAlias setup auth projectId req).alone env s = (.error nameTaken, s) := by
  rw [upsert_run hpassed, upsertMetricAlias]
  have hrefused : execute env.writeAlias (writeMetricAlias env projectId rawName displayName (optionalText req.unit)
      (optionalText req.description) req.isActive) s = (.error displayActive, s) := by
    rw [hwrite]
    simp only [execute, statement_none, writeMetricAlias_taken hactive htaken]
  rw [mapError, bind_error hrefused]
  have hname : upsertError displayActive = nameTaken := by decide +kernel
  exact Prod.ext (congrArg Except.error hname) (Eq.refl s)

/-- An upsert is served exactly when it is admitted, nothing fails and no other active
alias of the project shows the name. It writes its own row and nothing else. A name
that is taken is a conflict, and the store stays as it is. -/
theorem httpUpsert_outcome (setup : Setup) (auth : AuthContext) (projectId : String) (req : UpsertMetricAliasRequest)
    (env : AliasEnv) (s : AliasStore) :
    ((∃ row t, (httpUpsertProjectMetricAlias setup auth projectId req).alone env s = (.ok row, t)) ↔
      ∃ rawName displayName,
        (admitUpsert setup auth projectId req).alone env s = (.ok (rawName, displayName), s) ∧
        env.writeAlias = none ∧ env.readAlias = none ∧
        ¬ (req.isActive = true ∧ Taken s projectId rawName displayName)) ∧
    (∀ row t, (httpUpsertProjectMetricAlias setup auth projectId req).alone env s = (.ok row, t) →
      t.ui = s.ui ∧ t.find = Function.update s.find (projectId, trim req.rawName) (some row) ∧
      row = ⟨projectId, trim req.rawName, trim req.displayName, optionalText req.unit, optionalText req.description,
        req.isActive, row.createdAt, env.ui.now⟩) ∧
    ∀ rawName displayName,
      (admitUpsert setup auth projectId req).alone env s = (.ok (rawName, displayName), s) → env.writeAlias = none →
      req.isActive = true → Taken s projectId rawName displayName →
      (httpUpsertProjectMetricAlias setup auth projectId req).alone env s = (.error nameTaken, s) := by
  have hserved : ∀ row t, (httpUpsertProjectMetricAlias setup auth projectId req).alone env s = (.ok row, t) →
      ∃ names, (admitUpsert setup auth projectId req).alone env s = (.ok names, s) := by
    intro row t h
    rw [httpUpsertProjectMetricAlias, alone_bind] at h
    obtain ⟨names, s', hpassed, -⟩ := bind_eq_ok h
    obtain ⟨rfl, -⟩ := alone_admitUpsert hpassed
    exact ⟨names, hpassed⟩
  refine ⟨⟨?_, ?_⟩, ?_, ?_⟩
  · rintro ⟨row, t, h⟩
    obtain ⟨⟨rawName, displayName⟩, hpassed⟩ := hserved row t h
    rw [upsert_run hpassed] at h
    obtain ⟨hwrite, hread, hfree, -⟩ := upsertMetricAlias_ok_iff.mp (mapError_eq_ok h)
    exact ⟨rawName, displayName, hpassed, hwrite, hread, hfree⟩
  · rintro ⟨rawName, displayName, hpassed, hwrite, hread, hfree⟩
    obtain ⟨t, hrun, -⟩ := upsert_served hpassed hwrite hread hfree
    exact ⟨_, t, hrun⟩
  · intro row t h
    obtain ⟨⟨rawName, displayName⟩, hpassed⟩ := hserved row t h
    rw [upsert_run hpassed] at h
    obtain ⟨-, -, -, hrow, hwrite⟩ := upsertMetricAlias_ok_iff.mp (mapError_eq_ok h)
    obtain ⟨hraw, hdisplay⟩ := Prod.mk.inj (alone_admitUpsert hpassed).2.1
    obtain ⟨createdAt, hwritten⟩ := writtenRow_eq env projectId rawName displayName (optionalText req.unit)
      (optionalText req.description) req.isActive s
    refine ⟨(writeMetricAlias_ok hwrite).1, ?_, ?_⟩
    · rw [hrow, ← hraw]
      exact writeMetricAlias_find hwrite
    · rw [hrow, hwritten, hraw, hdisplay]
  · exact fun rawName displayName => upsert_refused

end Outcomes

end MLRunX.AliasRuns
