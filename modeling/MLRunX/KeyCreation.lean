import Mathlib.Data.Set.Basic
import MLRunX.Fallible
import MLRunX.KeyStore
import MLRunX.Text

namespace MLRunX.KeyCreation

open Auth Fallible Http KeyStore Runs Text

structure CreateKeyRequest where
  projectId : Option String
  name : Option String
  scopes : List String
  expiresInSeconds : Option Nat

/-- The settings that key creation reads. -/
structure Settings where
  rbac : EndpointRbacTier → Bool
  uiKeyMaxTtlSeconds : Option Nat

def uiKeyMaxTtlSeconds (configured : Option Nat) : Nat :=
  (configured.filter (0 < ·)).getD (90 * 24 * 60 * 60)

def validScopes : List String := ["admin", "write", "read"]

def normalizeScopes : List String → List String → Answer (List String)
  | normalized, [] => .ok normalized
  | normalized, scope :: scopes =>
      let value := toAsciiLowercase (trim scope)
      if !validScopes.contains value then
        .error ⟨.badRequest, s!"Invalid scope '{scope}'. Valid scopes: admin, write, read"⟩
      else if normalized.contains value then
        normalizeScopes normalized scopes
      else
        normalizeScopes (normalized ++ [value]) scopes

def normalizeRequestedScopes (scopes : List String) : Answer (List String) :=
  if scopes.isEmpty then .error ⟨.badRequest, "At least one scope is required."⟩
  else normalizeScopes [] scopes

def isKeyNameChar (c : Char) : Bool := c.isLower || c.isDigit || c == '-'

def validateSegments : List String → Answer Unit
  | [] => .ok ()
  | segment :: segments =>
      if segment.isEmpty || segment.toList.head? == some '-' || segment.toList.getLast? == some '-' then
        .error ⟨.badRequest,
          "name must use slash-delimited segments with lowercase letters, digits, and hyphens."⟩
      else if !segment.toList.all isKeyNameChar then
        .error ⟨.badRequest, "name may only contain lowercase letters, digits, '/', and '-'."⟩
      else
        validateSegments segments

def validateUiKeyName (name : Option String) : Answer String :=
  match (name.map trim).filter (fun value => !value.isEmpty) with
  | none => .error ⟨.badRequest, "name is required for UI key creation."⟩
  | some trimmed =>
      if byteLength trimmed < 3 || 64 < byteLength trimmed then
        .error ⟨.badRequest, "name must be between 3 and 64 characters."⟩
      else do
        validateSegments (split '/' trimmed)
        .ok trimmed

def resolveUiKeyTtlSeconds (maxTtl : Nat) (expiresInSeconds : Option Nat) : Answer Nat :=
  match expiresInSeconds with
  | none => .error ⟨.badRequest, "expires_in_seconds is required for UI key creation."⟩
  | some ttl =>
      if ttl = 0 then
        .error ⟨.badRequest, "expires_in_seconds must be greater than zero."⟩
      else if maxTtl < ttl then
        .error ⟨.badRequest, s!"expires_in_seconds exceeds policy maximum of {maxTtl} seconds."⟩
      else
        .ok ttl

def resolveUiKeyProjectId (auth : AuthContext) (requested : Option String) : Answer String :=
  match auth.allowedProjectIds, requested with
  | none, _ => .error ⟨.forbidden, "UI session is missing project memberships."⟩
  | some _, none => .error ⟨.badRequest, "project_id is required for UI key creation."⟩
  | some allowed, some projectId =>
      if projectId ∈ allowed then .ok projectId
      else .error ⟨.forbidden, s!"Access denied: cannot manage API keys for project '{projectId}'."⟩

def ensureRequestedScopesWithinCaller (auth : AuthContext) : List String → Answer Unit
  | [] => .ok ()
  | scope :: scopes =>
      if auth.apiKey.hasScope scope then ensureRequestedScopesWithinCaller auth scopes
      else .error ⟨.forbidden, s!"Insufficient permissions: your UI session cannot grant '{scope}' scope."⟩

/-- What the created key gets: its project, name, life and owner. -/
structure KeyTarget where
  projectId : Option String
  name : Option String
  expiresInSeconds : Option Nat
  ownerUserId : Option String

def uiKeyTarget (settings : Settings) (auth : AuthContext) (req : CreateKeyRequest)
    (scopes : List String) : Answer KeyTarget := do
  auth.requireScope "write"
  if scopes.contains "admin" then
    .error ⟨.forbidden, "UI session key creation cannot grant admin scope. Use read/write scopes."⟩
  else do
    ensureRequestedScopesWithinCaller auth scopes
    let name ← validateUiKeyName req.name
    let ttl ← resolveUiKeyTtlSeconds (uiKeyMaxTtlSeconds settings.uiKeyMaxTtlSeconds) req.expiresInSeconds
    let projectId ← resolveUiKeyProjectId auth req.projectId
    .ok ⟨some projectId, some name, some ttl, authUserId auth⟩

def apiKeyTarget (settings : Settings) (auth : AuthContext) (req : CreateKeyRequest) :
    Answer KeyTarget := do
  requireEndpointAccess auth settings.rbac .admin none
  .ok ⟨req.projectId, (req.name.map trim).filter (fun value => !value.isEmpty), req.expiresInSeconds, none⟩

def keyTarget (settings : Settings) (auth : AuthContext) (req : CreateKeyRequest) :
    Answer (List String × KeyTarget) := do
  let scopes ← normalizeRequestedScopes req.scopes
  let target ← (if auth.isUiJwt then uiKeyTarget settings auth req scopes
    else apiKeyTarget settings auth req)
  .ok (scopes, target)

def httpCreateKey (H : Hashing) (settings : Settings) (auth : AuthContext) (req : CreateKeyRequest)
    (gen : KeyGen) (rawKey : String) (fault : Option String) (store : ApiKeyStore) :
    Answer (String × ApiKey) × ApiKeyStore :=
  match keyTarget settings auth req with
  | .error e => (.error e, store)
  | .ok (scopes, target) =>
      let r := createKeyWithOwner H target.projectId target.name scopes target.expiresInSeconds
        target.ownerUserId gen rawKey fault store
      (.ok r.1, r.2)

/-- The pairs of a project and a scope that a caller may use, and whether it is
global. The product order compares two authorities. -/
def authority (auth : AuthContext) : Set (String × String) × Prop :=
  ({a | auth.requireProjectAccess a.1 = .ok () ∧ auth.requireScope a.2 = .ok ()}, auth.isGlobal = true)

theorem authority_le_iff (a b : AuthContext) :
    authority a ≤ authority b ↔
      (∀ p s, a.requireProjectAccess p = .ok () → a.requireScope s = .ok () →
        b.requireProjectAccess p = .ok () ∧ b.requireScope s = .ok ()) ∧
      (a.isGlobal = true → b.isGlobal = true) := by
  constructor
  · rintro ⟨hset, hglobal⟩
    exact ⟨fun p s hp hs => @hset (p, s) ⟨hp, hs⟩, hglobal⟩
  · rintro ⟨hset, hglobal⟩
    exact ⟨fun a ha => hset a.1 a.2 ha.1 ha.2, hglobal⟩

theorem normalizeScopes_ne_nil {normalized scopes out : List String}
    (h : normalizeScopes normalized scopes = .ok out) (hne : normalized ≠ [] ∨ scopes ≠ []) : out ≠ [] := by
  induction scopes generalizing normalized with
  | nil =>
      obtain rfl := Except.ok.inj h
      exact hne.resolve_right (fun hn => hn rfl)
  | cons scope scopes ih =>
      simp only [normalizeScopes] at h
      split at h
      · cases h
      split at h
      · rename_i hc
        refine ih h (.inl ?_)
        rintro rfl
        simp at hc
      · exact ih h (.inl (by simp))

theorem normalizeRequestedScopes_ne_nil {scopes out : List String}
    (h : normalizeRequestedScopes scopes = .ok out) : out ≠ [] := by
  simp only [normalizeRequestedScopes] at h
  split at h
  · cases h
  · rename_i hne
    exact normalizeScopes_ne_nil h (.inr (by simpa using hne))

theorem ensureRequestedScopes_ok {auth : AuthContext} {scopes : List String}
    (h : ensureRequestedScopesWithinCaller auth scopes = .ok ()) :
    ∀ s ∈ scopes, auth.apiKey.hasScope s = true := by
  induction scopes with
  | nil => simp
  | cons scope scopes ih =>
      simp only [ensureRequestedScopesWithinCaller] at h
      split at h
      · rename_i hs
        exact List.forall_mem_cons.mpr ⟨hs, ih h⟩
      · cases h

theorem resolveUiKeyProjectId_ok {auth : AuthContext} {requested : Option String} {p : String}
    (h : resolveUiKeyProjectId auth requested = .ok p) :
    requested = some p ∧ ∃ allowed, auth.allowedProjectIds = some allowed ∧ p ∈ allowed := by
  simp only [resolveUiKeyProjectId] at h
  split at h
  · cases h
  · cases h
  · rename_i allowed p' ha
    split at h
    · rename_i hp
      obtain rfl := Except.ok.inj h
      exact ⟨rfl, allowed, ha, hp⟩
    · cases h

theorem uiKeyTarget_ok {settings : Settings} {auth : AuthContext} {req : CreateKeyRequest}
    {scopes : List String} {target : KeyTarget} (h : uiKeyTarget settings auth req scopes = .ok target) :
    "admin" ∉ scopes ∧ (∀ s ∈ scopes, auth.apiKey.hasScope s = true) ∧
      ∃ p allowed, target.projectId = some p ∧ auth.allowedProjectIds = some allowed ∧ p ∈ allowed := by
  obtain ⟨_, _, h⟩ := bind_eq_ok.mp h
  split at h
  · cases h
  · rename_i hadmin
    obtain ⟨_, hens, h⟩ := bind_eq_ok.mp h
    obtain ⟨_, _, h⟩ := bind_eq_ok.mp h
    obtain ⟨_, _, h⟩ := bind_eq_ok.mp h
    obtain ⟨p, hp, h⟩ := bind_eq_ok.mp h
    obtain rfl := Except.ok.inj h
    obtain ⟨-, allowed, ha, hmem⟩ := resolveUiKeyProjectId_ok hp
    exact ⟨by simpa using hadmin, ensureRequestedScopes_ok hens, p, allowed, rfl, ha, hmem⟩

theorem apiKeyTarget_ok {settings : Settings} {auth : AuthContext} (hui : auth.isUiJwt = false)
    {req : CreateKeyRequest} {target : KeyTarget} (h : apiKeyTarget settings auth req = .ok target) :
    target.projectId = req.projectId ∧ ∀ s, auth.requireScope s = .ok () := by
  obtain ⟨_, ha, h⟩ := bind_eq_ok.mp h
  obtain rfl := Except.ok.inj h
  refine ⟨rfl, fun s => ?_⟩
  have hscope := ((requireEndpointAccess_ok_iff auth settings.rbac .admin none).mp ha).1
  rw [requireScope_ok_iff] at hscope ⊢
  by_cases hd : auth.isDevMode = true
  · exact .inl hd
  · have hadmin := (hscope (by simp [shouldEnforceScope, hd, hui])).resolve_left hd
    right
    simp only [ApiKey.hasScope, EndpointRbacTier.scope, Bool.or_self] at hadmin
    rw [ApiKey.hasScope, hadmin, Bool.true_or]

theorem httpCreateKey_ok {H : Hashing} {settings : Settings} {auth : AuthContext} {req : CreateKeyRequest}
    {gen : KeyGen} {rawKey : String} {fault : Option String} {store : ApiKeyStore} {raw' : String}
    {key : ApiKey} (h : (httpCreateKey H settings auth req gen rawKey fault store).1 = .ok (raw', key)) :
    ∃ scopes target, normalizeRequestedScopes req.scopes = .ok scopes ∧
      (if auth.isUiJwt then uiKeyTarget settings auth req scopes else apiKeyTarget settings auth req) =
        .ok target ∧
      key.scopes = scopes ∧ key.projectId = target.projectId := by
  simp only [httpCreateKey] at h
  split at h
  · cases h
  · rename_i scopes target ht
    obtain ⟨scopes', hs, ht⟩ := bind_eq_ok.mp ht
    obtain ⟨target', hta, ht⟩ := bind_eq_ok.mp ht
    obtain ⟨rfl, rfl⟩ := Prod.mk.inj (Except.ok.inj ht)
    obtain ⟨-, rfl⟩ := Prod.mk.inj (Except.ok.inj h)
    exact ⟨scopes', target', hs, hta, rfl, rfl⟩

/-- The caller is a UI session, is global, or asks for a key of its own project. -/
def OwnProject (auth : AuthContext) (req : CreateKeyRequest) : Prop :=
  auth.isUiJwt = true ∨ auth.isGlobal = true ∨ req.projectId = auth.apiKey.projectId

theorem requireScope_ofApiKey (key : ApiKey) (s : String) :
    (AuthContext.ofApiKey key).requireScope s = .ok () ↔ key.hasScope s = true := by
  simp [requireScope_ok_iff, AuthContext.ofApiKey]

theorem requireProjectAccess_ofApiKey (key : ApiKey) (p : String) :
    (AuthContext.ofApiKey key).requireProjectAccess p = .ok () ↔
      key.projectId = none ∨ key.projectId = some p := by
  rw [requireProjectAccess_ok_iff, isGlobal_ofApiKey]
  simp [AuthContext.ofApiKey, ApiKey.canAccessProject]

theorem authority_ui_key {auth : AuthContext} {key : ApiKey} (hadmin : "admin" ∉ key.scopes)
    (hscopes : ∀ s ∈ key.scopes, auth.apiKey.hasScope s = true) {p : String} {allowed : Finset String}
    (hp : key.projectId = some p) (ha : auth.allowedProjectIds = some allowed) (hmem : p ∈ allowed) :
    authority (.ofApiKey key) ≤ authority auth := by
  rw [authority_le_iff]
  constructor
  · intro q s hq hs
    rw [requireProjectAccess_ofApiKey, hp] at hq
    rw [requireScope_ofApiKey] at hs
    obtain rfl : p = q := Option.some.inj (hq.resolve_left nofun)
    have hmems : s ∈ key.scopes := by simpa [ApiKey.hasScope, hadmin] using hs
    refine ⟨(requireProjectAccess_ok_iff auth p).mpr (.inr (.inl ⟨allowed, ha, hmem⟩)), ?_⟩
    exact (requireScope_ok_iff auth s).mpr (.inr (hscopes s hmems))
  · simp [isGlobal_ofApiKey, hp]

/-- A caller that holds every scope passes on no more than it has exactly when
it is global or the new key stays in its project. -/
theorem authority_api_key {auth : AuthContext} (hui : auth.isUiJwt = false)
    (hall : ∀ s, auth.requireScope s = .ok ()) {key : ApiKey} (hne : key.scopes ≠ []) :
    authority (.ofApiKey key) ≤ authority auth ↔
      auth.isGlobal = true ∨ key.projectId = auth.apiKey.projectId := by
  have hallowed : auth.allowedProjectIds = none := by
    have hmode : ¬ auth.authMode = .uiJwt := by simpa [AuthContext.isUiJwt] using hui
    rw [← auth.projects_of_mode] at hmode
    simpa using hmode
  have haccess : ∀ p, auth.requireProjectAccess p = .ok () ↔
      auth.isGlobal = true ∨ auth.apiKey.projectId = none ∨ auth.apiKey.projectId = some p := by
    intro p
    simp [requireProjectAccess_ok_iff, hallowed, ApiKey.canAccessProject]
  have hnone : auth.apiKey.projectId = none → auth.isGlobal = true := by
    intro hn
    simp [AuthContext.isGlobal, hallowed, hn]
  rw [authority_le_iff]
  constructor
  · rintro ⟨hset, hglobal⟩
    cases hk : key.projectId with
    | none => exact .inl (hglobal (by simp [isGlobal_ofApiKey, hk]))
    | some q =>
        obtain ⟨s, hs⟩ := List.exists_mem_of_ne_nil _ hne
        have hqs := hset q s ((requireProjectAccess_ofApiKey key q).mpr (.inr hk))
          ((requireScope_ofApiKey key s).mpr (by simp [ApiKey.hasScope, hs]))
        rcases (haccess q).mp hqs.1 with hg | hn | hq
        · exact .inl hg
        · exact .inl (hnone hn)
        · exact .inr hq.symm
  · rintro (hg | hp)
    · exact ⟨fun p s _ _ => ⟨(haccess p).mpr (.inl hg), hall s⟩, fun _ => hg⟩
    · refine ⟨fun p s hps _ => ⟨(haccess p).mpr (.inr ?_), hall s⟩, fun hg => hnone ?_⟩
      · rw [requireProjectAccess_ofApiKey, hp] at hps
        exact hps
      · simpa [isGlobal_ofApiKey, hp] using hg

theorem creation_authority {H : Hashing} {settings : Settings} {auth : AuthContext} {req : CreateKeyRequest}
    {gen : KeyGen} {rawKey : String} {fault : Option String} {store : ApiKeyStore} {raw' : String}
    {key : ApiKey} (h : (httpCreateKey H settings auth req gen rawKey fault store).1 = .ok (raw', key)) :
    authority (.ofApiKey key) ≤ authority auth ↔ OwnProject auth req := by
  obtain ⟨scopes, target, hs, ht, rfl, hp⟩ := httpCreateKey_ok h
  cases hui : auth.isUiJwt with
  | true =>
      rw [hui, if_pos rfl] at ht
      obtain ⟨hadmin, hscopes, p, allowed, htp, ha, hmem⟩ := uiKeyTarget_ok ht
      exact iff_of_true (authority_ui_key hadmin hscopes (hp.trans htp) ha hmem) (.inl hui)
  | false =>
      rw [hui, if_neg (by simp)] at ht
      obtain ⟨htp, hall⟩ := apiKeyTarget_ok hui ht
      rw [authority_api_key hui hall (normalizeRequestedScopes_ne_nil hs), hp, htp, OwnProject, hui]
      simp

/-- One creation by a holder of keys: which of its keys calls, for what, and
what the server generates. -/
structure Creation where
  caller : ApiKey
  req : CreateKeyRequest
  gen : KeyGen
  rawKey : String
  fault : Option String

structure Holder where
  store : ApiKeyStore
  obtained : List ApiKey

def createStep (H : Hashing) (settings : Settings) : Machine Holder Creation (Answer ApiKey)
  | holder, c =>
      if c.caller ∈ holder.obtained then
        match httpCreateKey H settings (.ofApiKey c.caller) c.req c.gen c.rawKey c.fault holder.store with
        | (.ok (_, key), store) => (.ok key, ⟨store, holder.obtained ++ [key]⟩)
        | (.error e, store) => (.error e, ⟨store, holder.obtained⟩)
      else (.error ⟨.unauthorized, "Invalid or expired API key"⟩, holder)

def StaysInProject (_ : List (Creation × Answer ApiKey)) (_ : Holder) (c : Creation) : Prop :=
  OwnProject (.ofApiKey c.caller) c.req

theorem obtained_step {H : Hashing} {settings : Settings} {P : String} {holder : Holder} {c : Creation}
    (hobt : ∀ key ∈ holder.obtained, key.projectId = some P)
    (hown : OwnProject (.ofApiKey c.caller) c.req) :
    ∀ key ∈ (createStep H settings holder c).2.obtained, key.projectId = some P := by
  intro key hkey
  by_cases hc : c.caller ∈ holder.obtained
  · have hcaller := hobt c.caller hc
    simp only [createStep, if_pos hc] at hkey
    split at hkey
    · rename_i raw' key' store' heq
      rw [List.mem_append, List.mem_singleton] at hkey
      rcases hkey with hkey | rfl
      · exact hobt key hkey
      · have hok := congrArg Prod.fst heq
        obtain ⟨scopes, target, -, ht, -, hp⟩ := httpCreateKey_ok hok
        have hui : (AuthContext.ofApiKey c.caller).isUiJwt = false := rfl
        rw [hui, if_neg (by simp)] at ht
        rcases hown with h | h | h
        · cases h
        · simp [isGlobal_ofApiKey, hcaller] at h
        · rw [hp, (apiKeyTarget_ok hui ht).1, h]
          exact hcaller
    · exact hobt key hkey
  · simp only [createStep, if_neg hc] at hkey
    exact hobt key hkey

theorem obtained_run {H : Hashing} {settings : Settings} {P : String} {holder : Holder}
    {calls : List Creation} (hobt : ∀ key ∈ holder.obtained, key.projectId = some P)
    (hg : Guarded (createStep H settings) StaysInProject [] holder calls) :
    ∀ key ∈ (after (createStep H settings) holder calls).obtained, key.projectId = some P :=
  invariant_history (fun _ holder => ∀ key ∈ holder.obtained, key.projectId = some P)
    (fun _ _ _ h hown => obtained_step h hown) [] holder calls hobt hg

/-- A creation amplifies authority exactly when a project's key asks for a key
outside its project; keys obtained without such requests stay in the project. -/
theorem keyCreation_confined (H : Hashing) (settings : Settings) :
    (∀ (auth : AuthContext) (req : CreateKeyRequest) (gen : KeyGen) (rawKey : String)
      (fault : Option String) (store : ApiKeyStore) (raw' : String) (key : ApiKey),
      (httpCreateKey H settings auth req gen rawKey fault store).1 = .ok (raw', key) →
        (authority (.ofApiKey key) ≤ authority auth ↔ OwnProject auth req)) ∧
    ∀ (P : String) (root : ApiKey) (store : ApiKeyStore) (calls : List Creation),
      root.projectId = some P → Guarded (createStep H settings) StaysInProject [] ⟨store, [root]⟩ calls →
        ∀ key ∈ (after (createStep H settings) ⟨store, [root]⟩ calls).obtained,
          (∀ a ∈ (authority (.ofApiKey key)).1, a.1 = P) ∧ ¬ (authority (.ofApiKey key)).2 := by
  refine ⟨fun auth req gen rawKey fault store raw' key h => creation_authority h, ?_⟩
  intro P root store calls hroot hg key hkey
  have hp : key.projectId = some P := obtained_run (by simpa using hroot) hg key hkey
  constructor
  · rintro ⟨p, s⟩ ⟨hps, -⟩
    rw [requireProjectAccess_ofApiKey, hp] at hps
    exact (Option.some.inj (hps.resolve_left nofun)).symm
  · simp [authority, isGlobal_ofApiKey, hp]

def projectAdmin : ApiKey :=
  ⟨"k", "h", "k", some "p", none, none, ["admin"], 0, none, none, none⟩

def allTiers : Settings := ⟨fun _ => true, none⟩

theorem keyCreation_confined_child :
    let req : CreateKeyRequest := ⟨some "p", none, ["read"], none⟩
    let child := createKeyWithOwner plainHashing (some "p") none ["read"] none none ⟨"c", "s", 0⟩ "r" none empty
    authority (.ofApiKey child.1.2) ≤ authority (.ofApiKey projectAdmin) ∧
      ∀ key ∈ (after (createStep plainHashing allTiers) ⟨empty, [projectAdmin]⟩
        [⟨projectAdmin, req, ⟨"c", "s", 0⟩, "r", none⟩]).obtained,
        (∀ a ∈ (authority (.ofApiKey key)).1, a.1 = "p") ∧ ¬ (authority (.ofApiKey key)).2 := by
  have h := keyCreation_confined plainHashing allTiers
  refine ⟨(h.1 (.ofApiKey projectAdmin) ⟨some "p", none, ["read"], none⟩ ⟨"c", "s", 0⟩ "r" none empty "r" _
    (by rfl)).mpr (.inr (.inr rfl)), h.2 "p" projectAdmin empty _ rfl ⟨.inr (.inr rfl), trivial⟩⟩

theorem project_admin_creates_global_key :
    ∃ key, (httpCreateKey plainHashing allTiers (.ofApiKey projectAdmin) ⟨none, none, ["admin"], none⟩
        ⟨"c", "s", 0⟩ "r" none empty).1 = .ok ("r", key) ∧
      ¬ authority (.ofApiKey key) ≤ authority (.ofApiKey projectAdmin) := by
  refine ⟨_, rfl, ?_⟩
  rw [authority_le_iff]
  rintro ⟨-, hglobal⟩
  exact absurd (hglobal rfl) (by decide)

end MLRunX.KeyCreation
