import MLRunX.KeyCopies
import MLRunX.KeyCreation
import MLRunX.RunServer

namespace MLRunX.KeyServer

open Atomicity Auth Commands Http KeyCopies KeyStore Mutators RunServer Runs Sqlite Statements Tables

/-- A process with the tables it works on and its map of keys. -/
structure Server where
  sqlite : SqliteStore
  keys : List ApiKey

def Server.store (s : Server) : ApiKeyStore := ⟨s.sqlite.apiKeys, s.keys⟩

def Server.setStore (store : ApiKeyStore) (s : Server) : Server :=
  ⟨{ s.sqlite with apiKeys := store.table }, store.keys⟩

def restart (s : Server) : Server := { s with keys := [] }

def hasProject (sqlite : SqliteStore) (projectId : String) : Bool :=
  (sqlite.ui.projects.find (fun r => r.id == projectId)).isSome

def hasUser (sqlite : SqliteStore) (userId : String) : Bool :=
  (sqlite.ui.users.find (fun r => r.id == userId)).isSome

/-- The foreign keys refuse a key whose project or whose owner is not there. -/
def ownedFault (sqlite : SqliteStore) (projectId ownerUserId fault : Option String) : Option String :=
  if projectId.all (hasProject sqlite) && ownerUserId.all (hasUser sqlite) then fault else foreignKeyFailed

def listKeys (fault : Bool) (projectId : Option String) (store : ApiKeyStore) : List ApiKey :=
  if fault then store.keys.filter (fun k => projectId.all (fun p => k.projectId == some p))
  else (store.table.select (fun r => projectId.all (fun p => r.projectId == some p))).map ApiKeyRow.toApiKey

def filterKeysToUiMemberships (auth : AuthContext) (keys : List ApiKey) : List ApiKey :=
  match auth.allowedProjectIds, authUserId auth with
  | some allowed, some userId =>
      keys.filter (fun k => k.projectId.any (fun p => decide (p ∈ allowed)) && k.createdByUserId == some userId)
  | _, _ => []

/-- The failures of the listing and of the update behind a revocation. -/
structure RevokeFaults where
  list : Bool := false
  revoke : Bool := false
  deriving DecidableEq, Repr

def visibleKeys (flags : EndpointRbacTier → Bool) (auth : AuthContext) (fault : Bool) (store : ApiKeyStore) :
    Answer (List ApiKey) :=
  if auth.isUiJwt then do
    auth.requireScope "write"
    .ok (filterKeysToUiMemberships auth (listKeys fault none store))
  else do
    requireEndpointAccess auth flags .admin none
    .ok (listKeys fault auth.apiKey.projectId store)

def httpRevokeKey (flags : EndpointRbacTier → Bool) (auth : AuthContext) (keyId : String) (now : Nat)
    (faults : RevokeFaults) (store : ApiKeyStore) : Answer Unit × ApiKeyStore :=
  match validatePathId keyId "key_id" with
  | .error e => (.error e, store)
  | .ok () => match visibleKeys flags auth faults.list store with
      | .error e => (.error e, store)
      | .ok keys => match keys.find? (fun k => k.id == keyId) with
          | some key => (.ok (), (revokeKey key.keyHash now faults.revoke store).2)
          | none => (.error ⟨.notFound, s!"Key not found: {keyId}"⟩, store)

inductive Op
  | create (rawKey : String) (projectId name : Option String) (scopes : List String) (expiresInSeconds : Option Nat)
      (createdByUserId : Option String) (gen : KeyGen) (fault : Option String)
  | validate (rawKey : String) (now : Nat) (faults : ValidateFaults)
  | revoke (keyHash : String) (now : Nat) (fault : Bool)
  | httpRevoke (auth : AuthContext) (keyId : String) (now : Nat) (faults : RevokeFaults)
  | deleteProject (faults : DeleteProjectFaults) (projectId : String)

inductive Reply
  | created (rawKey : String) (key : ApiKey)
  | validated (key : Option ApiKey)
  | revoked (found : Bool)
  | httpRevoked (answer : Answer Unit)
  | deleted (answer : Sql Unit)

variable (H : Hashing) (flags : EndpointRbacTier → Bool)

def step : Machine Server Op Reply
  | s, .create rawKey projectId name scopes expiresIn owner gen fault =>
      let r := createKeyWithOwner H projectId name scopes expiresIn owner gen rawKey
        (ownedFault s.sqlite projectId owner fault) s.store
      (.created r.1.1 r.1.2, s.setStore r.2)
  | s, .validate rawKey now faults =>
      let r := validateKey H faults rawKey now s.store
      (.validated r.1, s.setStore r.2)
  | s, .revoke keyHash now fault =>
      let r := revokeKey keyHash now fault s.store
      (.revoked r.1, s.setStore r.2)
  | s, .httpRevoke auth keyId now faults =>
      let r := httpRevokeKey flags auth keyId now faults s.store
      (.httpRevoked r.1, s.setStore r.2)
  | s, .deleteProject faults projectId =>
      let r := deleteProject faults projectId s.sqlite
      (.deleted r.1, { s with sqlite := r.2 })

variable {H flags}

def createdRow (H : Hashing) : Op → Option ApiKeyRow
  | .create rawKey projectId name scopes expiresIn owner gen _ =>
      some ⟨{ createKeyFromRaw H gen rawKey projectId name scopes (expiresIn.map (gen.now + ·)) with
        createdByUserId := owner }, some (hashWithHmac H rawKey)⟩
  | _ => none

theorem httpRevokeKey_cases (auth : AuthContext) (keyId : String) (now : Nat) (faults : RevokeFaults)
    (store : ApiKeyStore) :
    (∃ e, httpRevokeKey flags auth keyId now faults store = (.error e, store)) ∨
      ∃ keys key, visibleKeys flags auth faults.list store = .ok keys ∧ key ∈ keys ∧ key.id = keyId ∧
        httpRevokeKey flags auth keyId now faults store =
          (.ok (), (revokeKey key.keyHash now faults.revoke store).2) := by
  unfold httpRevokeKey
  cases validatePathId keyId "key_id" with
  | error e => exact .inl ⟨e, rfl⟩
  | ok u =>
      cases visibleKeys flags auth faults.list store with
      | error e => exact .inl ⟨e, rfl⟩
      | ok keys =>
          cases hfind : keys.find? (fun k => k.id == keyId) with
          | none => exact .inl ⟨⟨.notFound, s!"Key not found: {keyId}"⟩, by simp only [hfind]⟩
          | some key =>
              have hid := List.find?_some hfind
              refine .inr ⟨keys, key, rfl, List.mem_of_find?_eq_some hfind, beq_iff_eq.mp hid, ?_⟩
              simp only [hfind]

theorem mem_visibleKeys {auth : AuthContext} {fault : Bool} {store : ApiKeyStore} {keys : List ApiKey}
    {key : ApiKey}
    (h : visibleKeys flags auth fault store = .ok keys) (hkey : key ∈ keys) :
    (∃ r ∈ store.table.rows, r.toApiKey = key) ∨ key ∈ store.keys := by
  have hlist : ∀ projectId, key ∈ listKeys fault projectId store →
      (∃ r ∈ store.table.rows, r.toApiKey = key) ∨ key ∈ store.keys := by
    intro projectId hmem
    unfold listKeys at hmem
    split at hmem
    · exact .inr (List.mem_filter.mp hmem).1
    · obtain ⟨r, hr, heq⟩ := List.mem_map.mp hmem
      exact .inl ⟨r, (List.mem_filter.mp hr).1, heq⟩
  unfold visibleKeys at h
  split at h
  · obtain ⟨-, -, h⟩ := Fallible.bind_eq_ok.mp h
    obtain rfl := Except.ok.inj h
    unfold filterKeysToUiMemberships at hkey
    split at hkey
    · exact hlist none (List.mem_filter.mp hkey).1
    · exact absurd hkey List.not_mem_nil
  · obtain ⟨-, -, h⟩ := Fallible.bind_eq_ok.mp h
    obtain rfl := Except.ok.inj h
    exact hlist _ hkey

theorem copies_step {Q : ApiKeyRow → Prop} (hQ : ∀ r r', Ages r r' → Q r → Q r') {s : Server}
    (h : Copies Q s.store)
    (op : Op) (hnew : ∀ row, createdRow H op = some row → Q row) : Copies Q (step H flags s op).2.store := by
  cases op with
  | create rawKey projectId name scopes expiresIn owner gen fault =>
      exact h.createKeyWithOwner projectId name scopes expiresIn owner gen rawKey _ (hnew _ rfl)
  | validate rawKey now faults => exact h.validateKey hQ faults rawKey now
  | revoke keyHash now fault => exact h.revokeKey hQ keyHash now fault
  | httpRevoke auth keyId now faults =>
      change Copies Q (httpRevokeKey flags auth keyId now faults s.store).2
      rcases @httpRevokeKey_cases flags auth keyId now faults s.store with ⟨e, heq⟩ | ⟨keys, key, -, -, -, heq⟩
      · rw [heq]
        exact h
      · rw [heq]
        exact h.revokeKey hQ key.keyHash now faults.revoke
  | deleteProject faults projectId =>
      refine ⟨fun r hr => h.rows r ?_, h.keys⟩
      change r ∈ (deleteProject faults projectId s.sqlite).2.apiKeys.rows at hr
      rw [apiKeys_deleteProject] at hr
      split at hr
      · exact (List.mem_filter.mp hr).1
      · exact hr

end MLRunX.KeyServer
