import MLRunX.Auth
import MLRunX.Runs
import MLRunX.Sqlite
import MLRunX.Tables

namespace MLRunX.KeyStore

open Auth Runs Sqlite Tables

/-- The hash functions of the store: HMAC under the configured secret, the
unsalted SHA-256 of old keys, and Argon2 with its salt and its verifier. -/
structure Hashing where
  hmac : String → String
  sha256 : String → String
  argon2 : String → String → Option String
  argon2Verify : String → String → Bool

def isArgon2 (hash : String) : Bool := "$argon2".toList.isPrefixOf hash.toList

structure Hashing.Lawful (H : Hashing) : Prop where
  hmac_inj : ∀ {raw raw'}, H.hmac raw = H.hmac raw' → raw = raw'
  sha256_inj : ∀ {raw raw'}, H.sha256 raw = H.sha256 raw' → raw = raw'
  sha256_plain : ∀ raw, isArgon2 (H.sha256 raw) = false
  argon2_marked : ∀ {salt raw hash}, H.argon2 salt raw = some hash → isArgon2 hash = true
  argon2_opens : ∀ {salt raw hash}, H.argon2 salt raw = some hash →
    ∀ raw', H.argon2Verify raw' hash = true ↔ raw' = raw

/-- A row of `api_keys`. The scopes are kept as the list that their JSON text
spells. -/
structure ApiKeyRow extends ApiKey where
  keyFingerprint : Option String
  deriving DecidableEq, Repr

def ApiKeyRow.clash (a b : ApiKeyRow) : Prop :=
  a.id = b.id ∨ a.keyHash = b.keyHash ∨ (a.keyFingerprint.isSome ∧ a.keyFingerprint = b.keyFingerprint)

instance : DecidableRel ApiKeyRow.clash := fun a b => by unfold ApiKeyRow.clash; infer_instance

abbrev ApiKeys := Table ApiKeyRow ApiKeyRow.clash

/-- The table behind the store, and the map from hashes to keys in memory,
kept as the list of its values. -/
structure ApiKeyStore where
  table : ApiKeys
  keys : List ApiKey

structure KeyGen where
  id : String
  salt : String
  now : Nat
  deriving Repr

variable (H : Hashing)

def hashWithHmac (value : String) : String := H.hmac value

def createKeyFromRaw (gen : KeyGen) (rawKey : String) (projectId name : Option String)
    (scopes : List String) (expiresAt : Option Nat) : ApiKey where
  id := gen.id
  keyHash := (H.argon2 gen.salt rawKey).getD (H.sha256 rawKey)
  keyPrefix := String.ofList (rawKey.toList.take 8)
  projectId := projectId
  createdByUserId := none
  name := name
  scopes := scopes
  createdAt := gen.now
  lastUsedAt := none
  revokedAt := none
  expiresAt := expiresAt

def verifyApiKeyHash (rawKey storedHash : String) : Bool :=
  if isArgon2 storedHash then H.argon2Verify rawKey storedHash
  else H.sha256 rawKey == storedHash

def insertKey (keys : List ApiKey) (key : ApiKey) : List ApiKey :=
  key :: keys.filter (fun k => k.keyHash != key.keyHash)

def insertApiKey (fault : Option String) (table : ApiKeys) (row : ApiKeyRow) : Sql ApiKeys :=
  statement fault <| match table.insert row with
    | some table' => .ok table'
    | none => .error (uniqueViolation "api_keys")

/-- The insertion absorbs a conflict on the fingerprint only: then the row
stored under it is overwritten. -/
def upsertBootstrapApiKey (fault : Option String) (table : ApiKeys) (row : ApiKeyRow) : Sql ApiKeys :=
  statement fault <|
    if table.rows.any (fun r => r.keyFingerprint.isSome && r.keyFingerprint == row.keyFingerprint) then
      match table.tryUpdate (fun r =>
          if r.keyFingerprint.isSome && r.keyFingerprint == row.keyFingerprint then
            { r with
              id := row.id, keyHash := row.keyHash, keyPrefix := row.keyPrefix, projectId := none,
              scopes := ["admin"], revokedAt := none, expiresAt := row.expiresAt }
          else r) with
      | some table' => .ok table'
      | none => .error (uniqueViolation "api_keys.id")
    else match table.insert { row with
        projectId := none, name := some "bootstrap", scopes := ["admin"], revokedAt := none } with
      | some table' => .ok table'
      | none => .error (uniqueViolation "api_keys.id")

structure ValidateFaults where
  byFingerprint : Bool := false
  byHash : Bool := false
  touch : Bool := false
  deriving DecidableEq, Repr

def touchLastUsed (table : ApiKeys) (keyHash : String) (now : Nat) : ApiKeys :=
  table.update (fun r => if r.keyHash == keyHash then { r with lastUsedAt := some now } else r)
    (by intro a b h; unfold ApiKeyRow.clash at h ⊢; split at h <;> split at h <;> exact h)

def acceptRow (touchFault : Bool) (rawKey : String) (now : Nat) (store : ApiKeyStore)
    (row : ApiKeyRow) : Option ApiKey × ApiKeyStore :=
  if row.revokedAt.isSome then
    (none, store)
  else if !verifyApiKeyHash H rawKey row.keyHash then
    (none, store)
  else if !row.toApiKey.isValid now then
    (none, store)
  else if touchFault then
    (some row.toApiKey, { store with keys := insertKey store.keys row.toApiKey })
  else
    (some { row.toApiKey with lastUsedAt := some now },
      { table := touchLastUsed store.table row.keyHash now
        keys := insertKey store.keys { row.toApiKey with lastUsedAt := some now } })

def validateInMemory (rawKey : String) (now : Nat) (store : ApiKeyStore) : Option ApiKey × ApiKeyStore :=
  match store.keys.find? (fun key => key.isValid now && verifyApiKeyHash H rawKey key.keyHash) with
  | some key =>
      (some { key with lastUsedAt := some now },
        { store with keys := store.keys.map (fun k =>
            if k.keyHash == key.keyHash then { k with lastUsedAt := some now } else k) })
  | none => (none, store)

/-- By fingerprint, else by the unsalted hash, else in memory. A lookup that
fails counts as one that finds nothing. -/
def validateKey (faults : ValidateFaults) (rawKey : String) (now : Nat) (store : ApiKeyStore) :
    Option ApiKey × ApiKeyStore :=
  match if faults.byFingerprint then none
      else store.table.find (fun r => r.keyFingerprint == some (hashWithHmac H rawKey)) with
  | some row => acceptRow H faults.touch rawKey now store row
  | none =>
      match if faults.byHash then none else store.table.find (fun r => r.keyHash == H.sha256 rawKey) with
      | some row => acceptRow H faults.touch rawKey now store row
      | none => validateInMemory H rawKey now store

def bootstrapKey (ttl : Nat) (gen : KeyGen) (rawKey : String) : ApiKey :=
  { createKeyFromRaw H gen rawKey none (some "bootstrap") ["admin"] (some (gen.now + ttl)) with
    id := "bootstrap" }

def bootstrapRow (ttl : Nat) (gen : KeyGen) (rawKey : String) : ApiKeyRow where
  toApiKey := bootstrapKey H ttl gen rawKey
  keyFingerprint := some (hashWithHmac H rawKey)

def initFromEnv (ttl : Nat) (env : Option String) (gen : KeyGen) (fault : Option String)
    (store : ApiKeyStore) : ApiKeyStore :=
  match env with
  | none => store
  | some rawKey =>
      if rawKey.isEmpty then
        store
      else
        { table := (upsertBootstrapApiKey fault store.table (bootstrapRow H ttl gen rawKey)).toOption.getD
            store.table
          keys := insertKey store.keys (bootstrapKey H ttl gen rawKey) }

def createKeyWithOwner (projectId name : Option String) (scopes : List String)
    (expiresInSeconds : Option Nat) (createdByUserId : Option String) (gen : KeyGen) (rawKey : String)
    (fault : Option String) (store : ApiKeyStore) : (String × ApiKey) × ApiKeyStore :=
  let expiresAt := expiresInSeconds.map (gen.now + ·)
  let key := { createKeyFromRaw H gen rawKey projectId name scopes expiresAt with
    createdByUserId := createdByUserId }
  ((rawKey, key),
    { table := (insertApiKey fault store.table ⟨key, some (hashWithHmac H rawKey)⟩).toOption.getD store.table
      keys := insertKey store.keys key })

def revokeRows (p : ApiKeyRow → Bool) (now : Nat) (table : ApiKeys) : ApiKeys :=
  table.update (fun r => if p r && r.revokedAt.isNone then { r with revokedAt := some now } else r)
    (by intro a b h; unfold ApiKeyRow.clash at h ⊢; split at h <;> split at h <;> exact h)

def revokeKey (keyHash : String) (now : Nat) (fault : Bool) (store : ApiKeyStore) : Bool × ApiKeyStore :=
  let revoked := store.keys.map (fun k =>
    if k.keyHash == keyHash then { k with revokedAt := some now } else k)
  if !fault && store.table.rows.any (fun r => r.keyHash == keyHash && r.revokedAt.isNone) then
    (true, { table := revokeRows (fun r => r.keyHash == keyHash) now store.table, keys := revoked })
  else
    (store.keys.any (fun k => k.keyHash == keyHash), { store with keys := revoked })

structure RotateFaults where
  revoke : Bool := false
  upsert : Option String := none
  deriving DecidableEq, Repr

/-- Both passes over the map: the entry filed under "bootstrap", then every
entry with that id. -/
def revokeBootstrapKeys (now : Nat) (keys : List ApiKey) : List ApiKey :=
  (keys.map (fun k => if k.keyHash == "bootstrap" then { k with revokedAt := some now } else k)).map
    (fun k => if k.id == "bootstrap" && k.revokedAt.isNone then { k with revokedAt := some now } else k)

def rotateBootstrapKey (ttl : Nat) (gen : KeyGen) (rawKey : String) (faults : RotateFaults)
    (store : ApiKeyStore) : Except String String × ApiKeyStore :=
  let keys := revokeBootstrapKeys gen.now store.keys
  let table := if faults.revoke then store.table
    else revokeRows (fun r => r.id == "bootstrap") gen.now store.table
  match upsertBootstrapApiKey faults.upsert table (bootstrapRow H ttl gen rawKey) with
  | .error e => (.error s!"Failed to persist rotated bootstrap key: {e.message}", ⟨table, keys⟩)
  | .ok table' => (.ok rawKey, ⟨table', insertKey keys (bootstrapKey H ttl gen rawKey)⟩)

inductive Op
  | start (env : Option String) (gen : KeyGen) (fault : Option String)
  | rotate (rawKey : String) (gen : KeyGen) (faults : RotateFaults)
  | create (rawKey : String) (projectId name : Option String) (scopes : List String)
      (expiresInSeconds : Option Nat) (createdByUserId : Option String) (gen : KeyGen)
      (fault : Option String)
  | revoke (keyHash : String) (now : Nat) (fault : Bool)
  | validate (rawKey : String) (now : Nat) (faults : ValidateFaults)

inductive Reply
  | started
  | rotated (result : Except String String)
  | created (rawKey : String) (key : ApiKey)
  | revoked (found : Bool)
  | validated (key : Option ApiKey)

def step (ttl : Nat) : Machine ApiKeyStore Op Reply
  | store, .start env gen fault => (.started, initFromEnv H ttl env gen fault { store with keys := [] })
  | store, .rotate rawKey gen faults =>
      let r := rotateBootstrapKey H ttl gen rawKey faults store
      (.rotated r.1, r.2)
  | store, .create rawKey projectId name scopes expiresIn owner gen fault =>
      let r := createKeyWithOwner H projectId name scopes expiresIn owner gen rawKey fault store
      (.created r.1.1 r.1.2, r.2)
  | store, .revoke keyHash now fault =>
      let r := revokeKey keyHash now fault store
      (.revoked r.1, r.2)
  | store, .validate rawKey now faults =>
      let r := validateKey H faults rawKey now store
      (.validated r.1, r.2)

def empty : ApiKeyStore := ⟨.empty, []⟩

def plainHashing : Hashing where
  hmac raw := raw
  sha256 raw := "sha256:" ++ raw
  argon2 _ raw := some ("$argon2" ++ raw)
  argon2Verify raw hash := hash == "$argon2" ++ raw

theorem plainHashing_lawful : plainHashing.Lawful where
  hmac_inj h := h
  sha256_inj h := by simpa [plainHashing] using h
  sha256_plain raw := by simp only [plainHashing, isArgon2, String.toList_append]; rfl
  argon2_marked h := by
    obtain rfl := Option.some.inj h
    simp [isArgon2]
  argon2_opens h raw' := by
    obtain rfl := Option.some.inj h
    simp only [plainHashing, beq_iff_eq, String.append_right_inj]
    exact eq_comm

end MLRunX.KeyStore
