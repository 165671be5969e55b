import MLRunX.KeyCopies

namespace MLRunX.KeyRotation

open Auth KeyCopies KeyStore Runs Sqlite Tables

variable {H : Hashing}

/-- A stored hash that one raw key opens and no other. -/
def Opens (H : Hashing) (keyHash rawKey : String) : Prop :=
  ∀ raw', verifyApiKeyHash H raw' keyHash = true ↔ raw' = rawKey

/-- Every key of a store, in the table and in memory, satisfies `Q` of its id,
its hash and the fingerprint that belongs to it. -/
structure Holds (Q : String → String → Option String → Prop) (store : ApiKeyStore) : Prop where
  rows : ∀ r ∈ store.table.rows, Q r.id r.keyHash r.keyFingerprint
  keys : ∀ k ∈ store.keys, ∃ fingerprint, Q k.id k.keyHash fingerprint

theorem opens_createKeyFromRaw (hH : H.Lawful) (gen : KeyGen) (rawKey : String)
    (projectId name : Option String) (scopes : List String) (expiresAt : Option Nat) :
    Opens H (createKeyFromRaw H gen rawKey projectId name scopes expiresAt).keyHash rawKey := by
  intro raw'
  cases ha : H.argon2 gen.salt rawKey with
  | none =>
      simp only [createKeyFromRaw, ha, Option.getD_none, verifyApiKeyHash, hH.sha256_plain,
        Bool.false_eq_true, if_false, beq_iff_eq]
      exact ⟨hH.sha256_inj, congrArg _⟩
  | some hash =>
      simp only [createKeyFromRaw, ha, Option.getD_some, verifyApiKeyHash, hH.argon2_marked ha, if_true]
      exact hH.argon2_opens ha raw'

theorem opens_unique {keyHash raw raw' : String} (h : Opens H keyHash raw) (h' : Opens H keyHash raw') :
    raw = raw' :=
  (h' raw).mp ((h raw).mpr rfl)

theorem upsertBootstrapApiKey_rows {fault : Option String} {table table' : ApiKeys} {row : ApiKeyRow}
    (h : upsertBootstrapApiKey fault table row = .ok table') {r : ApiKeyRow} (hr : r ∈ table'.rows) :
    r ∈ table.rows ∨
      (r.id = row.id ∧ r.keyHash = row.keyHash ∧ r.keyFingerprint = row.keyFingerprint) := by
  obtain ⟨-, h⟩ := statement_eq_ok.mp h
  split at h
  · split at h
    · rename_i hu
      obtain rfl := Except.ok.inj h
      rw [tryUpdate_eq_some hu, List.mem_map] at hr
      obtain ⟨r₀, hr₀, rfl⟩ := hr
      split
      · rename_i hfp
        simp only [Bool.and_eq_true, beq_iff_eq] at hfp
        exact .inr ⟨rfl, rfl, hfp.2⟩
      · exact .inl hr₀
    · cases h
  · split at h
    · rename_i hi
      obtain rfl := Except.ok.inj h
      rw [(insert_eq_some hi).1, List.mem_append, List.mem_singleton] at hr
      rcases hr with hr | rfl
      · exact .inl hr
      · exact .inr ⟨rfl, rfl, rfl⟩
    · cases h

variable {Q : String → String → Option String → Prop}

theorem holds_iff_copies {store : ApiKeyStore} :
    Holds Q store ↔ Copies (fun r => Q r.id r.keyHash r.keyFingerprint) store :=
  ⟨fun h => ⟨h.rows, h.keys⟩, fun h => ⟨h.rows, h.keys⟩⟩

theorem holds_ages {r r' : ApiKeyRow} (h : Ages r r') (hr : Q r.id r.keyHash r.keyFingerprint) :
    Q r'.id r'.keyHash r'.keyFingerprint := by
  rwa [h.id, h.keyHash, h.keyFingerprint]

theorem holds_insertKey {store : ApiKeyStore} (h : Holds Q store) (key : ApiKey) {fingerprint : Option String}
    (hk : Q key.id key.keyHash fingerprint) : Holds Q { store with keys := insertKey store.keys key } :=
  holds_iff_copies.mpr (@Copies.insertKey _ store (holds_iff_copies.mp h) key fingerprint hk)

theorem holds_initFromEnv {store : ApiKeyStore} (h : Holds Q store) (ttl : Nat) (env : Option String)
    (gen : KeyGen) (fault : Option String)
    (hnew : ∀ raw ∈ env, raw.isEmpty = false →
      Q "bootstrap" (bootstrapKey H ttl gen raw).keyHash (some (hashWithHmac H raw))) :
    Holds Q (initFromEnv H ttl env gen fault store) := by
  cases env with
  | none => exact h
  | some raw =>
      unfold initFromEnv
      by_cases he : raw.isEmpty = true
      · simpa [he] using h
      · have hq := hnew raw rfl (by simpa using he)
        simp only [he, Bool.false_eq_true, if_false]
        refine ⟨?_, (holds_insertKey h (bootstrapKey H ttl gen raw) hq).keys⟩
        intro r hr
        rcases rows_toOption_getD hr with hr | ⟨table', hu, hr⟩
        · exact h.rows r hr
        · rcases upsertBootstrapApiKey_rows hu hr with hr | ⟨h₁, h₂, h₃⟩
          · exact h.rows r hr
          · rw [h₁, h₂, h₃]
            exact hq

theorem holds_createKeyWithOwner {store : ApiKeyStore} (h : Holds Q store) (projectId name : Option String)
    (scopes : List String) (expiresIn : Option Nat) (owner : Option String) (gen : KeyGen) (raw : String)
    (fault : Option String)
    (hnew : Q gen.id ((H.argon2 gen.salt raw).getD (H.sha256 raw)) (some (hashWithHmac H raw))) :
    Holds Q (createKeyWithOwner H projectId name scopes expiresIn owner gen raw fault store).2 :=
  holds_iff_copies.mpr ((holds_iff_copies.mp h).createKeyWithOwner projectId name scopes expiresIn owner gen
    raw fault hnew)

theorem holds_revokeKey {store : ApiKeyStore} (h : Holds Q store) (keyHash : String) (now : Nat) (fault : Bool) :
    Holds Q (revokeKey keyHash now fault store).2 :=
  holds_iff_copies.mpr ((holds_iff_copies.mp h).revokeKey (fun _ _ => holds_ages) keyHash now fault)

theorem holds_validateKey {store : ApiKeyStore} (h : Holds Q store) (faults : ValidateFaults) (raw : String)
    (now : Nat) : Holds Q (validateKey H faults raw now store).2 :=
  holds_iff_copies.mpr ((holds_iff_copies.mp h).validateKey (fun _ _ => holds_ages) faults raw now)

theorem holds_revokeBootstrap {store : ApiKeyStore} (h : Holds Q store) (now : Nat) (fault : Bool) :
    Holds Q ⟨if fault then store.table else revokeRows (fun r => r.id == "bootstrap") now store.table,
      revokeBootstrapKeys now store.keys⟩ := by
  have hrevoked : ∀ (p : ApiKey → Bool) k fingerprint, Ages ⟨k, fingerprint⟩
      ⟨if p k then { k with revokedAt := some now } else k, fingerprint⟩ := by
    intro p k fingerprint
    split
    · exact ages_revoked ⟨k, fingerprint⟩ now
    · exact ages_refl _
  have hmarked : ∀ {keys : List ApiKey} (p : ApiKey → Bool),
      Copies (fun r => Q r.id r.keyHash r.keyFingerprint) ⟨store.table, keys⟩ →
        Copies (fun r => Q r.id r.keyHash r.keyFingerprint)
          ⟨store.table, keys.map (fun k => if p k then { k with revokedAt := some now } else k)⟩ :=
    fun p hcopies => hcopies.update (fun _ _ => holds_ages) (List.map_id _).symm rfl ages_refl (hrevoked p)
  have hmem := hmarked (fun k => k.id == "bootstrap" && k.revokedAt.isNone)
    (hmarked (fun k => k.keyHash == "bootstrap") (holds_iff_copies.mp h))
  apply holds_iff_copies.mpr
  split
  · exact hmem
  · refine hmem.update (fun _ _ => holds_ages) rfl (List.map_id _).symm (fun r => ?_) (fun _ _ => ages_refl _)
    split
    · exact ages_revoked r now
    · exact ages_refl r

theorem holds_rotateBootstrapKey {store : ApiKeyStore} (h : Holds Q store) (ttl : Nat) (gen : KeyGen)
    (raw : String) (faults : RotateFaults)
    (hnew : Q "bootstrap" (bootstrapKey H ttl gen raw).keyHash (some (hashWithHmac H raw))) :
    Holds Q (rotateBootstrapKey H ttl gen raw faults store).2 := by
  have hrev := holds_revokeBootstrap h gen.now faults.revoke
  unfold rotateBootstrapKey
  dsimp only
  split
  · exact hrev
  · rename_i table' hu
    refine ⟨?_, (holds_insertKey hrev (bootstrapKey H ttl gen raw) hnew).keys⟩
    intro r hr
    rcases upsertBootstrapApiKey_rows hu hr with hr | ⟨h₁, h₂, h₃⟩
    · exact hrev.rows r hr
    · rw [h₁, h₂, h₃]
      exact hnew

def Op.bootstrapRaw : Op → Option String
  | .start (some raw) _ _ => if raw.isEmpty then none else some raw
  | .rotate raw _ _ => some raw
  | _ => none

def Op.createdRaw : Op → Option String
  | .create raw _ _ _ _ _ _ _ => some raw
  | _ => none

def bootstrapRaws (past : List (Op × Reply)) : List String := past.filterMap (fun e => Op.bootstrapRaw e.1)

def createdRaws (past : List (Op × Reply)) : List String := past.filterMap (fun e => Op.createdRaw e.1)

/-- Generated raw keys are new, the operator's key is none that the store
created for someone else, and no generated id is the fixed one. -/
def DistinctKeys (past : List (Op × Reply)) (_ : ApiKeyStore) : Op → Prop
  | .start env _ _ => ∀ raw ∈ env, raw ∉ createdRaws past
  | .rotate raw _ _ => raw ∉ bootstrapRaws past ∧ raw ∉ createdRaws past
  | .create raw _ _ _ _ _ gen _ =>
      raw ∉ bootstrapRaws past ∧ raw ∉ createdRaws past ∧ gen.id ≠ "bootstrap"
  | .revoke _ _ _ | .validate _ _ _ => True

/-- The raw key behind a stored hash, and what its id says about its origin. -/
def Known (H : Hashing) (past : List (Op × Reply)) (id keyHash : String) (fingerprint : Option String) :
    Prop :=
  ∃ raw, Opens H keyHash raw ∧ fingerprint = some (hashWithHmac H raw) ∧
    (raw ∈ bootstrapRaws past ∧ id = "bootstrap" ∨ raw ∈ createdRaws past ∧ id ≠ "bootstrap")

structure Sound (H : Hashing) (past : List (Op × Reply)) (store : ApiKeyStore) : Prop where
  known : Holds (Known H past) store
  apart : ∀ raw ∈ bootstrapRaws past, raw ∉ createdRaws past

theorem mem_bootstrapRaws_concat (past : List (Op × Reply)) (op : Op) (reply : Reply) (raw : String) :
    raw ∈ bootstrapRaws (past ++ [(op, reply)]) ↔ raw ∈ bootstrapRaws past ∨ Op.bootstrapRaw op = some raw := by
  simp [bootstrapRaws]

theorem mem_createdRaws_concat (past : List (Op × Reply)) (op : Op) (reply : Reply) (raw : String) :
    raw ∈ createdRaws (past ++ [(op, reply)]) ↔ raw ∈ createdRaws past ∨ Op.createdRaw op = some raw := by
  simp [createdRaws]

theorem bootstrapRaw_start {env : Option String} {gen : KeyGen} {fault : Option String} {raw : String}
    (h : Op.bootstrapRaw (.start env gen fault) = some raw) : env = some raw := by
  cases env with
  | none => cases h
  | some raw' =>
      simp only [Op.bootstrapRaw] at h
      split at h
      · cases h
      · exact h

theorem known_concat {past : List (Op × Reply)} {id keyHash : String} {fingerprint : Option String}
    (h : Known H past id keyHash fingerprint) (op : Op) (reply : Reply) :
    Known H (past ++ [(op, reply)]) id keyHash fingerprint := by
  obtain ⟨raw, ho, hf, hr⟩ := h
  refine ⟨raw, ho, hf, ?_⟩
  rw [mem_bootstrapRaws_concat, mem_createdRaws_concat]
  exact hr.imp (And.imp_left .inl) (And.imp_left .inl)

theorem holds_mono {Q' : String → String → Option String → Prop} {store : ApiKeyStore} (h : Holds Q store)
    (hq : ∀ id keyHash fingerprint, Q id keyHash fingerprint → Q' id keyHash fingerprint) : Holds Q' store where
  rows := fun r hr => hq _ _ _ (h.rows r hr)
  keys := fun k hk => (h.keys k hk).imp (fun _ => hq _ _ _)

theorem known_bootstrapKey (hH : H.Lawful) {past : List (Op × Reply)} {raw : String}
    (hr : raw ∈ bootstrapRaws past) (ttl : Nat) (gen : KeyGen) :
    Known H past "bootstrap" (bootstrapKey H ttl gen raw).keyHash (some (hashWithHmac H raw)) :=
  ⟨raw, opens_createKeyFromRaw hH gen raw none (some "bootstrap") ["admin"] (some (gen.now + ttl)), rfl,
    .inl ⟨hr, rfl⟩⟩

theorem apart_step {past : List (Op × Reply)} {store : ApiKeyStore} {op : Op} (reply : Reply)
    (h : ∀ raw ∈ bootstrapRaws past, raw ∉ createdRaws past) (hg : DistinctKeys past store op) :
    ∀ raw ∈ bootstrapRaws (past ++ [(op, reply)]), raw ∉ createdRaws (past ++ [(op, reply)]) := by
  intro raw hb hc
  rw [mem_bootstrapRaws_concat] at hb
  rw [mem_createdRaws_concat] at hc
  cases op with
  | start env gen fault =>
      have hcreated : raw ∈ createdRaws past := hc.resolve_right nofun
      rcases hb with hb | hb
      · exact h raw hb hcreated
      · exact hg raw (bootstrapRaw_start hb) hcreated
  | rotate raw' gen faults =>
      have hcreated : raw ∈ createdRaws past := hc.resolve_right nofun
      rcases hb with hb | hb
      · exact h raw hb hcreated
      · exact hg.2 (Option.some.inj hb ▸ hcreated)
  | create raw' projectId name scopes expiresIn owner gen fault =>
      have hboot : raw ∈ bootstrapRaws past := hb.resolve_right nofun
      rcases hc with hc | hc
      · exact h raw hboot hc
      · exact hg.1 (Option.some.inj hc ▸ hboot)
  | revoke keyHash now fault => exact h raw (hb.resolve_right nofun) (hc.resolve_right nofun)
  | validate raw' now faults => exact h raw (hb.resolve_right nofun) (hc.resolve_right nofun)

theorem sound_step (hH : H.Lawful) (ttl : Nat) (past : List (Op × Reply)) (store : ApiKeyStore) (op : Op)
    (hs : Sound H past store) (hg : DistinctKeys past store op) :
    Sound H (past ++ [(op, (step H ttl store op).1)]) (step H ttl store op).2 := by
  have hk := holds_mono hs.known (fun _ _ _ h => known_concat h op (step H ttl store op).1)
  refine ⟨?_, apart_step _ hs.apart hg⟩
  cases op with
  | start env gen fault =>
      have hempty : Holds (Known H (past ++ [(.start env gen fault, .started)])) { store with keys := [] } :=
        ⟨hk.rows, fun k hk => absurd hk List.not_mem_nil⟩
      refine holds_initFromEnv hempty ttl env gen fault (fun raw hr he => ?_)
      refine known_bootstrapKey hH ?_ ttl gen
      rw [mem_bootstrapRaws_concat, Option.mem_def.mp hr]
      exact .inr (by simp [Op.bootstrapRaw, he])
  | rotate raw gen faults =>
      refine holds_rotateBootstrapKey hk ttl gen raw faults (known_bootstrapKey hH ?_ ttl gen)
      rw [mem_bootstrapRaws_concat]
      exact .inr rfl
  | create raw projectId name scopes expiresIn owner gen fault =>
      refine holds_createKeyWithOwner hk projectId name scopes expiresIn owner gen raw fault
        ⟨raw, opens_createKeyFromRaw hH gen raw projectId name scopes none, rfl, .inr ⟨?_, hg.2.2⟩⟩
      rw [mem_createdRaws_concat]
      exact .inr rfl
  | revoke keyHash now fault => exact holds_revokeKey hk keyHash now fault
  | validate raw now faults => exact holds_validateKey hk faults raw now

theorem sound_run (hH : H.Lawful) (ttl : Nat) (ops : List Op)
    (hg : Guarded (step H ttl) DistinctKeys [] empty ops) :
    Sound H (history (step H ttl) empty ops) (after (step H ttl) empty ops) := by
  have hempty : Sound H [] empty :=
    ⟨⟨fun r hr => absurd hr List.not_mem_nil, fun k hk => absurd hk List.not_mem_nil⟩,
      fun raw hr => absurd hr List.not_mem_nil⟩
  simpa using invariant_history (Sound H) (fun past store op => sound_step hH ttl past store op) [] empty ops hempty hg

/-- Every stored key that the raw key could be validated by is revoked. -/
structure Dead (H : Hashing) (raw : String) (store : ApiKeyStore) : Prop where
  rows : ∀ r ∈ store.table.rows,
    r.keyFingerprint = some (hashWithHmac H raw) ∨ verifyApiKeyHash H raw r.keyHash = true →
      r.revokedAt.isSome = true
  keys : ∀ k ∈ store.keys, verifyApiKeyHash H raw k.keyHash = true → k.revokedAt.isSome = true

theorem verify_sha256 (hH : H.Lawful) (raw : String) : verifyApiKeyHash H raw (H.sha256 raw) = true := by
  simp [verifyApiKeyHash, hH.sha256_plain]

theorem acceptRow_revoked {row : ApiKeyRow} (h : row.revokedAt.isSome = true) (fault : Bool) (raw : String)
    (now : Nat) (store : ApiKeyStore) : acceptRow H fault raw now store row = (none, store) := by
  simp [acceptRow, h]

theorem validateKey_dead (hH : H.Lawful) {raw : String} {store : ApiKeyStore} (hd : Dead H raw store)
    (faults : ValidateFaults) (now : Nat) : (validateKey H faults raw now store).1 = none := by
  have hmem : (validateInMemory H raw now store).1 = none := by
    have hf : store.keys.find? (fun key => key.isValid now && verifyApiKeyHash H raw key.keyHash) = none := by
      rw [List.find?_eq_none]
      intro k hk hv
      rw [Bool.and_eq_true] at hv
      have hr := hd.keys k hk hv.2
      simp [ApiKey.isValid, Option.isSome_iff_ne_none.mp hr] at hv
    simp [validateInMemory, hf]
  unfold validateKey
  split
  · rename_i row hf
    split at hf
    · cases hf
    · obtain ⟨hr, hp⟩ := find_some hf
      rw [acceptRow_revoked (hd.rows row hr (.inl (beq_iff_eq.mp hp)))]
  · split
    · rename_i row hf
      split at hf
      · cases hf
      · obtain ⟨hr, hp⟩ := find_some hf
        have hv : verifyApiKeyHash H raw row.keyHash = true := by
          rw [beq_iff_eq.mp hp]
          exact verify_sha256 hH raw
        rw [acceptRow_revoked (hd.rows row hr (.inr hv))]
    · exact hmem

theorem known_of_verify {past : List (Op × Reply)} {id keyHash : String} {fingerprint : Option String}
    (hk : Known H past id keyHash fingerprint) {raw : String} (hv : verifyApiKeyHash H raw keyHash = true) :
    fingerprint = some (hashWithHmac H raw) ∧
      (raw ∈ bootstrapRaws past ∧ id = "bootstrap" ∨ raw ∈ createdRaws past ∧ id ≠ "bootstrap") := by
  obtain ⟨raw', ho, hf, hr⟩ := hk
  obtain rfl := (ho raw).mp hv
  exact ⟨hf, hr⟩

theorem verify_of_fingerprint (hH : H.Lawful) {past : List (Op × Reply)} {id keyHash : String}
    {fingerprint : Option String} (hk : Known H past id keyHash fingerprint) {raw : String}
    (hf : fingerprint = some (hashWithHmac H raw)) : verifyApiKeyHash H raw keyHash = true := by
  obtain ⟨raw', ho, hf', -⟩ := hk
  obtain rfl : raw' = raw := hH.hmac_inj (Option.some.inj (hf'.symm.trans hf))
  exact (ho raw').mpr rfl

section Rotation

variable {past : List (Op × Reply)} {store : ApiKeyStore} {raw : String}

theorem bootstrap_row (hH : H.Lawful) (hs : Sound H past store) (hp : raw ∈ bootstrapRaws past)
    {r : ApiKeyRow} (hr : r ∈ store.table.rows)
    (h : r.keyFingerprint = some (hashWithHmac H raw) ∨ verifyApiKeyHash H raw r.keyHash = true) :
    r.id = "bootstrap" ∧ r.keyFingerprint = some (hashWithHmac H raw) := by
  have hk := hs.known.rows r hr
  obtain ⟨hf, ho⟩ := known_of_verify hk (h.elim (verify_of_fingerprint hH hk) id)
  exact ⟨(ho.resolve_right (fun hc => hs.apart raw hp hc.1)).2, hf⟩

theorem bootstrap_key (hs : Sound H past store) (hp : raw ∈ bootstrapRaws past) {k : ApiKey}
    (hk : k ∈ store.keys) (hv : verifyApiKeyHash H raw k.keyHash = true) : k.id = "bootstrap" := by
  obtain ⟨fingerprint, hq⟩ := hs.known.keys k hk
  exact ((known_of_verify hq hv).2.resolve_right (fun hc => hs.apart raw hp hc.1)).2

theorem revokeBootstrapKeys_mem {now : Nat} {k : ApiKey} (hk : k ∈ revokeBootstrapKeys now store.keys) :
    ∃ k₀ ∈ store.keys, k.keyHash = k₀.keyHash ∧ (k₀.id = "bootstrap" → k.revokedAt.isSome = true) := by
  simp only [revokeBootstrapKeys, List.map_map, List.mem_map, Function.comp_apply] at hk
  obtain ⟨k₀, hk₀, rfl⟩ := hk
  refine ⟨k₀, hk₀, ?_⟩
  by_cases hh : k₀.keyHash = "bootstrap" <;> by_cases hi : k₀.id = "bootstrap" <;>
    cases hr : k₀.revokedAt <;> simp [hh, hi, hr]

theorem dead_after_revocation (hH : H.Lawful) (hs : Sound H past store) (hp : raw ∈ bootstrapRaws past)
    (now : Nat) (fault : Bool)
    (hrow : fault = true → ∀ r ∈ store.table.rows, r.keyFingerprint ≠ some (hashWithHmac H raw)) :
    Dead H raw ⟨if fault then store.table else revokeRows (fun r => r.id == "bootstrap") now store.table,
      revokeBootstrapKeys now store.keys⟩ where
  rows := by
    intro r hr h
    cases fault with
    | true => exact absurd (bootstrap_row hH hs hp hr h).2 (hrow rfl r hr)
    | false =>
        simp only [Bool.false_eq_true, if_false, revokeRows, rows_update, List.mem_map] at hr
        obtain ⟨r₀, hr₀, rfl⟩ := hr
        have hid : r₀.id = "bootstrap" := by
          apply (bootstrap_row hH hs hp hr₀ _).1
          split at h <;> exact h
        cases hrev : r₀.revokedAt <;> simp [hid, hrev]
  keys := by
    intro k hk hv
    obtain ⟨k₀, hk₀, hh, hrev⟩ := revokeBootstrapKeys_mem hk
    exact hrev (bootstrap_key hs hp hk₀ (hh ▸ hv))

theorem verify_fresh (hs : Sound H past store) (hb : raw ∉ bootstrapRaws past) (hc : raw ∉ createdRaws past)
    {r : ApiKeyRow} (hr : r ∈ store.table.rows) : verifyApiKeyHash H raw r.keyHash ≠ true := by
  intro hv
  rcases (known_of_verify (hs.known.rows r hr) hv).2 with h | h
  · exact hb h.1
  · exact hc h.1

theorem bootstrapRow_clash (hH : H.Lawful) (hs : Sound H past store) (hb : raw ∉ bootstrapRaws past)
    (hc : raw ∉ createdRaws past) (ttl : Nat) (gen : KeyGen) {r : ApiKeyRow} (hr : r ∈ store.table.rows) :
    r.clash (bootstrapRow H ttl gen raw) ↔ r.id = "bootstrap" := by
  have hv := verify_fresh hs hb hc hr
  have hhash : r.keyHash ≠ (bootstrapRow H ttl gen raw).keyHash := by
    intro he
    apply hv
    rw [he]
    exact (opens_createKeyFromRaw hH gen raw none (some "bootstrap") ["admin"] (some (gen.now + ttl)) raw).mpr rfl
  have hfp : r.keyFingerprint ≠ some (hashWithHmac H raw) :=
    fun he => hv (verify_of_fingerprint hH (hs.known.rows r hr) he)
  constructor
  · rintro (hid | hh | hf)
    · exact hid
    · exact absurd hh hhash
    · exact absurd hf.2 hfp
  · exact .inl

theorem upsert_fresh (hH : H.Lawful) (hs : Sound H past store) (hb : raw ∉ bootstrapRaws past)
    (hc : raw ∉ createdRaws past) (ttl : Nat) (gen : KeyGen) (fault : Option String) :
    (fault = none ∧ (∀ r ∈ store.table.rows, r.id ≠ "bootstrap") ∧
        ∃ table', upsertBootstrapApiKey fault store.table (bootstrapRow H ttl gen raw) = .ok table' ∧
          table'.rows = store.table.rows ++ [bootstrapRow H ttl gen raw]) ∨
      (¬ (fault = none ∧ ∀ r ∈ store.table.rows, r.id ≠ "bootstrap") ∧
        ∃ e, upsertBootstrapApiKey fault store.table (bootstrapRow H ttl gen raw) = .error e) := by
  cases fault with
  | some text => exact .inr ⟨by simp, _, rfl⟩
  | none =>
      have hany : store.table.rows.any (fun r => r.keyFingerprint.isSome &&
          r.keyFingerprint == (bootstrapRow H ttl gen raw).keyFingerprint) = false := by
        rw [List.any_eq_false]
        intro r hr hf
        simp only [Bool.and_eq_true, beq_iff_eq] at hf
        exact verify_fresh hs hb hc hr (verify_of_fingerprint hH (hs.known.rows r hr) hf.2)
      unfold upsertBootstrapApiKey
      rw [statement_none, hany]
      by_cases hid : ∀ r ∈ store.table.rows, r.id ≠ "bootstrap"
      · obtain ⟨table', ht, hrows⟩ := insert_isSome store.table (bootstrapRow H ttl gen raw)
          (fun r hr hcl => hid r hr ((bootstrapRow_clash hH hs hb hc ttl gen hr).mp hcl))
        refine .inl ⟨rfl, hid, table', ?_, hrows⟩
        rw [if_neg Bool.false_ne_true]
        split
        · rename_i inserted hi
          exact congrArg _ (Option.some.inj (hi.symm.trans ht))
        · rename_i hi
          exact absurd (hi.symm.trans ht) nofun
      · refine .inr ⟨fun h => hid h.2, uniqueViolation "api_keys.id", ?_⟩
        obtain ⟨r, hr, hrid⟩ : ∃ r ∈ store.table.rows, r.id = "bootstrap" := by
          simpa only [not_forall, not_not, exists_prop] using hid
        have hn : store.table.insert (bootstrapRow H ttl gen raw) = none :=
          (insert_eq_none_iff _ _).mpr ⟨r, hr, (bootstrapRow_clash hH hs hb hc ttl gen hr).mpr hrid⟩
        rw [if_neg Bool.false_ne_true]
        split
        · rename_i inserted hi
          exact absurd (hi.symm.trans hn) nofun
        · rfl

theorem rotate_fresh (hH : H.Lawful) (hs : Sound H past store) (hb : raw ∉ bootstrapRaws past)
    (hc : raw ∉ createdRaws past) (ttl : Nat) (gen : KeyGen) (faults : RotateFaults) :
    (faults.upsert = none ∧ (∀ r ∈ store.table.rows, r.id ≠ "bootstrap") ∧
        ∃ table', table'.rows = store.table.rows ++ [bootstrapRow H ttl gen raw] ∧
          rotateBootstrapKey H ttl gen raw faults store = (.ok raw,
            ⟨table', insertKey (revokeBootstrapKeys gen.now store.keys) (bootstrapKey H ttl gen raw)⟩)) ∨
      (¬ (faults.upsert = none ∧ ∀ r ∈ store.table.rows, r.id ≠ "bootstrap") ∧
        ∃ text, rotateBootstrapKey H ttl gen raw faults store = (.error text,
          ⟨if faults.revoke then store.table
            else revokeRows (fun r => r.id == "bootstrap") gen.now store.table,
            revokeBootstrapKeys gen.now store.keys⟩)) := by
  have hsound : Sound H past ⟨if faults.revoke then store.table
      else revokeRows (fun r => r.id == "bootstrap") gen.now store.table,
      revokeBootstrapKeys gen.now store.keys⟩ :=
    ⟨holds_revokeBootstrap hs.known gen.now faults.revoke, hs.apart⟩
  have hids : (∀ r ∈ (if faults.revoke then store.table
      else revokeRows (fun r => r.id == "bootstrap") gen.now store.table).rows, r.id ≠ "bootstrap") ↔
      ∀ r ∈ store.table.rows, r.id ≠ "bootstrap" := by
    cases faults.revoke with
    | true => rfl
    | false =>
        simp only [Bool.false_eq_true, if_false, revokeRows, rows_update, List.mem_map, forall_exists_index,
          and_imp, forall_apply_eq_imp_iff₂]
        refine forall₂_congr (fun r _ => ?_)
        split <;> rfl
  rcases upsert_fresh hH hsound hb hc ttl gen faults.upsert with ⟨hf, hid, table', hu, hrows⟩ | ⟨hn, e, hu⟩
  · rw [hids] at hid
    refine .inl ⟨hf, hid, table', ?_, by simp only [rotateBootstrapKey, hu]⟩
    rw [hrows]
    congr 1
    cases faults.revoke with
    | true => rfl
    | false =>
        have hsame : ∀ r ∈ store.table.rows, (if (r.id == "bootstrap" && r.revokedAt.isNone) = true then
            { r with revokedAt := some gen.now } else r) = r := by
          intro r hr
          simp [hid r hr]
        simpa [revokeRows] using List.map_congr_left hsame
  · rw [hids] at hn
    exact .inr ⟨hn, _, by simp only [rotateBootstrapKey, hu]; rfl⟩

theorem validateKey_bootstrapRow (hH : H.Lawful) {ttl : Nat} {gen : KeyGen} {store' : ApiKeyStore}
    (hr : bootstrapRow H ttl gen raw ∈ store'.table.rows) {now : Nat} (hnow : now < gen.now + ttl) :
    (validateKey H {} raw now store').1 =
      some { bootstrapKey H ttl gen raw with lastUsedAt := some now } := by
  have hfind : store'.table.find (fun r => r.keyFingerprint == some (hashWithHmac H raw)) =
      some (bootstrapRow H ttl gen raw) := by
    refine (find_eq_some_iff _ (fun a b ha hb => ?_)).mpr ⟨hr, by simp [bootstrapRow]⟩
    rw [beq_iff_eq] at ha hb
    exact .inr (.inr ⟨by simp [ha], ha.trans hb.symm⟩)
  have hv : verifyApiKeyHash H raw (bootstrapRow H ttl gen raw).keyHash = true :=
    (opens_createKeyFromRaw hH gen raw none (some "bootstrap") ["admin"] (some (gen.now + ttl)) raw).mpr rfl
  have hvalid : (bootstrapRow H ttl gen raw).toApiKey.isValid now = true := by
    simpa [bootstrapRow, bootstrapKey, createKeyFromRaw, ApiKey.isValid] using hnow
  have hrev : (bootstrapRow H ttl gen raw).revokedAt.isSome = false := rfl
  simp only [validateKey, Bool.false_eq_true, if_false, hfind, acceptRow, hrev, hv, hvalid, Bool.not_true]
  rfl

theorem validateKey_congr {keys keys' : List ApiKey} {table : ApiKeys} {r : ApiKeyRow}
    (hr : r ∈ table.rows) (hf : r.keyFingerprint = some (hashWithHmac H raw)) (now : Nat) :
    (validateKey H {} raw now ⟨table, keys⟩).1 = (validateKey H {} raw now ⟨table, keys'⟩).1 := by
  have hfind : table.find (fun r => r.keyFingerprint == some (hashWithHmac H raw)) = some r := by
    refine (find_eq_some_iff _ (fun a b ha hb => ?_)).mpr ⟨hr, by simp [hf]⟩
    rw [beq_iff_eq] at ha hb
    exact .inr (.inr ⟨by simp [ha], ha.trans hb.symm⟩)
  simp only [validateKey, Bool.false_eq_true, if_false, hfind, acceptRow]
  split
  · rfl
  split
  · rfl
  split <;> rfl

end Rotation

/-- Success installs the new key and ends the previous one; failure leaves the
previous one as it was. -/
def RotationAtomic (H : Hashing) (ttl : Nat) (gen : KeyGen) (raw : String) (faults : RotateFaults)
    (prev : String) (now : Nat) (store : ApiKeyStore) : Prop :=
  match rotateBootstrapKey H ttl gen raw faults store with
  | (.ok new, store') =>
      (∃ key, (validateKey H {} new now store').1 = some key ∧ key.projectId = none ∧
        key.hasScope "admin" = true) ∧ (validateKey H {} prev now store').1 = none
  | (.error _, store') => (validateKey H {} prev now store').1 = (validateKey H {} prev now store).1

theorem rotationAtomic_of_sound (hH : H.Lawful) {past : List (Op × Reply)} {store : ApiKeyStore}
    (hs : Sound H past store) {prev raw : String} (hp : prev ∈ bootstrapRaws past)
    (hb : raw ∉ bootstrapRaws past) (hc : raw ∉ createdRaws past) {ttl : Nat} {gen : KeyGen}
    (faults : RotateFaults) {now : Nat} (hnow : now < gen.now + ttl) :
    RotationAtomic H ttl gen raw faults prev now store ↔
      (faults.upsert = none ∧ ∀ r ∈ store.table.rows, r.id ≠ "bootstrap") ∨
      (validateKey H {} prev now store).1 = none ∨
      (faults.revoke = true ∧
        ∃ r ∈ store.table.rows, r.keyFingerprint = some (hashWithHmac H prev)) := by
  unfold RotationAtomic
  rcases rotate_fresh hH hs hb hc ttl gen faults with ⟨hu, hid, table', hrows, hrot⟩ | ⟨hn, text, hrot⟩
  · rw [hrot]
    refine iff_of_true ⟨⟨_, validateKey_bootstrapRow hH (by simp [hrows]) hnow, rfl, rfl⟩, ?_⟩
      (.inl ⟨hu, hid⟩)
    have hopen := opens_createKeyFromRaw hH gen raw none (some "bootstrap") ["admin"] (some (gen.now + ttl))
    have hne : prev ≠ raw := fun he => hb (he ▸ hp)
    have hd := dead_after_revocation hH hs hp gen.now true
      (fun _ r hr hf => hid r hr (bootstrap_row hH hs hp hr (.inl hf)).1)
    refine validateKey_dead hH ⟨?_, ?_⟩ {} now
    · intro r hr h
      rw [hrows, List.mem_append, List.mem_singleton] at hr
      rcases hr with hr | rfl
      · exact hd.rows r hr h
      · rcases h with h | h
        · exact absurd (hH.hmac_inj (Option.some.inj h)).symm hne
        · exact absurd ((hopen prev).mp h) hne
    · intro k hk hv
      rcases mem_insertKey hk with rfl | hk
      · exact absurd ((hopen prev).mp hv) hne
      · exact hd.keys k hk hv
  · rw [hrot]
    dsimp only
    by_cases hrow : faults.revoke = true ∧
        ∃ r ∈ store.table.rows, r.keyFingerprint = some (hashWithHmac H prev)
    · obtain ⟨hr, r, hm, hf⟩ := hrow
      refine iff_of_true ?_ (.inr (.inr ⟨hr, r, hm, hf⟩))
      simp only [hr, if_true]
      exact validateKey_congr hm hf now
    · have hd := dead_after_revocation hH hs hp gen.now faults.revoke
        (fun hf r hr he => hrow ⟨hf, r, hr, he⟩)
      rw [validateKey_dead hH hd {} now]
      constructor
      · exact fun h => .inr (.inl h.symm)
      · rintro (h | h | h)
        · exact absurd h hn
        · exact h.symm
        · exact absurd h hrow

def loaded : Op × Reply → Option String
  | (.start env gen fault, _) => Op.bootstrapRaw (.start env gen fault)
  | (.rotate raw _ _, .rotated (.ok _)) => some raw
  | _ => none

def previousBootstrapKey (past : List (Op × Reply)) : Option String := (past.filterMap loaded).getLast?

theorem previousBootstrapKey_mem {past : List (Op × Reply)} {prev : String}
    (h : previousBootstrapKey past = some prev) : prev ∈ bootstrapRaws past := by
  obtain ⟨⟨op, reply⟩, hm, hl⟩ := List.mem_filterMap.mp (List.mem_of_getLast? h)
  refine List.mem_filterMap.mpr ⟨_, hm, ?_⟩
  unfold loaded at hl
  split at hl
  · rename_i heq
    cases heq
    exact hl
  · rename_i heq
    cases heq
    exact hl
  · cases hl

/-- In every reachable state a rotation is atomic exactly when no row has the
fixed id and the insertion goes through, or the previous key was dead already,
or revoking its row failed. -/
theorem rotationAtomic_iff (hH : H.Lawful) {ttl : Nat} (ops : List Op)
    (hg : Guarded (step H ttl) DistinctKeys [] empty ops) {prev : String}
    (hprev : previousBootstrapKey (history (step H ttl) empty ops) = some prev) {raw : String} {gen : KeyGen}
    {faults : RotateFaults} {now : Nat}
    (hraw : DistinctKeys (history (step H ttl) empty ops) (after (step H ttl) empty ops)
      (.rotate raw gen faults))
    (hnow : now < gen.now + ttl) :
    RotationAtomic H ttl gen raw faults prev now (after (step H ttl) empty ops) ↔
      (faults.upsert = none ∧ ∀ r ∈ (after (step H ttl) empty ops).table.rows, r.id ≠ "bootstrap") ∨
      (validateKey H {} prev now (after (step H ttl) empty ops)).1 = none ∨
      (faults.revoke = true ∧ ∃ r ∈ (after (step H ttl) empty ops).table.rows,
        r.keyFingerprint = some (hashWithHmac H prev)) :=
  rotationAtomic_of_sound hH (sound_run hH ttl ops hg) (previousBootstrapKey_mem hprev) hraw.1 hraw.2
    faults hnow

theorem rotationAtomic_without_row :
    RotationAtomic plainHashing 3600 ⟨"r", "s", 5⟩ "k1" {} "k0" 10
      (after (step plainHashing 3600) empty [.start (some "k0") ⟨"b", "s", 1⟩ (some "disk I/O error")]) :=
  (rotationAtomic_iff plainHashing_lawful [.start (some "k0") ⟨"b", "s", 1⟩ (some "disk I/O error")]
    (by simp [Guarded, DistinctKeys, createdRaws]) (by rfl) ⟨by decide, by decide⟩ (by decide)).mpr
    (.inl (by decide))

/-- After an ordinary start the insertion meets the old row's id: the rotation
fails and the previous key is dead. -/
theorem rotation_kills_previous_key :
    ¬ RotationAtomic plainHashing 3600 ⟨"r", "s", 5⟩ "k1" {} "k0" 10
      (after (step plainHashing 3600) empty [.start (some "k0") ⟨"b", "s", 1⟩ none]) := by
  change ¬ (validateKey plainHashing {} "k0" 10
      (rotateBootstrapKey plainHashing 3600 ⟨"r", "s", 5⟩ "k1" {}
        (after (step plainHashing 3600) empty [.start (some "k0") ⟨"b", "s", 1⟩ none])).2).1 =
    (validateKey plainHashing {} "k0" 10
      (after (step plainHashing 3600) empty [.start (some "k0") ⟨"b", "s", 1⟩ none])).1
  decide

end MLRunX.KeyRotation
