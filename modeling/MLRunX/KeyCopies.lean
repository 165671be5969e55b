import MLRunX.KeyStore

namespace MLRunX.KeyCopies

open Auth KeyStore Sqlite Tables

variable {H : Hashing}

/-- The same key at a later time, when it may have been used or revoked. -/
structure Ages (r r' : ApiKeyRow) : Prop where
  id : r'.id = r.id
  keyHash : r'.keyHash = r.keyHash
  keyFingerprint : r'.keyFingerprint = r.keyFingerprint
  projectId : r'.projectId = r.projectId
  scopes : r'.scopes = r.scopes
  expiresAt : r'.expiresAt = r.expiresAt
  revokedAt : r'.revokedAt = none → r.revokedAt = none

theorem ages_refl (r : ApiKeyRow) : Ages r r := ⟨rfl, rfl, rfl, rfl, rfl, rfl, id⟩

theorem ages_trans {a b c : ApiKeyRow} (h : Ages a b) (h' : Ages b c) : Ages a c :=
  ⟨h'.id.trans h.id, h'.keyHash.trans h.keyHash, h'.keyFingerprint.trans h.keyFingerprint,
    h'.projectId.trans h.projectId,
    h'.scopes.trans h.scopes, h'.expiresAt.trans h.expiresAt, fun hnone => h.revokedAt (h'.revokedAt hnone)⟩

theorem ages_used (r : ApiKeyRow) (now : Nat) : Ages r { r with lastUsedAt := some now } :=
  ⟨rfl, rfl, rfl, rfl, rfl, rfl, id⟩

theorem ages_revoked (r : ApiKeyRow) (now : Nat) : Ages r { r with revokedAt := some now } :=
  ⟨rfl, rfl, rfl, rfl, rfl, rfl, nofun⟩

/-- A key that is valid at some time. -/
def Live (key : ApiKey) : Prop := ∃ now, key.isValid now = true

theorem Ages.live {r r' : ApiKeyRow} (h : Ages r r') (hlive : Live r'.toApiKey) : Live r.toApiKey := by
  obtain ⟨now, hvalid⟩ := hlive
  simp only [ApiKey.isValid, Bool.and_eq_true, Option.isNone_iff_eq_none, h.expiresAt] at hvalid
  refine ⟨now, ?_⟩
  simp only [ApiKey.isValid, Bool.and_eq_true, Option.isNone_iff_eq_none]
  exact ⟨h.revokedAt hvalid.1, hvalid.2⟩

theorem not_live {key : ApiKey} {now : Nat} (h : key.revokedAt = some now) : ¬ Live key := by
  rintro ⟨_, hvalid⟩
  simp [ApiKey.isValid, h] at hvalid

/-- Every copy of a key, in the table and in memory, satisfies `Q`. -/
structure Copies (Q : ApiKeyRow → Prop) (store : ApiKeyStore) : Prop where
  rows : ∀ r ∈ store.table.rows, Q r
  keys : ∀ k ∈ store.keys, ∃ fingerprint, Q ⟨k, fingerprint⟩

theorem mem_insertKey {keys : List ApiKey} {key k : ApiKey} (h : k ∈ insertKey keys key) : k = key ∨
    k ∈ keys := by
  rcases List.mem_cons.mp h with rfl | h
  · exact .inl rfl
  · exact .inr (List.mem_filter.mp h).1

theorem insertApiKey_rows {fault : Option String} {table table' : ApiKeys} {row : ApiKeyRow}
    (h : insertApiKey fault table row = .ok table') {r : ApiKeyRow} (hr : r ∈ table'.rows) :
    r ∈ table.rows ∨ r = row := by
  obtain ⟨-, h⟩ := statement_eq_ok.mp h
  split at h
  · rename_i hi
    obtain rfl := Except.ok.inj h
    rw [(insert_eq_some hi).1, List.mem_append, List.mem_singleton] at hr
    exact hr
  · cases h

theorem rows_toOption_getD {table : ApiKeys} {result : Sql ApiKeys} {r : ApiKeyRow}
    (hr : r ∈ (result.toOption.getD table).rows) :
    r ∈ table.rows ∨ ∃ table', result = .ok table' ∧ r ∈ table'.rows := by
  cases result with
  | error e => exact .inl hr
  | ok table' => exact .inr ⟨table', rfl, hr⟩

section Steps

variable {Q Q' : ApiKeyRow → Prop} {store : ApiKeyStore}

theorem Copies.mono (h : Copies Q store) (hQ : ∀ r, Q r → Q' r) : Copies Q' store where
  rows := fun r hr => hQ r (h.rows r hr)
  keys := fun k hk => (h.keys k hk).imp (fun _ => hQ _)

theorem Copies.insertKey (h : Copies Q store) {key : ApiKey} {fingerprint : Option String}
    (hkey : Q ⟨key, fingerprint⟩) :
    Copies Q { store with keys := KeyStore.insertKey store.keys key } where
  rows := h.rows
  keys := by
    intro k hk
    rcases mem_insertKey hk with rfl | hk
    · exact ⟨fingerprint, hkey⟩
    · exact h.keys k hk

theorem Copies.createKeyWithOwner (h : Copies Q store) (projectId name : Option String) (scopes : List String)
    (expiresIn : Option Nat) (owner : Option String) (gen : KeyGen) (raw : String) (fault : Option String)
    (hnew : Q ⟨{ createKeyFromRaw H gen raw projectId name scopes (expiresIn.map (gen.now + ·)) with
      createdByUserId := owner }, some (hashWithHmac H raw)⟩) :
    Copies Q (KeyStore.createKeyWithOwner H projectId name scopes expiresIn owner gen raw fault store).2 := by
  refine ⟨?_, (h.insertKey hnew).keys⟩
  intro r hr
  rcases rows_toOption_getD hr with hr | ⟨table', hinsert, hr⟩
  · exact h.rows r hr
  · rcases insertApiKey_rows hinsert hr with hr | rfl
    · exact h.rows r hr
    · exact hnew

variable (hQ : ∀ r r', Ages r r' → Q r → Q r')

include hQ

theorem Copies.update (h : Copies Q store) {table : ApiKeys} {keys : List ApiKey} {f : ApiKeyRow → ApiKeyRow}
    {g : ApiKey → ApiKey} (htable : table.rows = store.table.rows.map f) (hkeys : keys = store.keys.map g)
    (hf : ∀ r, Ages r (f r)) (hg : ∀ k fingerprint, Ages ⟨k, fingerprint⟩ ⟨g k, fingerprint⟩) :
    Copies Q ⟨table, keys⟩ where
  rows := by
    intro r hr
    rw [htable, List.mem_map] at hr
    obtain ⟨r₀, hr₀, rfl⟩ := hr
    exact hQ r₀ _ (hf r₀) (h.rows r₀ hr₀)
  keys := by
    intro k hk
    rw [hkeys, List.mem_map] at hk
    obtain ⟨k₀, hk₀, rfl⟩ := hk
    obtain ⟨fingerprint, hq⟩ := h.keys k₀ hk₀
    exact ⟨fingerprint, hQ _ _ (hg k₀ fingerprint) hq⟩

theorem Copies.revokeKey (h : Copies Q store) (keyHash : String) (now : Nat) (fault : Bool) :
    Copies Q (KeyStore.revokeKey keyHash now fault store).2 := by
  have hkeys : ∀ (k : ApiKey) fingerprint, Ages ⟨k, fingerprint⟩
      ⟨if k.keyHash == keyHash then { k with revokedAt := some now } else k, fingerprint⟩ := by
    intro k fingerprint
    split
    · exact ages_revoked ⟨k, fingerprint⟩ now
    · exact ages_refl _
  unfold KeyStore.revokeKey
  split
  · refine h.update hQ rfl rfl (fun r => ?_) hkeys
    split
    · exact ages_revoked r now
    · exact ages_refl r
  · exact h.update hQ (f := id) (by simp) rfl ages_refl hkeys

theorem Copies.acceptRow (h : Copies Q store) (fault : Bool) (raw : String) (now : Nat) {row : ApiKeyRow}
    (hrow : row ∈ store.table.rows) : Copies Q (KeyStore.acceptRow H fault raw now store row).2 := by
  unfold KeyStore.acceptRow
  split
  · exact h
  split
  · exact h
  split
  · exact h
  split
  · exact @Copies.insertKey Q store h row.toApiKey row.keyFingerprint (h.rows row hrow)
  · refine Copies.insertKey (h.update hQ (g := id) rfl (by simp) (fun r => ?_) (fun _ _ => ages_refl _))
      (hQ row _ (ages_used row now) (h.rows row hrow))
    split
    · exact ages_used r now
    · exact ages_refl r

theorem Copies.validateKey (h : Copies Q store) (faults : ValidateFaults) (raw : String) (now : Nat) :
    Copies Q (KeyStore.validateKey H faults raw now store).2 := by
  unfold KeyStore.validateKey
  split
  · rename_i row hfind
    split at hfind
    · cases hfind
    · exact h.acceptRow hQ _ _ _ (find_some hfind).1
  · split
    · rename_i row hfind
      split at hfind
      · cases hfind
      · exact h.acceptRow hQ _ _ _ (find_some hfind).1
    · unfold validateInMemory
      split
      · refine h.update hQ (f := id) (by simp) rfl ages_refl (fun k fingerprint => ?_)
        split
        · exact ages_used ⟨k, fingerprint⟩ now
        · exact ages_refl _
      · exact h

omit hQ in
theorem acceptRow_ok {fault : Bool} {raw : String} {now : Nat} {row : ApiKeyRow} {key : ApiKey}
    (h : (KeyStore.acceptRow H fault raw now store row).1 = some key) :
    Ages row ⟨key, row.keyFingerprint⟩ ∧ key.isValid now = true ∧
      verifyApiKeyHash H raw key.keyHash = true := by
  unfold KeyStore.acceptRow at h
  split at h
  · cases h
  split at h
  · cases h
  rename_i hverify
  rw [Bool.not_eq_true', Bool.not_eq_false] at hverify
  split at h
  · cases h
  rename_i hvalid
  rw [Bool.not_eq_true', Bool.not_eq_false] at hvalid
  split at h
  · obtain rfl := Option.some.inj h
    exact ⟨ages_refl row, hvalid, hverify⟩
  · obtain rfl := Option.some.inj h
    exact ⟨ages_used row now, hvalid, hverify⟩

/-- What a validation returns is a copy of a key, valid and opened by the raw key. -/
theorem Copies.validated (h : Copies Q store) {faults : ValidateFaults} {raw : String} {now : Nat} {key : ApiKey}
    (hanswer : (KeyStore.validateKey H faults raw now store).1 = some key) :
    (∃ fingerprint, Q ⟨key, fingerprint⟩) ∧ key.isValid now = true ∧
      verifyApiKeyHash H raw key.keyHash = true := by
  have hrow : ∀ {row : ApiKeyRow}, row ∈ store.table.rows →
      (KeyStore.acceptRow H faults.touch raw now store row).1 = some key →
        (∃ fingerprint, Q ⟨key, fingerprint⟩) ∧ key.isValid now = true ∧
          verifyApiKeyHash H raw key.keyHash = true := by
    intro row hmem haccept
    obtain ⟨hages, hopened⟩ := acceptRow_ok haccept
    exact ⟨⟨_, hQ row _ hages (h.rows row hmem)⟩, hopened⟩
  unfold KeyStore.validateKey at hanswer
  split at hanswer
  · rename_i row hfind
    split at hfind
    · cases hfind
    · exact hrow (find_some hfind).1 hanswer
  · split at hanswer
    · rename_i row hfind
      split at hfind
      · cases hfind
      · exact hrow (find_some hfind).1 hanswer
    · unfold validateInMemory at hanswer
      split at hanswer
      · rename_i found hfind
        obtain rfl := Option.some.inj hanswer
        obtain ⟨fingerprint, hq⟩ := h.keys found (List.mem_of_find?_eq_some hfind)
        have hopened := List.find?_some hfind
        rw [Bool.and_eq_true] at hopened
        exact ⟨⟨fingerprint, hQ _ _ (ages_used ⟨found, fingerprint⟩ now) hq⟩, hopened⟩
      · cases hanswer

end Steps

theorem acceptRow_valid {fault : Bool} {raw : String} {now : Nat} {store : ApiKeyStore} {c : ApiKeyRow}
    (hverify : verifyApiKeyHash H raw c.keyHash = true) (hvalid : c.isValid now = true) :
    ∃ key, (acceptRow H fault raw now store c).1 = some key ∧ Ages c ⟨key, c.keyFingerprint⟩ := by
  have hrevoked : c.revokedAt = none := by
    rw [ApiKey.isValid, Bool.and_eq_true, Option.isNone_iff_eq_none] at hvalid
    exact hvalid.1
  cases fault with
  | true => exact ⟨c.toApiKey, by simp [acceptRow, hrevoked, hverify, hvalid], ages_refl c⟩
  | false =>
      exact ⟨{ c.toApiKey with lastUsedAt := some now }, by simp [acceptRow, hrevoked, hverify, hvalid],
        ages_used c now⟩

theorem validateKey_fingerprint {faults : ValidateFaults} {raw : String} {now : Nat} {store : ApiKeyStore}
    {c : ApiKeyRow}
    (hread : faults.byFingerprint = false) (hc : c ∈ store.table.rows)
    (hfingerprint : c.keyFingerprint = some (hashWithHmac H raw)) :
    validateKey H faults raw now store = acceptRow H faults.touch raw now store c := by
  have hfind : store.table.find (fun r => r.keyFingerprint == some (hashWithHmac H raw)) = some c := by
    refine (find_eq_some_iff _ (fun a b ha hb => ?_)).mpr ⟨hc, beq_iff_eq.mpr hfingerprint⟩
    have ha := beq_iff_eq.mp ha
    exact .inr (.inr ⟨by rw [ha]; rfl, ha.trans (beq_iff_eq.mp hb).symm⟩)
  simp [validateKey, hread, hfind]

theorem dead_revokeKey (store : ApiKeyStore) (keyHash : String) (now : Nat) (fault : Bool)
    (h : fault = true → ∀ r ∈ store.table.rows, r.keyHash = keyHash → ¬ Live r.toApiKey) :
    Copies (fun r => r.keyHash = keyHash → ¬ Live r.toApiKey) (revokeKey keyHash now fault store).2 := by
  have hkeys : ∀ k ∈ store.keys.map (fun k => if k.keyHash == keyHash then { k with revokedAt := some now } else k),
      ∃ fingerprint, (ApiKeyRow.mk k fingerprint).keyHash = keyHash → ¬ Live k := by
    intro k hk
    obtain ⟨k₀, -, rfl⟩ := List.mem_map.mp hk
    refine ⟨none, fun hhash => ?_⟩
    by_cases hsame : k₀.keyHash = keyHash
    · rw [if_pos (beq_iff_eq.mpr hsame)]
      exact not_live rfl
    · rw [if_neg (fun hb => hsame (beq_iff_eq.mp hb))] at hhash
      exact absurd hhash hsame
  unfold revokeKey
  split
  · refine ⟨?_, hkeys⟩
    intro r hr hhash
    obtain ⟨r₀, -, rfl⟩ := List.mem_map.mp hr
    by_cases hopen : (r₀.keyHash == keyHash && r₀.revokedAt.isNone) = true
    · rw [if_pos hopen]
      exact not_live rfl
    · rw [if_neg hopen] at hhash ⊢
      rw [hhash, beq_self_eq_true, Bool.true_and, Option.isNone_iff_eq_none] at hopen
      obtain ⟨revoked, hrevoked⟩ := Option.ne_none_iff_exists'.mp hopen
      exact not_live hrevoked
  · rename_i hnone
    refine ⟨?_, hkeys⟩
    intro r hr hhash
    cases fault with
    | true => exact h rfl r hr hhash
    | false =>
        simp only [Bool.not_false, Bool.true_and, List.any_eq_true, Bool.and_eq_true, beq_iff_eq,
          not_exists, not_and, Option.isNone_iff_eq_none] at hnone
        obtain ⟨revoked, hrevoked⟩ := Option.ne_none_iff_exists'.mp (hnone r hr hhash)
        exact not_live hrevoked

end MLRunX.KeyCopies
