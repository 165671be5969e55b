import MLRunX.KeyRevocation

namespace MLRunX.KeyDurability

open Auth Http KeyCopies KeyRevocation KeyServer Runs Sqlite Tables UiTables
open KeyCreation hiding httpCreateKey
open KeyRotation (opens_createKeyFromRaw)
open KeyStore hiding Op Reply step revokeKey

variable (H : Hashing) (flags : EndpointRbacTier → Bool)

/-- An INSERT that is refused is only logged: the key is kept in memory and answered all the same. -/
def httpCreateKey (settings : Settings) (auth : AuthContext) (req : CreateKeyRequest) (gen : KeyGen) (rawKey : String)
    (fault : Option String) (s : Server) : Answer (String × ApiKey) × Server :=
  match keyTarget settings auth req with
  | .error e => (.error e, s)
  | .ok (scopes, target) =>
      let r := createKeyWithOwner H target.projectId target.name scopes target.expiresInSeconds target.ownerUserId gen
        rawKey (ownedFault s.sqlite target.projectId target.ownerUserId fault) s.store
      (.ok r.1, s.setStore r.2)

/-- What happens to the keys of a server and to the rows that they refer to. -/
inductive Event
  | call (op : Op)
  | create (settings : Settings) (auth : AuthContext) (req : CreateKeyRequest) (gen : KeyGen) (rawKey : String)
      (fault : Option String)
  | provision (ui : UiStore)
  | restart

def live : Machine Server Event (Option Reply)
  | s, .call op =>
      let r := step H flags s op
      (some r.1, r.2)
  | s, .create settings auth req gen rawKey fault =>
      let r := httpCreateKey H settings auth req gen rawKey fault s
      (r.1.toOption.map (fun a => .created a.1 a.2), r.2)
  | s, .provision ui => (none, { s with sqlite := { s.sqlite with ui } })
  | s, .restart => (none, restart s)

def Event.op : Event → Option Op
  | .call op => some op
  | .create settings auth req gen rawKey fault => match keyTarget settings auth req with
      | .error _ => none
      | .ok (scopes, target) =>
          some (.create rawKey target.projectId target.name scopes target.expiresInSeconds target.ownerUserId gen fault)
  | .provision _ => none
  | .restart => none

def record (past : List (Event × Option Reply)) : List (Op × Reply) :=
  past.filterMap (fun e => e.1.op.bind (fun op => e.2.map (fun reply => (op, reply))))

def EventFresh (start : Server) (past : List (Event × Option Reply)) (s : Server) (e : Event) : Prop :=
  ∀ op, e.op = some op → Fresh H start (record past) s op

def Spares (key : ApiKey) : Event → Prop
  | .call (.revoke keyHash _ _) => keyHash ≠ key.keyHash
  | .call (.httpRevoke _ keyId _ _) => keyId ≠ key.id
  | .call (.deleteProject _ projectId) => key.projectId ≠ some projectId
  | _ => True

/-- A run can be stored for the key, and until it expires the raw key opens its project with its scopes. -/
structure Usable (rawKey : String) (key : ApiKey) (s : Server) : Prop where
  row : ∃ r ∈ s.sqlite.apiKeys.rows, r.id = key.id
  validated : ∀ faults now, faults.byFingerprint = false → key.isValid now = true →
    ∃ found, (validateKey H faults rawKey now s.store).1 = some found ∧ found.id = key.id ∧
      found.projectId = key.projectId ∧ found.scopes = key.scopes

def Durable (start : Server) (past : List (Event × Option Reply)) (s : Server) (rawKey : String)
    (key : ApiKey) : Prop :=
  ∀ later, Guarded (live H flags) (fun past s e => EventFresh H start past s e ∧ Spares key e) past s later →
    Usable H rawKey key (after (live H flags) s later)

/-- The row has its project and its owner, and the INSERT does not fail otherwise. -/
def Insertable (sqlite : Mutators.SqliteStore) (auth : AuthContext) (req : CreateKeyRequest) (fault : Option String) :
    Prop :=
  (∀ p, req.projectId = some p → hasProject sqlite p = true) ∧
    (auth.isUiJwt = true → ∀ u, authUserId auth = some u → hasUser sqlite u = true) ∧ fault = none

variable {H flags} {start : Server} {past : List (Event × Option Reply)} {s : Server} {e : Event} {op : Op}
    {row : ApiKeyRow}

theorem op_create {settings : Settings} {auth : AuthContext} {req : CreateKeyRequest} {gen : KeyGen}
    {rawKey : String}
    {fault : Option String} :
    (∃ e, keyTarget settings auth req = .error e ∧ (Event.create settings auth req gen rawKey fault).op = none) ∨
      ∃ scopes target, keyTarget settings auth req = .ok (scopes, target) ∧
        (Event.create settings auth req gen rawKey fault).op =
          some (.create rawKey target.projectId target.name scopes target.expiresInSeconds target.ownerUserId
            gen fault) := by
  unfold Event.op
  cases htarget : keyTarget settings auth req with
  | error e => exact .inl ⟨e, rfl, by simp only [htarget]⟩
  | ok target => exact .inr ⟨target.1, target.2, rfl, by simp only [htarget]⟩

theorem live_op (h : e.op = some op) : live H flags s e = (some (step H flags s op).1, (step H flags s op).2) := by
  cases e with
  | call op' =>
      obtain rfl := Option.some.inj h
      rfl
  | create settings auth req gen rawKey fault =>
      rcases @op_create settings auth req gen rawKey fault with ⟨e, -, hop⟩ | ⟨scopes, target, htarget, hop⟩
      · rw [hop] at h
        cases h
      · obtain rfl := Option.some.inj (hop.symm.trans h)
        simp only [live, httpCreateKey, htarget]
        rfl
  | provision | restart => cases h

theorem live_none (h : e.op = none) : (live H flags s e).2.sqlite.apiKeys = s.sqlite.apiKeys ∧
    ∀ k ∈ (live H flags s e).2.keys, k ∈ s.keys := by
  cases e with
  | call op => cases h
  | create settings auth req gen rawKey fault =>
      rcases @op_create settings auth req gen rawKey fault with ⟨e, htarget, -⟩ | ⟨scopes, target, -, hop⟩
      · have hlive : (live H flags s (.create settings auth req gen rawKey fault)).2 = s := by
          simp only [live, httpCreateKey, htarget]
        rw [hlive]
        exact ⟨rfl, fun _ hk => hk⟩
      · rw [hop] at h
        cases h
  | provision ui => exact ⟨rfl, fun _ hk => hk⟩
  | restart => exact ⟨rfl, fun _ hk => absurd hk List.not_mem_nil⟩

theorem record_op (h : e.op = some op) (reply : Reply) :
    record (past ++ [(e, some reply)]) = record past ++ [(op, reply)] := by
  simp [record, h]

theorem record_none (h : e.op = none) (out : Option Reply) : record (past ++ [(e, out)]) = record past := by
  simp [record, h]

theorem ledger_live (hH : H.Lawful) (past : List (Event × Option Reply)) (s : Server) (e : Event)
    (h : Ledger H start (record past) s) (hfresh : EventFresh H start past s e) :
    Ledger H start (record (past ++ [(e, (live H flags s e).1)])) (live H flags s e).2 := by
  cases hop : e.op with
  | some op =>
      rw [live_op hop, record_op hop]
      exact ledger_step hH (record past) s op h (hfresh op hop)
  | none =>
      obtain ⟨htable, hkeys⟩ := live_none (H := H) (s := s) hop
      rw [record_none hop]
      refine ⟨⟨?_, fun k hk => h.copies.keys k (hkeys k hk)⟩, h.written, h.apart⟩
      intro r hr
      change r ∈ (live H flags s e).2.sqlite.apiKeys.rows at hr
      rw [htable] at hr
      exact h.copies.rows r hr

theorem fresh_apart (hH : H.Lawful) {past : List (Op × Reply)} (h : Ledger H start past s)
    (hfresh : Fresh H start past s op)
    (hrow : createdRow H op = some row) {c : ApiKeyRow} (hc : c ∈ s.sqlite.apiKeys.rows) :
    c.id ≠ row.id ∧ ¬ c.clash row := by
  obtain ⟨r, hr, hages⟩ := h.copies.rows c hc
  have hapart := created_apart hH hfresh hrow hr
  obtain ⟨raw, hopen, hwritten⟩ := written_created hH hrow
  have hid : c.id ≠ row.id := fun hsame => hapart (.inl (hages.id.symm.trans hsame))
  refine ⟨hid, ?_⟩
  rintro (hsame | hhash | ⟨hsome, hfingerprint⟩)
  · exact hid hsame
  · exact hapart (.inr ⟨raw, by rwa [← hages.keyHash, hhash], hopen⟩)
  · obtain ⟨raw', hopen', hwritten'⟩ := h.written r hr
    rw [hages.keyFingerprint] at hsome hfingerprint
    rcases hwritten' with hwritten' | ⟨hnone, -⟩
    · rcases hwritten with hwritten | ⟨hnone, -⟩
      · rw [hwritten, hwritten'] at hfingerprint
        obtain rfl : raw' = raw := hH.hmac_inj (Option.some.inj hfingerprint)
        exact hapart (.inr ⟨raw', hopen', hopen⟩)
      · rw [← hfingerprint, hwritten'] at hnone
        cases hnone
    · rw [hnone] at hsome
      cases hsome

def Kept (row : ApiKeyRow) (s : Server) : Prop := ∃ c ∈ s.sqlite.apiKeys.rows, Ages row c ∧ c.revokedAt = none

theorem Kept.insert (h : Kept row s) (fault : Option String) (new : ApiKeyRow) {keys : List ApiKey} :
    Kept row (s.setStore ⟨(insertApiKey fault s.sqlite.apiKeys new).toOption.getD s.sqlite.apiKeys, keys⟩) := by
  obtain ⟨c, hc, hkept⟩ := h
  refine ⟨c, ?_, hkept⟩
  change c ∈ ((insertApiKey fault s.sqlite.apiKeys new).toOption.getD s.sqlite.apiKeys).rows
  cases hinsert : insertApiKey fault s.sqlite.apiKeys new with
  | error e => exact hc
  | ok table =>
      obtain ⟨-, hrun⟩ := statement_eq_ok.mp hinsert
      split at hrun
      · rename_i hnew
        obtain rfl := Except.ok.inj hrun
        have hmem := List.mem_append_left [new] hc
        rwa [← (insert_eq_some hnew).1] at hmem
      · cases hrun

theorem Kept.accept (h : Kept row s) (fault : Bool) (raw : String) (now : Nat) (found : ApiKeyRow) :
    Kept row (s.setStore (acceptRow H fault raw now s.store found).2) := by
  unfold acceptRow
  split
  · exact h
  split
  · exact h
  split
  · exact h
  split
  · exact h
  · obtain ⟨c, hc, hages, hrevoked⟩ := h
    refine ⟨_, List.mem_map.mpr ⟨c, hc, rfl⟩, ?_⟩
    split
    · exact ⟨ages_trans hages (ages_used c now), hrevoked⟩
    · exact ⟨hages, hrevoked⟩

theorem Kept.validate (h : Kept row s) (faults : ValidateFaults) (raw : String) (now : Nat) :
    Kept row (s.setStore (validateKey H faults raw now s.store).2) := by
  unfold validateKey
  split
  · exact h.accept _ _ _ _
  · split
    · exact h.accept _ _ _ _
    · unfold validateInMemory
      split
      · exact h
      · exact h

theorem Kept.revoke (h : Kept row s) {keyHash : String} (hother : keyHash ≠ row.keyHash) (now : Nat)
    (fault : Bool) :
    Kept row (s.setStore (KeyStore.revokeKey keyHash now fault s.store).2) := by
  unfold KeyStore.revokeKey
  split
  · obtain ⟨c, hc, hages, hrevoked⟩ := h
    refine ⟨c, List.mem_map.mpr ⟨c, hc, ?_⟩, hages, hrevoked⟩
    have hne : c.keyHash ≠ keyHash := fun hsame => hother (hsame.symm.trans hages.keyHash)
    simp [hne]
  · exact h

theorem kept_step {past : List (Op × Reply)} (hledger : Ledger H start past s)
    (hissued : row ∈ issued H start past)
    (h : Kept row s) (hspares : Spares row.toApiKey (.call op)) : Kept row (step H flags s op).2 := by
  cases op with
  | create rawKey projectId name scopes expiresIn owner gen fault => exact h.insert _ _
  | validate rawKey now faults => exact h.validate faults rawKey now
  | revoke keyHash now fault => exact h.revoke hspares now fault
  | httpRevoke auth keyId now faults =>
      change Kept row (s.setStore (httpRevokeKey flags auth keyId now faults s.store).2)
      rcases @httpRevokeKey_cases flags auth keyId now faults s.store with ⟨e, heq⟩ |
        ⟨keys, key, hkeys, hmem, rfl, heq⟩
      · rw [heq]
        exact h
      · rw [heq]
        refine h.revoke (fun hsame => hspares ?_) now faults.revoke
        exact (hledger.key_id_iff hissued (mem_visibleKeys hkeys hmem)).mpr hsame
  | deleteProject faults projectId =>
      obtain ⟨c, hc, hages, hrevoked⟩ := h
      refine ⟨c, ?_, hages, hrevoked⟩
      change c ∈ (Mutators.deleteProject faults projectId s.sqlite).2.apiKeys.rows
      rw [Mutators.apiKeys_deleteProject]
      split
      · apply List.mem_filter.mpr
        have hother : c.projectId ≠ some projectId := by rw [hages.projectId]; exact hspares
        exact ⟨hc, by simpa using hother⟩
      · exact hc

theorem kept_live {past : List (Op × Reply)} (hledger : Ledger H start past s)
    (hissued : row ∈ issued H start past)
    (h : Kept row s) (hspares : Spares row.toApiKey e) : Kept row (live H flags s e).2 := by
  cases hop : e.op with
  | some op =>
      rw [live_op hop]
      apply kept_step hledger hissued h
      cases e with
      | call op' =>
          obtain rfl := Option.some.inj hop
          exact hspares
      | create settings auth req gen rawKey fault =>
          rcases @op_create settings auth req gen rawKey fault with ⟨e, -, hnone⟩ | ⟨scopes, target, -, hsome⟩
          · rw [hnone] at hop
            cases hop
          · obtain rfl := Option.some.inj (hsome.symm.trans hop)
            trivial
      | provision | restart => cases hop
  | none =>
      obtain ⟨c, hc, hkept⟩ := h
      refine ⟨c, ?_, hkept⟩
      rwa [(@live_none H flags s e hop).1]

theorem Kept.usable (h : Kept row s) {raw : String} (hopen : verifyApiKeyHash H raw row.keyHash = true)
    (hfingerprint : row.keyFingerprint = some (hashWithHmac H raw)) : Usable H raw row.toApiKey s := by
  obtain ⟨c, hc, hages, hrevoked⟩ := h
  refine ⟨⟨c, hc, hages.id⟩, fun faults now hread hvalid => ?_⟩
  have hvalid' : c.isValid now = true := by
    rw [ApiKey.isValid, Bool.and_eq_true] at hvalid ⊢
    rw [hrevoked, hages.expiresAt]
    exact ⟨rfl, hvalid.2⟩
  have hverify : verifyApiKeyHash H raw c.keyHash = true := by rwa [hages.keyHash]
  obtain ⟨key, haccept, hsame⟩ := @acceptRow_valid H faults.touch raw now s.store c hverify hvalid'
  refine ⟨key, ?_, hsame.id.trans hages.id, hsame.projectId.trans hages.projectId, hsame.scopes.trans hages.scopes⟩
  rw [validateKey_fingerprint hread hc (hages.keyFingerprint.trans hfingerprint), haccept]

theorem durable_of_kept (hH : H.Lawful) (hledger : Ledger H start (record past) s)
    (hissued : row ∈ issued H start (record past))
    (h : Kept row s) {raw : String} (hopen : verifyApiKeyHash H raw row.keyHash = true)
    (hfingerprint : row.keyFingerprint = some (hashWithHmac H raw)) :
    Durable H flags start past s raw row.toApiKey := by
  intro later
  induction later generalizing past s with
  | nil => exact fun _ => h.usable hopen hfingerprint
  | cons e later ih =>
      rintro ⟨⟨hfresh, hspares⟩, hlater⟩
      refine ih (ledger_live hH past s e hledger hfresh) ?_ (kept_live hledger hissued h hspares) hlater
      cases hop : e.op with
      | some op =>
          rw [live_op hop, record_op hop]
          exact (issued_concat _ op _ row).mpr (.inl hissued)
      | none =>
          rw [record_none hop]
          exact hissued

theorem keyTarget_ok {settings : Settings} {auth : AuthContext} {req : CreateKeyRequest} {scopes : List String}
    {target : KeyTarget} (h : keyTarget settings auth req = .ok (scopes, target)) :
    target.projectId = req.projectId ∧ target.ownerUserId = if auth.isUiJwt then authUserId auth else none := by
  obtain ⟨_, -, h⟩ := Fallible.bind_eq_ok.mp h
  obtain ⟨target', htarget, h⟩ := Fallible.bind_eq_ok.mp h
  obtain ⟨rfl, rfl⟩ := Prod.mk.inj (Except.ok.inj h)
  by_cases hui : auth.isUiJwt = true
  · rw [if_pos hui] at htarget ⊢
    obtain ⟨_, -, htarget⟩ := Fallible.bind_eq_ok.mp htarget
    split at htarget
    · cases htarget
    · obtain ⟨_, -, htarget⟩ := Fallible.bind_eq_ok.mp htarget
      obtain ⟨_, -, htarget⟩ := Fallible.bind_eq_ok.mp htarget
      obtain ⟨_, -, htarget⟩ := Fallible.bind_eq_ok.mp htarget
      obtain ⟨p, hp, htarget⟩ := Fallible.bind_eq_ok.mp htarget
      obtain rfl := Except.ok.inj htarget
      exact ⟨(resolveUiKeyProjectId_ok hp).1.symm, rfl⟩
  · rw [if_neg hui] at htarget ⊢
    obtain ⟨_, -, htarget⟩ := Fallible.bind_eq_ok.mp htarget
    obtain rfl := Except.ok.inj htarget
    exact ⟨rfl, rfl⟩

theorem ownedFault_none_iff {sqlite : Mutators.SqliteStore} {auth : AuthContext} {req : CreateKeyRequest}
    {fault : Option String} :
    ownedFault sqlite req.projectId (if auth.isUiJwt then authUserId auth else none) fault = none ↔
      Insertable sqlite auth req fault := by
  have howned : (req.projectId.all (hasProject sqlite) &&
      (if auth.isUiJwt then authUserId auth else none).all (hasUser sqlite)) = true ↔
        (∀ p, req.projectId = some p → hasProject sqlite p = true) ∧
          (auth.isUiJwt = true → ∀ u, authUserId auth = some u → hasUser sqlite u = true) := by
    rw [Bool.and_eq_true, Option.all_eq_true, Option.all_eq_true]
    by_cases hui : auth.isUiJwt = true
    · simp [hui]
    · simp [hui]
  unfold ownedFault Insertable
  rw [← and_assoc, ← howned]
  by_cases hrows : (req.projectId.all (hasProject sqlite) &&
      (if auth.isUiJwt then authUserId auth else none).all (hasUser sqlite)) = true
  · rw [if_pos hrows]
    exact (and_iff_right hrows).symm
  · rw [if_neg hrows]
    exact iff_of_false (Option.some_ne_none _) (fun h => hrows h.1)

theorem kept_created_iff (hH : H.Lawful) {past : List (Op × Reply)} (h : Ledger H start past s)
    {rawKey : String} {projectId name : Option String} {scopes : List String} {expiresIn : Option Nat}
    {owner : Option String}
    {gen : KeyGen} {fault : Option String}
    (hfresh : Fresh H start past s (.create rawKey projectId name scopes expiresIn owner gen fault))
    (hrow : createdRow H (.create rawKey projectId name scopes expiresIn owner gen fault) = some row) :
    (ownedFault s.sqlite projectId owner fault = none →
      Kept row (step H flags s (.create rawKey projectId name scopes expiresIn owner gen fault)).2) ∧
    ((∃ r ∈ (step H flags s (.create rawKey projectId name scopes expiresIn owner gen fault)).2.sqlite.apiKeys.rows,
      r.id = row.id) → ownedFault s.sqlite projectId owner fault = none) := by
  have hapart := fun c hc => @fresh_apart H start s _ row hH past h hfresh hrow c hc
  obtain rfl := Option.some.inj hrow
  constructor
  · intro hnone
    obtain ⟨table, hinsert, hrows⟩ := insert_isSome s.sqlite.apiKeys _ (fun c hc => (hapart c hc).2)
    refine ⟨_, ?_, ages_refl _, rfl⟩
    change _ ∈ ((insertApiKey (ownedFault s.sqlite projectId owner fault) s.sqlite.apiKeys _).toOption.getD
      s.sqlite.apiKeys).rows
    rw [hnone]
    unfold insertApiKey
    rw [hinsert]
    change _ ∈ table.rows
    rw [hrows]
    exact List.mem_append_right _ (List.mem_singleton_self _)
  · rintro ⟨r, hr, hid⟩
    change r ∈ ((insertApiKey (ownedFault s.sqlite projectId owner fault) s.sqlite.apiKeys _).toOption.getD
      s.sqlite.apiKeys).rows at hr
    by_contra hfault
    obtain ⟨text, htext⟩ := Option.ne_none_iff_exists'.mp hfault
    rw [htext] at hr
    exact (hapart r hr).1 hid

/-- A key that is reported as created is durable exactly when its row can be inserted. -/
theorem durable_iff_insertable (hH : H.Lawful) (hstart : Genuine H start) (events : List Event) (settings : Settings)
    (auth : AuthContext) (req : CreateKeyRequest) (gen : KeyGen) (rawKey : String) (fault : Option String)
    (hfresh : Guarded (live H flags) (EventFresh H start) [] start
      (events ++ [.create settings auth req gen rawKey fault])) {raw : String} {key : ApiKey}
    (hcreated : (httpCreateKey H settings auth req gen rawKey fault (after (live H flags) start events)).1 =
      .ok (raw, key)) :
    Durable H flags start (history (live H flags) start (events ++ [.create settings auth req gen rawKey fault]))
        (after (live H flags) start (events ++ [.create settings auth req gen rawKey fault])) raw key ↔
      Insertable (after (live H flags) start events).sqlite auth req fault := by
  have hledger : Ledger H start (record (history (live H flags) start events)) (after (live H flags) start events) := by
    apply invariant_history (fun past s => Ledger H start (record past) s) (ledger_live hH) [] start events
    · exact ledger_start hstart
    · exact ((guarded_append [] start events _).mp hfresh).1
  have hafter : Ledger H start
      (record (history (live H flags) start (events ++ [.create settings auth req gen rawKey fault])))
      (after (live H flags) start (events ++ [.create settings auth req gen rawKey fault])) := by
    apply invariant_history (fun past s => Ledger H start (record past) s) (ledger_live hH) [] start _ _ hfresh
    exact ledger_start hstart
  have hnew := ((guarded_append [] start events _).mp hfresh).2.1
  rcases @op_create settings auth req gen rawKey fault with ⟨e, htarget, -⟩ | ⟨scopes, target, htarget, hop⟩
  · simp only [httpCreateKey, htarget] at hcreated
    cases hcreated
  · simp only [httpCreateKey, htarget] at hcreated
    obtain ⟨rfl, rfl⟩ := Prod.mk.inj (Except.ok.inj hcreated)
    obtain ⟨hproject, howner⟩ := keyTarget_ok htarget
    have hfault := @ownedFault_none_iff (after (live H flags) start events).sqlite auth req fault
    rw [← hproject, ← howner] at hfault
    have hkept := @kept_created_iff H flags _ _ _ hH _ hledger _ _ _ _ _ _ _ _ (hnew _ hop) rfl
    rw [after_concat, live_op hop] at hafter ⊢
    rw [history_append] at hafter ⊢
    constructor
    · intro hdurable
      exact hfault.mp (hkept.2 (hdurable [] trivial).row)
    · intro hinsertable
      have hopens := opens_createKeyFromRaw hH gen rawKey target.projectId target.name scopes none
      refine durable_of_kept hH hafter ?_ (hkept.1 (hfault.mpr hinsertable)) ((hopens rawKey).mpr rfl) rfl
      rw [history, live_op hop, history, record_op hop]
      exact (issued_concat _ _ _ _).mpr (.inr rfl)

def request (projectId : String) : CreateKeyRequest := ⟨some projectId, none, ["write"], none⟩

def created (projectId : String) : Event :=
  .create ⟨fun _ => true, none⟩ (.devMode 0) (request projectId) ⟨"k", "s", 1⟩ "raw" none

theorem durable_projectKey : Durable KeyStore.plainHashing (fun _ => true) oneProject
    (history (live KeyStore.plainHashing (fun _ => true)) oneProject [created "p"])
    (after (live KeyStore.plainHashing (fun _ => true)) oneProject [created "p"]) "raw" projectKey.toApiKey :=
  (durable_iff_insertable KeyStore.plainHashing_lawful genuine_oneProject [] _ _ _ _ _ _
    ⟨fun _ hop => by obtain rfl :=
      Option.some.inj hop; exact fun _ hr => absurd hr List.not_mem_nil, trivial⟩ rfl).mpr
    ⟨fun _ hp => by obtain rfl := Option.some.inj hp; decide +kernel, fun hui => absurd hui Bool.false_ne_true, rfl⟩

theorem created_without_row :
    (httpCreateKey KeyStore.plainHashing ⟨fun _ => true, none⟩ (.devMode 0) (request "q")
      ⟨"k", "s", 1⟩ "raw" none oneProject).1 =
      .ok ("raw", { projectKey.toApiKey with projectId := some "q" }) ∧
    ¬ Durable KeyStore.plainHashing (fun _ => true) oneProject
      (history (live KeyStore.plainHashing (fun _ => true)) oneProject [created "q"])
      (after (live KeyStore.plainHashing (fun _ => true)) oneProject [created "q"]) "raw"
      { projectKey.toApiKey with projectId := some "q" } := by
  refine ⟨rfl, fun h => ?_⟩
  obtain ⟨key, hkey, -⟩ := (h [.restart] ⟨⟨fun _ hop => absurd hop (Option.some_ne_none _).symm, trivial⟩,
    trivial⟩).validated {} 2 rfl rfl
  have hnone : (validateKey KeyStore.plainHashing {} "raw" 2
      (after (live KeyStore.plainHashing (fun _ => true)) oneProject [created "q", .restart]).store).1 = none := by
    decide +kernel
  cases hnone.symm.trans hkey

end MLRunX.KeyDurability
