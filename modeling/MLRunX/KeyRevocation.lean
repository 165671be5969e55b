import MLRunX.KeyRotation
import MLRunX.KeyServer

namespace MLRunX.KeyRevocation

open Auth Http KeyCopies KeyServer Mutators Runs Sqlite Tables
open KeyStore hiding Op Reply step
open KeyRotation (Opens opens_unique opens_createKeyFromRaw)

variable {H : Hashing} {flags : EndpointRbacTier → Bool} {start : Server}

/-- A row that was written for a raw key, under its fingerprint or, in earlier times,
under its unsalted hash. -/
def Written (H : Hashing) (raw : String) (r : ApiKeyRow) : Prop :=
  Opens H r.keyHash raw ∧
    (r.keyFingerprint = some (hashWithHmac H raw) ∨ r.keyFingerprint = none ∧ r.keyHash = H.sha256 raw)

/-- A process that starts on the rows that others have written, each for a raw key of its own. -/
structure Genuine (H : Hashing) (start : Server) : Prop where
  keys : start.keys = []
  written : ∀ r ∈ start.sqlite.apiKeys.rows, ∃ raw, Written H raw r
  apart : ∀ r ∈ start.sqlite.apiKeys.rows, ∀ r' ∈ start.sqlite.apiKeys.rows, ∀ raw,
    Opens H r.keyHash raw → Opens H r'.keyHash raw → r = r'

def issued (H : Hashing) (start : Server) (past : List (Op × Reply)) : List ApiKeyRow :=
  start.sqlite.apiKeys.rows ++ past.filterMap (fun e => createdRow H e.1)

def Fresh (H : Hashing) (start : Server) (past : List (Op × Reply)) (_ : Server) :
    Op → Prop
  | .create rawKey _ _ _ _ _ gen _ =>
      ∀ r ∈ issued H start past, r.id ≠ gen.id ∧ verifyApiKeyHash H rawKey r.keyHash = false
  | _ => True

/-- Every copy is that of an issued key, and issued keys have neither an id nor a raw key in common. -/
structure Ledger (H : Hashing) (start : Server) (past : List (Op × Reply)) (s : Server) : Prop where
  copies : Copies (fun c => ∃ r ∈ issued H start past, Ages r c) s.store
  written : ∀ r ∈ issued H start past, ∃ raw, Written H raw r
  apart : ∀ r ∈ issued H start past, ∀ r' ∈ issued H start past,
    (r.id = r'.id ∨ ∃ raw, Opens H r.keyHash raw ∧ Opens H r'.keyHash raw) → r = r'

theorem ledger_start (h : Genuine H start) : Ledger H start [] start where
  copies := by
    refine ⟨fun r hr => ⟨r, List.mem_append_left _ hr, ages_refl r⟩, ?_⟩
    intro k hk
    rw [Server.store, h.keys] at hk
    exact absurd hk List.not_mem_nil
  written := fun r hr => h.written r (by simpa [issued] using hr)
  apart := by
    intro r hr r' hr' hsame
    have hrow : r ∈ start.sqlite.apiKeys.rows := by simpa [issued] using hr
    have hrow' : r' ∈ start.sqlite.apiKeys.rows := by simpa [issued] using hr'
    rcases hsame with hid | ⟨raw, hopen, hopen'⟩
    · exact eq_of_mem (p := fun k => k.id == r'.id)
        (fun a b ha hb => .inl ((beq_iff_eq.mp ha).trans (beq_iff_eq.mp hb).symm)) hrow hrow' (beq_iff_eq.mpr hid)
        (beq_self_eq_true _)
    · exact h.apart r hrow r' hrow' raw hopen hopen'

theorem issued_concat (past : List (Op × Reply)) (op : Op) (reply : Reply)
    (r : ApiKeyRow) : r ∈ issued H start (past ++ [(op, reply)]) ↔
      r ∈ issued H start past ∨ createdRow H op = some r := by
  simp [issued, or_assoc]

theorem written_created (hH : H.Lawful) {op : Op} {row : ApiKeyRow} (h : createdRow H op = some row) :
    ∃ raw, Written H raw row := by
  cases op with
  | create rawKey projectId name scopes expiresIn owner gen fault =>
      obtain rfl := Option.some.inj h
      exact ⟨rawKey, opens_createKeyFromRaw hH gen rawKey projectId name scopes none, .inl rfl⟩
  | validate | revoke | httpRevoke | deleteProject => cases h

theorem created_apart (hH : H.Lawful) {past : List (Op × Reply)} {s : Server} {op : Op} {row r : ApiKeyRow}
    (hfresh : Fresh H start past s op) (h : createdRow H op = some row) (hr : r ∈ issued H start past) :
    ¬ (r.id = row.id ∨ ∃ raw, Opens H r.keyHash raw ∧ Opens H row.keyHash raw) := by
  cases op with
  | create rawKey projectId name scopes expiresIn owner gen fault =>
      obtain rfl := Option.some.inj h
      obtain ⟨hid, hverify⟩ := hfresh r hr
      rintro (hsame | ⟨raw, hopen, hopen'⟩)
      · exact hid hsame
      · obtain rfl := opens_unique hopen' (opens_createKeyFromRaw hH gen rawKey projectId name scopes none)
        rw [(hopen raw).mpr rfl] at hverify
        cases hverify
  | validate | revoke | httpRevoke | deleteProject => cases h

theorem ledger_step (hH : H.Lawful) (past : List (Op × Reply)) (s : Server) (op : Op) (h : Ledger H start past s)
    (hfresh : Fresh H start past s op) :
    Ledger H start (past ++ [(op, (step H flags s op).1)]) (step H flags s op).2 where
  copies := by
    apply copies_step
    · rintro c c' hages ⟨r, hr, hc⟩
      exact ⟨r, hr, ages_trans hc hages⟩
    · apply h.copies.mono
      rintro c ⟨r, hr, hc⟩
      exact ⟨r, (issued_concat past op _ r).mpr (.inl hr), hc⟩
    · intro row hrow
      exact ⟨row, (issued_concat past op _ row).mpr (.inr hrow), ages_refl row⟩
  written := by
    intro r hr
    rcases (issued_concat past op _ r).mp hr with hr | hr
    · exact h.written r hr
    · exact written_created hH hr
  apart := by
    intro r hr r' hr' hsame
    rcases (issued_concat past op _ r).mp hr with hr | hr <;> rcases (issued_concat past op _ r').mp hr' with hr' | hr'
    · exact h.apart r hr r' hr' hsame
    · exact absurd hsame (created_apart hH hfresh hr' hr)
    · refine absurd ?_ (created_apart hH hfresh hr hr')
      exact hsame.imp Eq.symm (Exists.imp (fun _ => And.symm))
    · exact Option.some.inj (hr.symm.trans hr')

theorem ledger_history (hH : H.Lawful) (hstart : Genuine H start) {ops : List Op}
    (hfresh : Guarded (step H flags) (Fresh H start) [] start ops) :
    Ledger H start (history (step H flags) start ops) (after (step H flags) start ops) :=
  invariant_history (Ledger H start) (fun past s op => ledger_step hH past s op) [] start ops
    (ledger_start hstart) hfresh

/-- What is said of a key by an answer to its revocation. -/
def Revokes : Op → Reply → ApiKeyRow → Prop
  | .revoke keyHash _ _, .revoked true, k => k.keyHash = keyHash
  | .httpRevoke _ keyId _ _, .httpRevoked (.ok ()), k => k.id = keyId
  | .deleteProject _ projectId, .deleted (.ok ()), k => k.projectId = some projectId
  | _, _, _ => False

/-- A revocation fails to reach no row that is valid, and the deletion of a project meets
no valid copy of its keys in memory. -/
def Thorough (s : Server) (k : ApiKeyRow) : Op → Prop
  | .revoke _ _ fault => fault = true → ∀ r ∈ s.sqlite.apiKeys.rows, r.id = k.id → ¬ Live r.toApiKey
  | .httpRevoke _ _ _ faults => faults.revoke = true → ∀ r ∈ s.sqlite.apiKeys.rows, r.id = k.id →
      ¬ Live r.toApiKey
  | .deleteProject _ _ => ∀ c ∈ s.keys, c.id = k.id → ¬ Live c
  | _ => True

def Dead (k : ApiKeyRow) (s : Server) : Prop := Copies (fun c => c.id = k.id → ¬ Live c.toApiKey) s.store

section Revocation

variable {past : List (Op × Reply)} {s : Server} {op : Op} {k : ApiKeyRow}

theorem Ledger.ages (h : Ledger H start past s) (hk : k ∈ issued H start past) {c : ApiKeyRow}
    (hc : ∃ r ∈ issued H start past, Ages r c) (hid : c.id = k.id) : Ages k c := by
  obtain ⟨r, hr, hages⟩ := hc
  obtain rfl := h.apart r hr k hk (.inl (hages.id.symm.trans hid))
  exact hages

theorem Ledger.id_iff (h : Ledger H start past s) (hk : k ∈ issued H start past) {c : ApiKeyRow}
    (hc : ∃ r ∈ issued H start past, Ages r c) : c.id = k.id ↔ c.keyHash = k.keyHash := by
  constructor
  · exact fun hid => (h.ages hk hc hid).keyHash
  · intro hhash
    obtain ⟨r, hr, hages⟩ := hc
    obtain ⟨raw, hopen, -⟩ := h.written r hr
    have hopen' : Opens H k.keyHash raw := by rwa [← hhash, hages.keyHash]
    rw [hages.id, h.apart r hr k hk (.inr ⟨raw, hopen, hopen'⟩)]

theorem Ledger.key_id_iff (h : Ledger H start past s) (hk : k ∈ issued H start past) {key : ApiKey}
    (hkey : (∃ r ∈ s.store.table.rows, r.toApiKey = key) ∨ key ∈ s.store.keys) :
    key.id = k.id ↔ key.keyHash = k.keyHash := by
  rcases hkey with ⟨r, hr, rfl⟩ | hmem
  · exact h.id_iff hk (h.copies.rows r hr)
  · obtain ⟨fingerprint, hc⟩ := h.copies.keys key hmem
    exact h.id_iff hk hc

theorem Ledger.dead_iff (h : Ledger H start past s) (hk : k ∈ issued H start past) :
    Dead k s ↔ Copies (fun c => c.keyHash = k.keyHash → ¬ Live c.toApiKey) s.store := by
  constructor
  · intro hdead
    refine ⟨fun r hr hhash => hdead.rows r hr ((h.key_id_iff hk (.inl ⟨r, hr, rfl⟩)).mpr hhash),
      fun key hmem => ?_⟩
    obtain ⟨fingerprint, hnot⟩ := hdead.keys key hmem
    exact ⟨fingerprint, fun hhash => hnot ((h.key_id_iff hk (.inr hmem)).mpr hhash)⟩
  · intro hdead
    refine ⟨fun r hr hid => hdead.rows r hr ((h.key_id_iff hk (.inl ⟨r, hr, rfl⟩)).mp hid), fun key hmem => ?_⟩
    obtain ⟨fingerprint, hnot⟩ := hdead.keys key hmem
    exact ⟨fingerprint, fun hid => hnot ((h.key_id_iff hk (.inr hmem)).mp hid)⟩

theorem dead_revokeKey_iff (h : Ledger H start past s) (hk : k ∈ issued H start past) (now : Nat)
    (fault : Bool) {past' : List (Op × Reply)}
    (h' : Ledger H start past' (s.setStore (KeyStore.revokeKey k.keyHash now fault s.store).2))
    (hk' : k ∈ issued H start past') :
    Dead k (s.setStore (KeyStore.revokeKey k.keyHash now fault s.store).2) ↔
      (fault = true → ∀ r ∈ s.sqlite.apiKeys.rows, r.id = k.id → ¬ Live r.toApiKey) := by
  constructor
  · rintro hdead rfl r hr hid
    exact hdead.rows r hr hid
  · intro hthorough
    apply (h'.dead_iff hk').mpr
    exact dead_revokeKey s.store k.keyHash now fault
      (fun hfault r hr hhash => hthorough hfault r hr ((h.key_id_iff hk (.inl ⟨r, hr, rfl⟩)).mpr hhash))

theorem dead_deleteProject_iff (h : Ledger H start past s) (hk : k ∈ issued H start past)
    {faults : DeleteProjectFaults} {projectId : String} (hproject : k.projectId = some projectId)
    (hok : (deleteProject faults projectId s.sqlite).1 = .ok ()) :
    Dead k { s with sqlite := (deleteProject faults projectId s.sqlite).2 } ↔ ∀ c ∈ s.keys, c.id = k.id →
      ¬ Live c := by
  constructor
  · intro hdead c hc hid
    obtain ⟨fingerprint, hnot⟩ := hdead.keys c hc
    exact hnot hid
  · intro hthorough
    refine ⟨?_, fun c hc => ⟨none, hthorough c hc⟩⟩
    intro r hr hid
    change r ∈ (deleteProject faults projectId s.sqlite).2.apiKeys.rows at hr
    rw [apiKeys_deleteProject, hok] at hr
    obtain ⟨hmem, hother⟩ := List.mem_filter.mp hr
    have hsame := (h.ages hk (h.copies.rows r hmem) hid).projectId
    simp [hsame, hproject] at hother

theorem revokes_revoke {keyHash : String} {now : Nat} {fault : Bool} {reply : Reply}
    (h : Revokes (.revoke keyHash now fault) reply k) : k.keyHash = keyHash := by
  cases reply with
  | revoked found =>
      cases found with
      | true => exact h
      | false => exact h.elim
  | created | validated | httpRevoked | deleted => exact h.elim

theorem revokes_httpRevoke {auth : AuthContext} {keyId : String} {now : Nat} {faults : RevokeFaults}
    {reply : Reply}
    (h : Revokes (.httpRevoke auth keyId now faults) reply k) : reply = .httpRevoked (.ok ()) ∧ k.id = keyId := by
  cases reply with
  | httpRevoked answer =>
      cases answer with
      | ok u => exact ⟨rfl, h⟩
      | error e => exact h.elim
  | created | validated | revoked | deleted => exact h.elim

theorem revokes_deleteProject {faults : DeleteProjectFaults} {projectId : String} {reply : Reply}
    (h : Revokes (.deleteProject faults projectId) reply k) :
    reply = .deleted (.ok ()) ∧ k.projectId = some projectId := by
  cases reply with
  | deleted answer =>
      cases answer with
      | ok u => exact ⟨rfl, h⟩
      | error e => exact h.elim
  | created | validated | revoked | httpRevoked => exact h.elim

theorem dead_iff_thorough (hH : H.Lawful) (h : Ledger H start past s) (hk : k ∈ issued H start past)
    (hrevokes : Revokes op (step H flags s op).1 k) : Dead k (step H flags s op).2 ↔ Thorough s k op := by
  have hmore : ∀ reply, k ∈ issued H start (past ++ [(op, reply)]) :=
    fun reply => (issued_concat past op reply k).mpr (.inl hk)
  cases op with
  | create | validate => exact hrevokes.elim
  | revoke keyHash now fault =>
      have h' := @ledger_step H flags start hH past s (.revoke keyHash now fault) h trivial
      obtain rfl := revokes_revoke hrevokes
      exact dead_revokeKey_iff h hk now fault h' (hmore _)
  | httpRevoke auth keyId now faults =>
      have h' := @ledger_step H flags start hH past s (.httpRevoke auth keyId now faults) h trivial
      obtain ⟨hok, rfl⟩ := revokes_httpRevoke hrevokes
      rcases @httpRevokeKey_cases flags auth k.id now faults s.store with ⟨e, heq⟩ |
        ⟨keys, key, hkeys, hmem, hid, heq⟩
      · have herror := Reply.httpRevoked.inj hok
        rw [heq] at herror
        cases herror
      · have hhash := (h.key_id_iff hk (mem_visibleKeys hkeys hmem)).mp hid
        have hstep : (step H flags s (.httpRevoke auth k.id now faults)).2 =
            s.setStore (KeyStore.revokeKey k.keyHash now faults.revoke s.store).2 := by
          rw [← hhash]
          exact congrArg (fun r => s.setStore r.2) heq
        rw [hstep] at h' ⊢
        exact dead_revokeKey_iff h hk now faults.revoke h' (hmore _)
  | deleteProject faults projectId =>
      obtain ⟨hok, hproject⟩ := revokes_deleteProject hrevokes
      exact dead_deleteProject_iff h hk hproject (Reply.deleted.inj hok)

/-- No validation returns the key, whatever happens from now on. -/
def Final (H : Hashing) (flags : EndpointRbacTier → Bool) (start : Server) (past : List (Op × Reply)) (s : Server)
    (k : ApiKeyRow) : Prop :=
  ∀ later, Guarded (step H flags) (Fresh H start) past s later → ∀ e ∈ history (step H flags) s later,
    ∀ key, e.2 = .validated (some key) → key.id ≠ k.id

theorem dead_ages {c c' : ApiKeyRow} (h : Ages c c') (hdead : c.id = k.id → ¬ Live c.toApiKey) :
    c'.id = k.id → ¬ Live c'.toApiKey :=
  fun hid hlive => hdead (h.id.symm.trans hid) (h.live hlive)

theorem dead_step (h : Dead k s) (hk : k ∈ issued H start past) (hfresh : Fresh H start past s op) :
    Dead k (step H flags s op).2 := by
  apply copies_step (fun _ _ => dead_ages) h
  intro row hrow hid
  cases op with
  | create rawKey projectId name scopes expiresIn owner gen fault =>
      obtain rfl := Option.some.inj hrow
      exact absurd hid.symm (hfresh k hk).1
  | validate | revoke | httpRevoke | deleteProject => cases hrow

theorem dead_unreturned (h : Dead k s) {key : ApiKey} (hreply : (step H flags s op).1 = .validated (some key)) :
    key.id ≠ k.id := by
  cases op with
  | validate rawKey now faults =>
      obtain ⟨⟨fingerprint, hdead⟩, hvalid, -⟩ :=
        h.validated (fun _ _ => dead_ages) (Reply.validated.inj hreply)
      exact fun hid => hdead hid ⟨now, hvalid⟩
  | create | revoke | httpRevoke | deleteProject => cases hreply

theorem final_of_dead (h : Dead k s) (hk : k ∈ issued H start past) : Final H flags start past s k := by
  intro later
  induction later generalizing past s with
  | nil => exact fun _ e he => absurd he List.not_mem_nil
  | cons op later ih =>
      rintro ⟨hfresh, hlater⟩ e he key hkey
      rcases List.mem_cons.mp he with rfl | he
      · exact dead_unreturned h hkey
      · exact ih (dead_step h hk hfresh) ((issued_concat past op _ k).mpr (.inl hk)) hlater e he key hkey

theorem Ledger.eq_of_fingerprint (hH : H.Lawful) (h : Ledger H start past s) (hk : k ∈ issued H start past)
    {raw : String}
    (hraw : Written H raw k) {c : ApiKeyRow} (hc : c ∈ s.sqlite.apiKeys.rows)
    (hfingerprint : c.keyFingerprint = some (hashWithHmac H raw)) :
    k.keyFingerprint = some (hashWithHmac H raw) := by
  obtain ⟨r, hr, hages⟩ := h.copies.rows c hc
  obtain ⟨raw', hopen, hwritten⟩ := h.written r hr
  rw [hages.keyFingerprint] at hfingerprint
  rcases hwritten with hsome | ⟨hnone, -⟩
  · obtain rfl : raw' = raw := hH.hmac_inj (Option.some.inj (hsome.symm.trans hfingerprint))
    rwa [← h.apart r hr k hk (.inr ⟨raw', hopen, hraw.1⟩)]
  · rw [hnone] at hfingerprint
    cases hfingerprint

theorem row_returned (hH : H.Lawful) (h : Ledger H start past s) (hk : k ∈ issued H start past) {c : ApiKeyRow}
    (hc : c ∈ s.sqlite.apiKeys.rows) (hid : c.id = k.id) {raw : String} (hraw : Written H raw k) {now : Nat}
    (hvalid : c.isValid now = true) : ∃ key, (KeyStore.validateKey H {} raw now s.store).1 = some key ∧
      key.id = k.id := by
  have hages := h.ages hk (h.copies.rows c hc) hid
  have hverify : verifyApiKeyHash H raw c.keyHash = true := by
    rw [hages.keyHash]
    exact (hraw.1 raw).mpr rfl
  obtain ⟨key, haccept, hsame⟩ := @acceptRow_valid H false raw now s.store c hverify hvalid
  refine ⟨key, ?_, hsame.id.trans hid⟩
  rw [← haccept]
  rcases hraw.2 with hfingerprint | ⟨hnone, hlegacy⟩
  · rw [validateKey_fingerprint rfl hc (hages.keyFingerprint.trans hfingerprint)]
  · have hmiss : s.sqlite.apiKeys.find (fun r => r.keyFingerprint == some (hashWithHmac H raw)) = none := by
      apply find_none_iff.mpr
      intro r hr
      apply beq_eq_false_iff_ne.mpr
      intro hsome
      have hfound := h.eq_of_fingerprint hH hk hraw hr hsome
      rw [hnone] at hfound
      cases hfound
    have hfind : s.sqlite.apiKeys.find (fun r => r.keyHash == H.sha256 raw) = some c := by
      refine (find_eq_some_iff _ (fun a b ha hb => ?_)).mpr ⟨hc, beq_iff_eq.mpr (hages.keyHash.trans hlegacy)⟩
      exact .inr (.inl ((beq_iff_eq.mp ha).trans (beq_iff_eq.mp hb).symm))
    simp [KeyStore.validateKey, Server.store, hmiss, hfind]

theorem key_returned (h : Ledger H start past s) (hk : k ∈ issued H start past) {c : ApiKey}
    (hc : c ∈ s.keys) (hid : c.id = k.id) {raw : String} (hraw : Written H raw k) {now : Nat}
    (hvalid : c.isValid now = true) :
    ∃ key, (KeyStore.validateKey H { byFingerprint := true, byHash := true } raw now s.store).1 = some key ∧
      key.id = k.id := by
  obtain ⟨fingerprint, hcopy⟩ := h.copies.keys c hc
  have hages := h.ages hk hcopy hid
  have hverify : verifyApiKeyHash H raw c.keyHash = true := by
    rw [hages.keyHash]
    exact (hraw.1 raw).mpr rfl
  cases hfind : s.keys.find? (fun key => key.isValid now && verifyApiKeyHash H raw key.keyHash) with
  | none =>
      have hnone := List.find?_eq_none.mp hfind c hc
      simp [hvalid, hverify] at hnone
  | some found =>
      have hopened := List.find?_some hfind
      rw [Bool.and_eq_true] at hopened
      obtain ⟨fingerprint', r, hr, hfound⟩ := h.copies.keys found (List.mem_of_find?_eq_some hfind)
      obtain ⟨raw', hopen, -⟩ := h.written r hr
      have hverify' : verifyApiKeyHash H raw r.keyHash = true := by
        rw [← hfound.keyHash]
        exact hopened.2
      obtain rfl := (hopen raw).mp hverify'
      have hsame := h.apart r hr k hk (.inr ⟨raw, hopen, hraw.1⟩)
      refine ⟨{ found with lastUsedAt := some now }, ?_, hfound.id.trans (congrArg (fun r => r.id) hsame)⟩
      simp [KeyStore.validateKey, Server.store, validateInMemory, hfind]

theorem final_iff_dead (hH : H.Lawful) (h : Ledger H start past s) (hk : k ∈ issued H start past) :
    Final H flags start past s k ↔ Dead k s := by
  refine ⟨fun hfinal => ?_, fun hdead => final_of_dead hdead hk⟩
  obtain ⟨raw, hraw⟩ := h.written k hk
  have hnever : ∀ faults now key, (KeyStore.validateKey H faults raw now s.store).1 = some key →
      key.id ≠ k.id := by
    intro faults now key hkey
    exact hfinal [.validate raw now faults] ⟨trivial, trivial⟩ _ List.mem_cons_self key
      (congrArg KeyServer.Reply.validated hkey)
  constructor
  · rintro c hc hid ⟨now, hvalid⟩
    obtain ⟨key, hkey, hsame⟩ := row_returned hH h hk hc hid hraw hvalid
    exact hnever _ now key hkey hsame
  · intro c hc
    refine ⟨none, ?_⟩
    rintro hid ⟨now, hvalid⟩
    obtain ⟨key, hkey, hsame⟩ := key_returned h hk hc hid hraw hvalid
    exact hnever _ now key hkey hsame

end Revocation

/-- A revocation that is answered is final exactly when it is thorough. -/
theorem final_iff_thorough (hH : H.Lawful) (hstart : Genuine H start) (ops : List Op) (op : Op)
    (hfresh : Guarded (step H flags) (Fresh H start) [] start (ops ++ [op])) {k : ApiKeyRow}
    (hk : k ∈ issued H start (history (step H flags) start ops))
    (hrevokes : Revokes op (step H flags (after (step H flags) start ops) op).1 k) :
    Final H flags start (history (step H flags) start (ops ++ [op])) (after (step H flags) start (ops ++ [op])) k ↔
      Thorough (after (step H flags) start ops) k op := by
  have hbefore := ledger_history hH hstart ((guarded_append [] start ops [op]).mp hfresh).1
  have hafter := ledger_history hH hstart hfresh
  have hk' : k ∈ issued H start (history (step H flags) start (ops ++ [op])) := by
    rw [history_append]
    exact (issued_concat _ op _ k).mpr (.inl hk)
  rw [final_iff_dead hH hafter hk', after_concat]
  exact dead_iff_thorough hH hbefore hk hrevokes

def oneProject : Server := ⟨RunServer.projectStore, []⟩

def createKey : Op := .create "raw" (some "p") none ["write"] none none ⟨"k", "s", 1⟩ none

def projectKey : ApiKeyRow :=
  ⟨⟨"k", "$argon2raw", "raw", some "p", none, none, ["write"], 1, none, none, none⟩, some "raw"⟩

def revokeKey (fault : Bool) : Op := .revoke "$argon2raw" 2 fault

theorem genuine_oneProject : Genuine KeyStore.plainHashing oneProject where
  keys := rfl
  written := fun _ hr => absurd hr List.not_mem_nil
  apart := fun _ hr => absurd hr List.not_mem_nil

theorem revokes_projectKey : Revokes (revokeKey false) (step KeyStore.plainHashing (fun _ => true)
    (after (step KeyStore.plainHashing (fun _ => true)) oneProject [createKey]) (revokeKey false)).1 projectKey :=
  rfl

theorem final_revoked : Final KeyStore.plainHashing (fun _ => true) oneProject
    (history (step KeyStore.plainHashing (fun _ => true)) oneProject [createKey, revokeKey false])
    (after (step KeyStore.plainHashing (fun _ => true)) oneProject [createKey, revokeKey false]) projectKey :=
  (final_iff_thorough KeyStore.plainHashing_lawful genuine_oneProject [createKey] (revokeKey false)
    ⟨fun _ hr => absurd hr List.not_mem_nil, trivial, trivial⟩ (by decide +kernel) revokes_projectKey).mpr
    (fun h => absurd h Bool.false_ne_true)

theorem accepted_after_revocation :
    (Revokes (.deleteProject {} "p") (step KeyStore.plainHashing (fun _ => true)
        (after (step KeyStore.plainHashing (fun _ => true)) oneProject [createKey]) (.deleteProject {} "p")).1
          projectKey ∧
      ¬ Final KeyStore.plainHashing (fun _ => true) oneProject
        (history (step KeyStore.plainHashing (fun _ => true)) oneProject [createKey, .deleteProject {} "p"])
        (after (step KeyStore.plainHashing (fun _ => true)) oneProject [createKey, .deleteProject {} "p"])
          projectKey) ∧
    (Revokes (revokeKey true) (step KeyStore.plainHashing (fun _ => true)
        (after (step KeyStore.plainHashing (fun _ => true)) oneProject [createKey]) (revokeKey true)).1 projectKey ∧
      ¬ Final KeyStore.plainHashing (fun _ => true) oneProject
        (history (step KeyStore.plainHashing (fun _ => true)) oneProject [createKey, revokeKey true])
        (after (step KeyStore.plainHashing (fun _ => true)) oneProject [createKey, revokeKey true]) projectKey) := by
  refine ⟨⟨rfl, fun h => ?_⟩, ⟨rfl, fun h => ?_⟩⟩
  · refine h [.validate "raw" 2 {}] ⟨trivial, trivial⟩ _ List.mem_cons_self
      { projectKey.toApiKey with lastUsedAt := some 2 } ?_ rfl
    exact congrArg KeyServer.Reply.validated (by decide +kernel)
  · refine h [.validate "raw" 2 {}] ⟨trivial, trivial⟩ _ List.mem_cons_self
      { projectKey.toApiKey with lastUsedAt := some 2 } ?_ rfl
    exact congrArg KeyServer.Reply.validated (by decide +kernel)

end MLRunX.KeyRevocation
