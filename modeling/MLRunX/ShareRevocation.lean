import MLRunX.ShareSafety

namespace MLRunX.ShareRevocation

open AuditLog Auth Commands Http Ingest RunInit RunTables ShareLinks ShareSafety Sqlite Statements Tables

variable {env : LinkEnv} {faults : LinkFaults} {auth : AuthContext} {runId token : String} {s s' : LinkStore}

/-- The caller passes the checks that guard the links of a run. -/
structure MayRevoke (env : LinkEnv) (auth : AuthContext) (runId : String) (s : LinkStore) (run : RunRow) : Prop where
  stored : s.runs.db.findRun runId = some run
  access : Auth.requireEndpointAccess auth env.lists.flags .read (some run.projectId) = .ok ()
  owner : requireUiRunOwner auth run = .ok ()
  key : requireApiKeyRunOwnerForMutation auth run "revoke share links for" = .ok ()

def Named (env : LinkEnv) (token : String) (s : LinkStore) (row : ShareTokenRow) : Prop :=
  row ∈ s.shareTokens.rows ∧ (row.token = env.hmac token ∨ row.token = token)

def ofOthers (runId : String) (s : LinkStore) : List ShareTokenRow := s.shareTokens.select (fun r => r.runId != runId)

/-- A revocation through a run touches links of that run only. A token of another run
fails and changes nothing. -/
structure OwnOnly (env : LinkEnv) (runId token : String) (s : LinkStore) (r : Except HttpError String × LinkStore) :
    Prop where
  others : ofOthers runId r.2 = ofOthers runId s
  refused : (∃ row, Named env token s row ∧ row.runId ≠ runId) → ∃ e, r = (.error e, s)

def revoked (env : LinkEnv) (token : String) (s : LinkStore) : LinkStore :=
  { s with
    shareTokens := s.shareTokens.update
      (setWhere (fun row => row.answers (env.hmac token) (some token) && row.revokedAt.isNone)
        (fun r => { r with revokedAt := some env.now })) (ShareTokenRow.clash_setWhere (fun _ => rfl)) }

/-- A row that a revocation would write exists. -/
def Revocable (env : LinkEnv) (token : String) (s : LinkStore) : Prop :=
  ∃ row, Named env token s row ∧ row.revokedAt = none

theorem revocable_iff : Revocable env token s ↔
    (s.shareTokens.select (fun row => row.answers (env.hmac token) (some token) && row.revokedAt.isNone)).length ≠
      0 := by
  rw [ne_eq, List.length_eq_zero_iff, Table.select, List.filter_eq_nil_iff]
  simp [Revocable, Named, answers_iff, and_assoc]

theorem update_nothing {ρ : Type} {clash : ρ → ρ → Prop} {t : Table ρ clash} {f : ρ → ρ}
    {hf : ∀ a b, clash (f a) (f b) → clash a b} (h : ∀ r ∈ t.rows, f r = r) : t.update f hf = t := by
  rcases t with ⟨rows, apart⟩
  simp only [Table.update, Table.mk.injEq]
  exact (List.map_congr_left h).trans (List.map_id' rows)

theorem revoked_nothing (h : ¬ Revocable env token s) : revoked env token s = s := by
  have hsame : ∀ r ∈ s.shareTokens.rows,
      setWhere (fun row => row.answers (env.hmac token) (some token) && row.revokedAt.isNone)
        (fun r => { r with revokedAt := some env.now }) r = r := by
    intro r hr
    apply if_neg
    intro hp
    obtain ⟨hnamed, hkept⟩ := (Bool.and_eq_true _ _).mp hp
    exact h ⟨r, ⟨hr, answers_iff.mp hnamed⟩, by simpa using hkept⟩
  simp only [revoked, update_nothing hsame]

theorem revokeShareToken_fault (h : faults.revoke ≠ none) :
    ∃ e, revokeShareToken env faults (env.hmac token) (some token) s = (.error e, s) := by
  obtain ⟨text, htext⟩ := Option.ne_none_iff_exists'.mp h
  exact ⟨.database text, by simp [revokeShareToken, htext, execute, bind]⟩

theorem revokeShareToken_none (hfault : faults.revoke = none) (h : ¬ Revocable env token s) :
    ∃ e, revokeShareToken env faults (env.hmac token) (some token) s = (.error e, s) := by
  have hnone := not_not.mp (mt revocable_iff.mpr h)
  have hsame := revoked_nothing h
  refine ⟨.notFound "Share token not found or already revoked.", ?_⟩
  simp only [revokeShareToken, hfault]
  refine (@bind_ok _ _ _ _ _ _ _ (revoked env token s) _ rfl).trans ?_
  rw [if_pos hnone, hsame]
  rfl

theorem revokeShareToken_some (hfault : faults.revoke = none) (h : Revocable env token s) :
    revokeShareToken env faults (env.hmac token) (some token) s = (.ok (), revoked env token s) := by
  simp only [revokeShareToken, hfault]
  refine (@bind_ok _ _ _ _ _ _ _ (revoked env token s) _ rfl).trans ?_
  rw [if_neg (revocable_iff.mp h)]
  rfl

theorem ofOthers_revoked (h : ∀ row, Named env token s row → row.runId = runId) :
    ofOthers runId (revoked env token s) = ofOthers runId s := by
  simp only [ofOthers, Table.select, revoked, rows_update, List.filter_map]
  have hrun : ((fun r : ShareTokenRow => r.runId != runId) ∘
      setWhere (fun row => row.answers (env.hmac token) (some token) && row.revokedAt.isNone)
        (fun r => { r with revokedAt := some env.now })) = fun r => r.runId != runId := by
    funext r
    exact congrArg (· != runId) (setWhere_keeps ShareTokenRow.runId (by intro _; rfl) r)
  rw [hrun]
  refine (List.map_congr_left (fun r hr => ?_)).trans (List.map_id' _)
  obtain ⟨hmem, hother⟩ := List.mem_filter.mp hr
  apply if_neg
  intro hp
  have hnamed := answers_iff.mp ((Bool.and_eq_true _ _).mp hp).1
  simp [h r ⟨hmem, hnamed⟩] at hother

theorem httpRevokeShareToken_eq {run : RunRow} (h : MayRevoke env auth runId s run) (hfault : faults.getRun = none)
    (hrevoke : revokeShareToken env faults (env.hmac token) (some token) s = (.ok (), s')) :
    ∃ r s'', httpRevokeShareToken env faults auth runId token s = (.ok r, s'') ∧
      s''.shareTokens = s'.shareTokens := by
  simp only [httpRevokeShareToken, hfault, shareTokenHash]
  rw [bind_ok (mapError_ok (ShareSafety.getRun_found h.stored)), bind_ok (requireEndpointAccess_eq h.access s),
    bind_ok (Commands.ofExcept_ok h.owner s), bind_ok (Commands.ofExcept_ok h.key s), bind_ok (mapError_ok hrevoke),
    bind_ok (emitAuditEvent_eq _ _ _)]
  refine ⟨_, _, rfl, ?_⟩
  split <;> rfl

theorem httpRevokeShareToken_error {run : RunRow} (h : MayRevoke env auth runId s run)
    (hfails : faults.getRun ≠ none ∨ ∃ e, revokeShareToken env faults (env.hmac token) (some token) s =
      (.error e, s)) :
    ∃ e, httpRevokeShareToken env faults auth runId token s = (.error e, s) := by
  simp only [httpRevokeShareToken, shareTokenHash]
  cases hfault : faults.getRun with
  | some text => exact ⟨_, bind_error rfl⟩
  | none =>
      rcases hfails with hget | ⟨e, hrevoke⟩
      · exact absurd hfault hget
      · rw [bind_ok (mapError_ok (ShareSafety.getRun_found h.stored)),
          bind_ok (requireEndpointAccess_eq h.access s),
          bind_ok (Commands.ofExcept_ok h.owner s), bind_ok (Commands.ofExcept_ok h.key s)]
        exact ⟨_, bind_error (by simp only [mapError, hrevoke]; rfl)⟩

/-- A revocation keeps to the links of its run just when no live link is named
together with one of another run, or a statement is refused. -/
theorem ownOnly_iff {run : RunRow} (h : MayRevoke env auth runId s run) :
    OwnOnly env runId token s (httpRevokeShareToken env faults auth runId token s) ↔
      ¬ (faults.getRun = none ∧ faults.revoke = none ∧ (∃ row, Named env token s row ∧ row.runId ≠ runId) ∧
        ∃ row, Named env token s row ∧ row.revokedAt = none) := by
  have hunchanged : (∃ e, httpRevokeShareToken env faults auth runId token s = (.error e, s)) →
      OwnOnly env runId token s (httpRevokeShareToken env faults auth runId token s) := by
    rintro ⟨e, herror⟩
    rw [herror]
    exact ⟨rfl, fun _ => ⟨e, rfl⟩⟩
  constructor
  · rintro hown ⟨hget, hfault, hother, hkept⟩
    obtain ⟨r, s'', hok, -⟩ := httpRevokeShareToken_eq h hget (revokeShareToken_some hfault hkept)
    obtain ⟨e, herror⟩ := hown.refused hother
    rw [hok] at herror
    cases herror
  · intro hnot
    by_cases hget : faults.getRun = none
    · by_cases hfault : faults.revoke = none
      · by_cases hkept : Revocable env token s
        · have hmine : ∀ row, Named env token s row → row.runId = runId := by
            intro row hnamed
            by_contra hother
            exact hnot ⟨hget, hfault, ⟨row, hnamed, hother⟩, hkept⟩
          obtain ⟨r, s'', hok, htokens⟩ := httpRevokeShareToken_eq h hget (revokeShareToken_some hfault hkept)
          rw [hok]
          constructor
          · change s''.shareTokens.select _ = _
            rw [htokens]
            exact ofOthers_revoked hmine
          · rintro ⟨row, hnamed, hother⟩
            exact absurd (hmine row hnamed) hother
        · exact hunchanged (httpRevokeShareToken_error h (.inr (revokeShareToken_none hfault hkept)))
      · exact hunchanged (httpRevokeShareToken_error h (.inr (revokeShareToken_fault hfault)))
    · exact hunchanged (httpRevokeShareToken_error h (.inl hget))

def run (runId projectId : String) : RunRow := ⟨runId, projectId, none, "running", none, none, 0, 0⟩

def twoRuns : LinkStore where
  runs := { MetadataStore.empty with
    db := { Database.empty with
      runs := ⟨[run "run" "research", run "hidden" "finance"],
        .cons (by simp [run, RunRow.clash]) (.cons (by simp) .nil)⟩ } }
  apiKeys := .empty
  aliases := []
  shareTokens := ⟨[⟨"fp:secret", "hidden", none, "2026-01-01 00:00:00", none, none⟩], .cons (by simp) .nil⟩
  auditEvents := []

def researchKey : AuthContext :=
  .ofApiKey ⟨"k", "h", "mlrx", some "research", none, none, ["read"], 0, none, none, none⟩

theorem mayRevoke_research : MayRevoke linksOn researchKey "run" twoRuns (run "run" "research") :=
  ⟨rfl, rfl, rfl, rfl⟩

theorem ownOnly_guess :
    OwnOnly linksOn "run" "guess" twoRuns (httpRevokeShareToken linksOn {} researchKey "run" "guess" twoRuns) :=
  (ownOnly_iff mayRevoke_research).mpr (by
    rintro ⟨-, -, ⟨row, ⟨hrow, hnamed⟩, -⟩, -⟩
    obtain rfl := List.mem_singleton.mp hrow
    exact absurd hnamed (by decide))

theorem foreign_link_revoked :
    MayRevoke linksOn researchKey "run" twoRuns (run "run" "research") ∧
      (∀ other, ¬ MayRevoke linksOn researchKey "hidden" twoRuns other) ∧
      (httpRevokeShareToken linksOn {} researchKey "run" "secret" twoRuns).1 = .ok "share_token:fp:secret" ∧
      (httpRevokeShareToken linksOn {} researchKey "run" "secret" twoRuns).2.shareTokens.rows =
        [⟨"fp:secret", "hidden", none, "2026-01-01 00:00:00", none, some "2026-01-01 00:00:00"⟩] ∧
      ¬ OwnOnly linksOn "run" "secret" twoRuns
        (httpRevokeShareToken linksOn {} researchKey "run" "secret" twoRuns) := by
  refine ⟨mayRevoke_research, ?_, by decide +kernel, by decide +kernel, ?_⟩
  · intro other h
    obtain rfl : run "hidden" "finance" = other := Option.some.inj (Eq.trans (by decide +kernel) h.stored)
    have haccess := h.access
    revert haccess
    decide +kernel
  · intro h
    have hothers := h.others
    revert hothers
    decide +kernel

end MLRunX.ShareRevocation
