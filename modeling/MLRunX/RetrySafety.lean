import MLRunX.Ingest

namespace MLRunX.RetrySafety

open Auth Cardinality Commands Http Idempotency Ingest IngestRequest RunTables Runs

variable {τ : Type}

/-- A server with the requests that stand between their entry into the
idempotency store and their answer. -/
structure Server (τ : Type) where
  state : ServerState
  inflight : τ → Option Pending

def Server.start (db : Database) (stream : List QueuedIngestBatch) : Server τ :=
  ⟨⟨db, .empty, .empty, stream⟩, fun _ => none⟩

/-- What other requests do to the run table. -/
inductive RunOp
  | create (fault : Option String) (runId projectId : String) (name createdByKeyId createdByUserId : Option String)
  | finish (fault : Option String) (runId status : String)
  | delete (faults : Nat → Option String) (runId : String)

def RunOp.run : RunOp → Statement Unit
  | .create fault runId projectId name createdByKeyId createdByUserId =>
      createRun fault runId projectId name createdByKeyId createdByUserId
  | .finish fault runId status => finishRun fault runId status
  | .delete faults runId => deleteRun faults runId

inductive Input (τ : Type)
  | arrive (t : τ) (sent : Sent) (fault : Option String)
  | settle (t : τ) (faults : Faults)
  | change (op : RunOp)
  | restart

structure Reply where
  sent : Sent
  answer : Answer Ingested

def reply (sent : Sent) : Except Failure Ingested → Option Reply
  | .ok ingested => some ⟨sent, .ok ingested⟩
  | .error (.http error) => some ⟨sent, .error error⟩
  | .error .panic => none

def Reply.IsDuplicate (r : Reply) : Prop :=
  ∃ ingested, r.answer = .ok ingested ∧ ingested.response.status = "ok" ∧ ingested.response.duplicate = true

def Reply.Delivers (r : Reply) (contents : Contents) : Prop :=
  ∃ ingested, r.answer = .ok ingested ∧ ingested.response.status = "ok" ∧ ingested.response.duplicate = false ∧
    ingested.contents = some contents

def SameBatch (sent sent' : Sent) : Prop :=
  sent.key = sent'.key ∧ sent.request.toPayload = sent'.request.toPayload

def Delivered (past : List (Input τ × Option Reply)) (P : Sent → Prop) : Prop :=
  ∃ e ∈ past, ∃ r contents, e.2 = some r ∧ r.Delivers contents ∧ P r.sent

/-- Whoever is told of a duplicate has been preceded by a success. -/
def Backed (replies : List (Input τ × Option Reply)) : Prop :=
  ∀ past e future, replies = past ++ e :: future → ∀ r, e.2 = some r → r.IsDuplicate →
    Delivered past (fun sent => SameBatch sent r.sent)

theorem Delivered.append {past : List (Input τ × Option Reply)} {P : Sent → Prop} (h : Delivered past P)
    (more : List (Input τ × Option Reply)) : Delivered (past ++ more) P := by
  obtain ⟨e, he, hr⟩ := h
  exact ⟨e, List.mem_append_left _ he, hr⟩

theorem Backed.concat {past : List (Input τ × Option Reply)} (h : Backed past) {e : Input τ × Option Reply}
    (he : ∀ r, e.2 = some r → r.IsDuplicate → Delivered past (fun sent => SameBatch sent r.sent)) :
    Backed (past ++ [e]) := by
  intro past' e' future heq r hr hd
  rcases List.eq_nil_or_concat future with rfl | ⟨future, last, rfl⟩
  · obtain ⟨rfl, hlast⟩ := List.append_inj' heq rfl
    obtain rfl := (List.cons.inj hlast).1
    exact he r hr hd
  · rw [List.concat_eq_append, ← List.cons_append, ← List.append_assoc] at heq
    exact h past' e' future (List.append_inj' heq rfl).1 r hr hd

/-- A request meets no request in flight for its batch and hash, and no success
under its batch and hash with another payload. A request in flight is let
through to its end. -/
def Smooth (env : Env) (past : List (Input τ × Option Reply)) (server : Server τ) : Input τ → Prop
  | .arrive _ sent _ =>
      (∀ u p, server.inflight u = some p → p.sent.key = sent.key → sent.hash env ≠ some p.payloadHash) ∧
      ∀ e ∈ past, ∀ r contents, e.2 = some r → r.Delivers contents → r.sent.key = sent.key →
        r.sent.hash env = sent.hash env → SameBatch r.sent sent
  | .settle t faults => ∀ p, server.inflight t = some p → Settles env faults p server.state
  | .change _ | .restart => True

/-- Every recorded batch is in flight or delivered. -/
structure Accounted (env : Env) (past : List (Input τ × Option Reply)) (server : Server τ) : Prop where
  recorded : ∀ key existing, server.state.idempotency.batches key = some existing →
    (∃ t p, server.inflight t = some p ∧ p.sent.key = key ∧ p.payloadHash = existing.payloadHash) ∨
      Delivered past (fun sent => sent.key = key ∧ sent.hash env = some existing.payloadHash)
  pending : ∀ t p, server.inflight t = some p →
    validateRequest env.limits.maxTagValueLength p.sent.request.toPayload = .ok p.batch ∧
      p.sent.hash env = some p.payloadHash
  backed : Backed past

theorem Accounted.keep {env : Env} {past : List (Input τ × Option Reply)} {server : Server τ}
    (h : Accounted env past server) (state : ServerState)
    (hstate : state.idempotency.batches = server.state.idempotency.batches) {e : Input τ × Option Reply}
    (he : ∀ r, e.2 = some r → r.IsDuplicate → Delivered past (fun sent => SameBatch sent r.sent)) :
    Accounted env (past ++ [e]) ⟨state, server.inflight⟩ where
  recorded := by
    intro key existing hkey
    rw [hstate] at hkey
    exact (h.recorded key existing hkey).imp_right (fun hd => hd.append [e])
  pending := h.pending
  backed := h.backed.concat he

variable [DecidableEq τ]

def arrive (env : Env) (server : Server τ) (t : τ) (sent : Sent) (fault : Option String) :
    Option Reply × Server τ :=
  match receive env sent fault server.state with
  | (.ok (.process p), s) => (none, ⟨s, Function.update server.inflight t (some p)⟩)
  | (.ok .duplicate, s) => (some ⟨sent, .ok duplicateAnswer⟩, ⟨s, server.inflight⟩)
  | (.error e, s) => (some ⟨sent, .error e⟩, ⟨s, server.inflight⟩)

def handle (env : Env) : Machine (Server τ) (Input τ) (Option Reply)
  | server, .arrive t sent fault => match server.inflight t with
      | some _ => (none, server)
      | none => arrive env server t sent fault
  | server, .settle t faults => match server.inflight t with
      | some p =>
          let ended := Ingest.settle env faults p server.state
          (reply p.sent ended.1, ⟨ended.2, Function.update server.inflight t none⟩)
      | none => (none, server)
  | server, .change op =>
      (none, { server with state := { server.state with db := (op.run server.state.db).2 } })
  | server, .restart => (none, .start server.state.db server.state.stream)

theorem handle_sequential (env : Env) (server : Server τ) (t : τ) (sent : Sent) (fault : Option String)
    (faults : Faults) (h : server.inflight t = none) :
    (after (handle env) server [.arrive t sent fault, .settle t faults]).state =
        (httpIngestBatch env sent fault faults server.state).2 ∧
      (history (handle env) server [.arrive t sent fault, .settle t faults]).filterMap Prod.snd =
        (reply sent (httpIngestBatch env sent fault faults server.state).1).toList := by
  have hreceive := receive_cases env sent fault server.state
  simp only [after_cons, after_nil, history, handle, h, arrive, httpIngestBatch, bind, mapError]
  generalize receive env sent fault server.state = admitted at hreceive ⊢
  rcases admitted with ⟨e | _ | p, s⟩
  · simp only [h]
    exact ⟨rfl, rfl⟩
  · simp only [h]
    exact ⟨rfl, rfl⟩
  · obtain ⟨hsent, -⟩ := hreceive
    have hmap : Except.mapError Failure.http (Except.ok (Admission.process p)) = .ok (.process p) := rfl
    simp only [Function.update_self, hmap, hsent]
    generalize Ingest.settle env faults p s = ended
    rcases ended with ⟨(e | _) | i, s'⟩ <;> simp [reply]

structure RetrySafe (env : Env) (server : Server τ) (inputs : List (Input τ)) : Prop where
  backed : Backed (history (handle env) server inputs)
  stored : ∀ past i future r contents, inputs = past ++ i :: future →
    (handle env (after (handle env) server past) i).1 = some r → r.Delivers contents →
    Stored env r.sent contents (after (handle env) server past).state
      (after (handle env) server (past ++ [i])).state

theorem Accounted.arrive {env : Env} {past : List (Input τ × Option Reply)} {server : Server τ} {t : τ}
    {sent : Sent}
    {fault : Option String} (h : Accounted env past server) (ht : server.inflight t = none)
    (hg : Smooth env past server (.arrive t sent fault)) :
    Accounted env (past ++ [(.arrive t sent fault, (RetrySafety.arrive env server t sent fault).1)])
      (RetrySafety.arrive env server t sent fault).2 := by
  have hreceive := receive_cases env sent fault server.state
  simp only [RetrySafety.arrive]
  generalize receive env sent fault server.state = admitted at hreceive ⊢
  rcases admitted with ⟨e | _ | p, s⟩
  · refine h.keep s hreceive (fun r hr hd => ?_)
    obtain rfl := Option.some.inj hr
    obtain ⟨ingested, hi, -⟩ := hd
    cases hi
  · obtain ⟨hkeep, existing, hexisting, hhash⟩ := hreceive
    refine h.keep s hkeep (fun r hr hd => ?_)
    obtain rfl := Option.some.inj hr
    rcases h.recorded sent.key existing hexisting with ⟨u, p, hu, hp, hphash⟩ |
      ⟨e, he, r, contents, hr, hdel, hk, hh⟩
    · exact absurd (hphash ▸ hhash) (hg.1 u p hu hp)
    · exact ⟨e, he, r, contents, hr, hdel, hg.2 e he r contents hr hdel hk (hh.trans hhash.symm)⟩
  · obtain ⟨hsent, hbatch, hhash, -, hbatches⟩ := hreceive
    dsimp only
    refine ⟨?_, ?_, h.backed.concat (fun _ hr => nomatch hr)⟩
    · intro key existing hkey
      rw [hbatches] at hkey
      by_cases hk : key = sent.key
      · rw [hk, Function.update_self] at hkey
        obtain rfl := Option.some.inj hkey
        exact .inl ⟨t, p, by simp, by rw [hsent, hk], rfl⟩
      · rw [Function.update_of_ne hk] at hkey
        rcases h.recorded key existing hkey with ⟨u, q, hu, hq⟩ | hd
        · have hut : u ≠ t := by
            rintro rfl
            simp [ht] at hu
          exact .inl ⟨u, q, by simpa [Function.update_of_ne hut] using hu, hq⟩
        · exact .inr (hd.append _)
    · intro u q hu
      by_cases hut : u = t
      · obtain rfl : p = q := by simpa [hut] using hu
        rw [hsent]
        exact ⟨hbatch, hhash⟩
      · exact h.pending u q (by simpa [Function.update_of_ne hut] using hu)

theorem Accounted.settle {env : Env} {past : List (Input τ × Option Reply)} {server : Server τ} {t : τ}
    {p : Pending}
    {faults : Faults} (h : Accounted env past server) (ht : server.inflight t = some p)
    (hg : Settles env faults p server.state) :
    Accounted env (past ++ [(.settle t faults, reply p.sent (Ingest.settle env faults p server.state).1)])
      ⟨(Ingest.settle env faults p server.state).2, Function.update server.inflight t none⟩ := by
  obtain ⟨hbatch, hhash⟩ := h.pending t p ht
  obtain ⟨ingested, s, hsettle⟩ := settle_completes hbatch hg
  obtain ⟨contents, hcontents, hstatus, hduplicate, -⟩ := settle_ok hsettle
  have hleaves := (settle_leaves env faults p).shows server.state
  rw [hsettle] at hleaves ⊢
  refine ⟨?_, ?_, ?_⟩
  · intro key existing hkey
    rw [hleaves] at hkey
    rcases h.recorded key existing hkey with ⟨u, q, hu, hq, hqhash⟩ | hd
    · by_cases hut : u = t
      · rw [hut, ht] at hu
        obtain rfl := Option.some.inj hu
        refine .inr ⟨_, List.mem_append_right _ List.mem_cons_self, ⟨p.sent, .ok ingested⟩, contents,
          rfl, ?_, hq, ?_⟩
        · exact ⟨ingested, rfl, hstatus, hduplicate, hcontents⟩
        · rw [hhash, hqhash]
      · exact .inl ⟨u, q, by simpa [Function.update_of_ne hut] using hu, hq, hqhash⟩
    · exact .inr (hd.append _)
  · intro u q hu
    by_cases hut : u = t
    · simp [hut] at hu
    · exact h.pending u q (by simpa [Function.update_of_ne hut] using hu)
  · refine h.backed.concat (fun r hr hd => ?_)
    obtain rfl := Option.some.inj hr
    obtain ⟨ingested', hi, -, hdup⟩ := hd
    obtain rfl := Except.ok.inj hi
    simp [hduplicate] at hdup

theorem Accounted.step (env : Env) (past : List (Input τ × Option Reply)) (server : Server τ) (i : Input τ)
    (h : Accounted env past server) (hg : Smooth env past server i) :
    Accounted env (past ++ [(i, (handle env server i).1)]) (handle env server i).2 := by
  cases i with
  | arrive t sent fault =>
      simp only [handle]
      split
      · exact h.keep server.state rfl (fun _ hr => nomatch hr)
      · exact h.arrive ‹_› hg
  | settle t faults =>
      simp only [handle]
      split
      · exact h.settle ‹_› (hg _ ‹_›)
      · exact h.keep server.state rfl (fun _ hr => nomatch hr)
  | change op =>
      exact h.keep { server.state with db := (op.run server.state.db).2 } rfl (fun _ hr => nomatch hr)
  | restart =>
      simp only [handle]
      refine ⟨?_, ?_, h.backed.concat (fun _ hr => nomatch hr)⟩
      · intro key existing hkey
        simp [Server.start, IdempotencyStore.empty] at hkey
      · intro t p hp
        simp [Server.start] at hp

omit [DecidableEq τ] in
theorem Accounted.start (env : Env) (db : Database) (stream : List QueuedIngestBatch) :
    Accounted env [] (.start db stream : Server τ) where
  recorded := by
    intro key existing h
    simp [Server.start, IdempotencyStore.empty] at h
  pending := by
    intro t p h
    simp [Server.start] at h
  backed := by
    intro past e future h
    simp at h

theorem stored_of_delivers {env : Env} {server : Server τ} {i : Input τ} {r : Reply} {contents : Contents}
    (hr : (handle env server i).1 = some r) (hd : r.Delivers contents) :
    Stored env r.sent contents server.state (handle env server i).2.state := by
  obtain ⟨ingested, hanswer, -, hduplicate, hcontents⟩ := hd
  cases i with
  | arrive t sent fault =>
      simp only [handle] at hr
      split at hr
      · cases hr
      · simp only [arrive] at hr
        split at hr
        · cases hr
        · obtain rfl := Option.some.inj hr
          obtain rfl := Except.ok.inj hanswer
          cases hduplicate
        · obtain rfl := Option.some.inj hr
          cases hanswer
  | settle t faults =>
      cases ht : server.inflight t with
      | none => simp [handle, ht] at hr
      | some p =>
          simp only [handle, ht] at hr ⊢
          cases hsettle : Ingest.settle env faults p server.state with
          | mk result s =>
              rw [hsettle] at hr
              rcases result with (e | _) | i
              · obtain rfl := Option.some.inj hr
                cases hanswer
              · cases hr
              · obtain rfl := Option.some.inj hr
                obtain rfl := Except.ok.inj hanswer
                obtain ⟨contents', hc, -, -, hstored⟩ := settle_ok hsettle
                rw [hcontents] at hc
                rwa [Option.some.inj hc]
  | change op => cases hr
  | restart => cases hr

/-- Over every run in which requests do not fail once they are recorded, are
not repeated while they are handled and share no hash, a duplicate is only
ever reported behind a success. -/
theorem retrySafe_of_smooth (env : Env) (db : Database) (stream : List QueuedIngestBatch) (inputs : List (Input τ))
    (hg : Guarded (handle env) (Smooth env) [] (.start db stream) inputs) :
    RetrySafe env (.start db stream) inputs where
  backed := by
    have h := invariant_history (Accounted env) (Accounted.step env) [] _ inputs (Accounted.start env db stream) hg
    simpa using h.backed
  stored := by
    intro past i future r contents _ hr hd
    rw [after_concat]
    exact stored_of_delivers hr hd

theorem resend_after_failure {env : Env} {sent : Sent} {fault : Option String} {faults faults' : Faults}
    {p : Pending}
    {s s₁ s₂ : ServerState} {e : Failure} {run : RunRow}
    (hreceive : receive env sent fault s = (.ok (.process p), s₁))
    (hsettle : Ingest.settle env faults p s₁ = (.error e, s₂))
      (hrun : s₂.db.findRun sent.request.runId = some run)
    (hauth : authorizeIngest env sent run = .ok ()) :
    httpIngestBatch env sent none faults' s₂ = (.ok duplicateAnswer, s₂) := by
  have hcases := receive_cases env sent fault s
  rw [hreceive] at hcases
  obtain ⟨hsent, hbatch, hhash, -, hbatches⟩ := hcases
  have hleaves := (settle_leaves env faults p).shows s₁
  rw [hsettle] at hleaves
  have hrecorded : s₂.idempotency.batches (prepare env sent run p.batch).record.key = some p.record := by
    rw [hleaves, hbatches]
    exact Function.update_self _ _ _
  have hsame : answerTo p.record (prepare env sent run p.batch).record = .duplicate := by
    rw [answerTo_eq_duplicate_iff]
    have heq : hashBatch env.sha256 p.batch sent.request.events = p.payloadHash := by
      simpa [Sent.hash, payloadHash, hbatch, Except.toOption] using hhash
    exact heq.symm
  have hread : readRun none sent.request.runId s₂ = (.ok run, s₂) := by
    simp only [readRun, onDb, mapError, zoom, getRun_found hrun]
    rfl
  have hcheck : checkBatch (prepare env sent run p.batch) s₂ = (.ok .duplicate, s₂) := by
    simp only [checkBatch, checkAndRecord_recorded hrecorded, hsame]
  have hagain : receive env sent none s₂ = (.ok .duplicate, s₂) :=
    (bind_ok hread).trans ((bind_ok (ofExcept_ok hauth s₂)).trans
      ((bind_ok (ofExcept_ok hbatch s₂)).trans (bind_ok hcheck)))
  rw [httpIngestBatch, bind_ok (mapError_ok hagain)]
  rfl

def devServer : Env := ⟨fun _ => true, {}, false, fun bytes => bytes, fun _ => .ok none⟩

def oneRun : Database := (createRun none "r" "p" none none none .empty).2

def lossBatch : Sent :=
  ⟨.devMode 0, { metrics := [⟨"loss", .scalar 0, 1, none⟩], runId := "r", batchId := some "b", seq := none },
    "u", none, 0⟩

def outcome : Option Reply → Option (String × Bool)
  | some ⟨_, .ok ingested⟩ => some (ingested.response.status, ingested.response.duplicate)
  | _ => none

theorem outcome_of_delivers {r : Reply} {contents : Contents} (h : r.Delivers contents) :
    outcome (some r) = some ("ok", false) := by
  obtain ⟨ingested, hanswer, hstatus, hduplicate, -⟩ := h
  rcases r with ⟨sent, answer⟩
  obtain rfl := hanswer
  simp [outcome, hstatus, hduplicate]

theorem isDuplicate_of_outcome {o : Option Reply} (h : outcome o = some ("ok", true)) :
    ∃ r, o = some r ∧ r.IsDuplicate := by
  rcases o with _ | ⟨sent, e | ingested⟩
  · cases h
  · cases h
  · obtain ⟨hstatus, hduplicate⟩ := Prod.mk.inj (Option.some.inj h)
    exact ⟨_, rfl, ingested, rfl, hstatus, hduplicate⟩

theorem retrySafe_resend : RetrySafe devServer (.start oneRun [])
    [.arrive () lossBatch none, .settle () {}, .arrive () lossBatch none] := by
  refine retrySafe_of_smooth devServer oneRun [] [.arrive () lossBatch none, .settle () {},
    .arrive () lossBatch none] ?_
  refine ⟨⟨?_, ?_⟩, ?_, ⟨?_, ?_⟩, trivial⟩
  · intro u p hu
    cases hu
  · intro e he
    cases he
  · intro p hp
    have hnames : ((handle devServer (.start oneRun []) (.arrive () lossBatch none)).2.inflight ()).map
        (fun p => (p.sent.request.runId, p.batch.metrics.map MetricRow.name)) = some ("r", ["loss"]) := by
      decide +kernel
    have hrun : ((handle devServer (.start oneRun []) (.arrive () lossBatch none)).2.state.db.findRun "r").map
        RunRow.status = some "running" := by
      decide +kernel
    rw [hp] at hnames
    obtain ⟨hr, hn⟩ := Prod.mk.inj (Option.some.inj hnames)
    obtain ⟨run, hfound, hstatus⟩ := Option.map_eq_some_iff.mp hrun
    refine ⟨⟨run, hr ▸ hfound, by rw [hstatus]; decide⟩, rfl, fun _ => rfl, fun _ =>
      ⟨rfl, rfl, rfl, rfl, rfl⟩, ?_⟩
    intro metric hmetric
    have hname := List.mem_map_of_mem (f := MetricRow.name) hmetric
    rw [hn, List.mem_singleton] at hname
    rw [hname]
    decide
  · intro u p hu
    have hidle : ((after (handle devServer) (.start oneRun []) [.arrive () lossBatch none, .settle () {}]).inflight
        ()).isNone = true := by
      decide +kernel
    rw [Option.isNone_iff_eq_none] at hidle
    exact absurd (hidle.symm.trans hu) nofun
  · intro e he r contents hr hdel _ _
    have hout := outcome_of_delivers hdel
    rw [← hr] at hout
    simp only [List.nil_append, List.mem_append, List.mem_singleton] at he
    rcases he with rfl | rfl
    · exact absurd hout (by decide +kernel)
    · have hsent : ((handle devServer (handle devServer (.start oneRun []) (.arrive () lossBatch none)).2
          (.settle () {})).1).map (fun r => (r.sent.key, r.sent.request.toPayload)) =
            some (lossBatch.key, lossBatch.request.toPayload) := by
        decide +kernel
      have hpair := (congrArg _ hr).symm.trans hsent
      exact Prod.mk.inj (Option.some.inj hpair)

theorem lost_batch : ¬ RetrySafe devServer (.start oneRun [])
    [.arrive () lossBatch none, .settle () { persist := { metrics := fun _ => some "disk full" } },
      .arrive () lossBatch none] := by
  intro h
  obtain ⟨r, hr, hdup⟩ := isDuplicate_of_outcome (o :=
    (handle devServer (after (handle devServer) (.start oneRun [])
    [.arrive () lossBatch none, .settle () { persist := { metrics := fun _ => some "disk full" } }])
    (.arrive () lossBatch none)).1) (by decide +kernel)
  obtain ⟨e, he, r', contents, hr', hdel, -⟩ := h.backed [_, _] _ [] rfl r hr hdup
  have hout := outcome_of_delivers hdel
  rw [← hr'] at hout
  rcases List.mem_cons.mp he with rfl | he
  · exact absurd hout (by decide +kernel)
  · obtain rfl := List.mem_singleton.mp he
    exact absurd hout (by decide +kernel)

end MLRunX.RetrySafety
