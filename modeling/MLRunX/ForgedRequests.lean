import MLRunX.AuthBackoff
import MLRunX.RequestCredentials

namespace MLRunX.ForgedRequests

open AuthBackoff (AuthRateLimitConfig Entries recordFailure retryAfterSeconds)
open Http RequestCredentials Runs UiAuth UiRequests UiTables

/-- A request with the key of its client and the time on the limiter's clock. -/
structure Received where
  client : String
  clock : ℕ
  op : WebOp

/-- The store, with what is counted of the failed authentications of each client. -/
structure Server where
  store : UiStore
  entries : Entries

structure Answered where
  wait : Option ℕ
  reply : Reply
  cookies : List String

inductive Outcome
  | uncounted | failure | success

variable (config : AuthRateLimitConfig) (settings : CookieSettings) (setup : Setup)

def recordSuccess (clientKey : String) (entries : Entries) : Entries :=
  if !config.enabled || clientKey = "" then entries else Function.update entries clientKey none

def limited : WebOp → Bool
  | .login _ _ _ => true
  | .request _ _ _ => !setup.authDisabled

def consult (r : Received) (entries : Entries) : Option ℕ × Entries :=
  if limited setup r.op then retryAfterSeconds config r.clock r.client entries else (none, entries)

def waiting (retryAfter : Option ℕ) : WebOp → WebOp
  | .login jwt bearer env => .login jwt bearer { env with retryAfter }
  | .request r action env => .request r action { env with retryAfter }

/-- A request without a credential, or a login without a token, is refused but not counted. -/
def outcome (wait : Option ℕ) : WebOp → Reply → Outcome
  | .login jwt bearer env, reply => match wait, reply with
      | some _, _ => .failure
      | none, .login (.ok _) => .success
      | none, _ => if (presentedJwt (.login jwt bearer env)).isNone then .uncounted else .failure
  | .request r _ _, reply => match wait, reply with
      | some _, _ => .failure
      | none, .served _ _ => .success
      | none, _ => if (extracted settings setup r).credential = .missing then .uncounted else .failure

def count (r : Received) : Outcome → Entries → Entries
  | .uncounted, entries => entries
  | .failure, entries => recordFailure config r.clock r.client entries
  | .success, entries => recordSuccess config r.client entries

def serve : Machine Server Received Answered := fun s r =>
  let told := consult config setup r s.entries
  let result := webStep settings setup s.store (waiting told.1 r.op)
  (⟨told.1, result.1.1, result.1.2⟩,
    ⟨result.2, if limited setup r.op then count config r (outcome settings setup told.1 r.op result.1.1) told.2
      else told.2⟩)

def forgers (received : List Received) : List String :=
  (received.filter (fun r => r.op.forged)).map Received.client

/-- The limiter turns away nothing but forged requests of the clients that send some. -/
def Spared (clients : List String) (s : Server) (received : List Received) : Prop :=
  ∀ entry ∈ history (serve config settings setup) s received, entry.1.op.forged = false →
    entry.1.client ∈ clients → entry.2.wait = none

instance (clients : List String) (s : Server) (received : List Received) :
    Decidable (Spared config settings setup clients s received) :=
  inferInstanceAs (Decidable (∀ entry ∈ history (serve config settings setup) s received,
    entry.1.op.forged = false →
    entry.1.client ∈ clients → entry.2.wait = none))

variable {config settings setup} {client : String} {entries entries' : Entries} {r : Received}

theorem waiting_forged (wait : Option ℕ) (op : WebOp) : (waiting wait op).forged = op.forged := by
  cases op <;> rfl

theorem recordFailure_other (h : client ≠ r.client) :
    recordFailure config r.clock r.client entries client = entries client := by
  rw [recordFailure]
  split
  · rfl
  · exact Function.update_of_ne h _ _

theorem recordFailure_congr (h : entries r.client = entries' r.client) :
    recordFailure config r.clock r.client entries r.client =
      recordFailure config r.clock r.client entries' r.client := by
  simp only [recordFailure, h]
  split
  · exact h
  · rw [Function.update_self, Function.update_self]

theorem recordSuccess_other (h : client ≠ r.client) :
    recordSuccess config r.client entries client = entries client := by
  rw [recordSuccess]
  split
  · rfl
  · exact Function.update_of_ne h _ _

theorem recordSuccess_congr (h : entries r.client = entries' r.client) :
    recordSuccess config r.client entries r.client = recordSuccess config r.client entries' r.client := by
  simp only [recordSuccess]
  split
  · exact h
  · rw [Function.update_self, Function.update_self]

theorem count_other (h : client ≠ r.client) (o : Outcome) : count config r o entries client = entries client := by
  cases o with
  | uncounted => rfl
  | failure => exact recordFailure_other h
  | success => exact recordSuccess_other h

theorem count_congr (h : entries r.client = entries' r.client) (o : Outcome) :
    count config r o entries r.client = count config r o entries' r.client := by
  cases o with
  | uncounted => exact h
  | failure => exact recordFailure_congr h
  | success => exact recordSuccess_congr h

theorem consult_other (h : client ≠ r.client) : (consult config setup r entries).2 client = entries client := by
  rw [consult]
  split
  · rw [retryAfterSeconds]
    split
    · rfl
    · split
      · rfl
      · exact Function.update_of_ne h _ _
  · rfl

theorem consult_congr (h : entries r.client = entries' r.client) :
    (consult config setup r entries).1 = (consult config setup r entries').1 ∧
      (consult config setup r entries).2 r.client = (consult config setup r entries').2 r.client := by
  simp only [consult, retryAfterSeconds]
  split
  · split
    · exact ⟨rfl, h⟩
    · rw [h]
      cases hentry : entries' r.client with
      | none => exact ⟨rfl, h⟩
      | some entry => exact ⟨rfl, by simp only [Function.update_self]⟩
  · exact ⟨rfl, h⟩

theorem serve_other {s : Server} (h : client ≠ r.client) :
    (serve config settings setup s r).2.entries client = s.entries client := by
  simp only [serve]
  split
  · rw [count_other h, consult_other h]
  · exact consult_other h

structure Alike (clients : List String) (s s' : Server) : Prop where
  store : s.store = s'.store
  entries : ∀ client, client ∉ clients → s.entries client = s'.entries client

section Alike

variable {clients : List String} {s s' : Server}

theorem Alike.answer (h : Alike clients s s')
    (hwait : r.client ∈ clients → (consult config setup r s.entries).1 = (consult config setup r s'.entries).1) :
    (serve config settings setup s r).1 = (serve config settings setup s' r).1 ∧
      Alike clients (serve config settings setup s r).2 (serve config settings setup s' r).2 := by
  have htold : (consult config setup r s.entries).1 = (consult config setup r s'.entries).1 := by
    by_cases hclient : r.client ∈ clients
    · exact hwait hclient
    · exact (consult_congr (h.entries r.client hclient)).1
  refine ⟨by simp only [serve, htold, h.store], by simp only [serve, htold, h.store], ?_⟩
  intro client hclient
  by_cases hsame : client = r.client
  · subst hsame
    have hentry : (consult config setup r s.entries).2 r.client = (consult config setup r s'.entries).2 r.client :=
      (consult_congr (h.entries r.client hclient)).2
    simp only [serve, htold, h.store]
    split
    · exact count_congr hentry _
    · exact hentry
  · rw [serve_other hsame, serve_other hsame]
    exact h.entries client hclient

theorem serve_forged (henabled : setup.authDisabled = false) (s : Server) (h : r.op.forged = true) :
    ∃ e wait, (serve config settings setup s r).1 = ⟨wait, .refused e, []⟩ ∧
      (serve config settings setup s r).2.store = s.store := by
  obtain ⟨e, herror⟩ : ∃ e, webStep settings setup s.store (waiting (consult config setup r s.entries).1 r.op) =
      ((.refused e, []), s.store) := webStep_forged henabled s.store ((waiting_forged _ _).trans h)
  refine ⟨e, (consult config setup r s.entries).1, ?_, ?_⟩
  · simp only [serve, herror]
  · simp only [serve, herror]

theorem Alike.forged (henabled : setup.authDisabled = false) (h : Alike clients s s') (hforged : r.op.forged = true)
    (hclient : r.client ∈ clients) : Alike clients (serve config settings setup s r).2 s' where
  store := by
    obtain ⟨_, _, -, hstore⟩ := serve_forged henabled s hforged
    exact hstore.trans h.store
  entries client hother := by
    have hne : client ≠ r.client := by
      rintro rfl
      exact hother hclient
    rw [serve_other hne]
    exact h.entries client hother

theorem alike_filter (henabled : setup.authDisabled = false) (received : List Received) (h : Alike clients s s')
    (hforgers : ∀ r ∈ received, r.op.forged = true → r.client ∈ clients)
    (hspared : Spared config settings setup clients s received)
    (hspared' : Spared config settings setup clients s' (received.filter (fun r => !r.op.forged))) :
    history (serve config settings setup) s' (received.filter (fun r => !r.op.forged)) =
        (history (serve config settings setup) s received).filter (fun entry => !entry.1.op.forged) ∧
      Alike clients (after (serve config settings setup) s received)
        (after (serve config settings setup) s' (received.filter (fun r => !r.op.forged))) := by
  induction received generalizing s s' with
  | nil => exact ⟨rfl, h⟩
  | cons r received ih =>
      have hrest : ∀ r ∈ received, r.op.forged = true → r.client ∈ clients :=
        fun r hr => hforgers r (List.mem_cons_of_mem _ hr)
      have hlater : Spared config settings setup clients (serve config settings setup s r).2 received :=
        fun entry hentry => hspared entry (List.mem_cons_of_mem _ hentry)
      cases hforged : r.op.forged with
      | true =>
          rw [List.filter_cons_of_neg (by simp [hforged])] at hspared' ⊢
          have hnext : Alike clients (serve config settings setup s r).2 s' :=
            h.forged henabled hforged (hforgers r List.mem_cons_self hforged)
          obtain ⟨hhistory, hafter⟩ := ih hnext hrest hlater hspared'
          refine ⟨hhistory.trans ?_, hafter⟩
          rw [history, List.filter_cons_of_neg (by simp [hforged])]
      | false =>
          rw [List.filter_cons_of_pos (by simp [hforged])] at hspared' ⊢
          obtain ⟨hanswer, hnext⟩ : (serve config settings setup s r).1 = (serve config settings setup s' r).1 ∧
              Alike clients (serve config settings setup s r).2 (serve config settings setup s' r).2 := h.answer
            (fun hclient => (hspared _ List.mem_cons_self hforged hclient).trans
              (hspared' _ List.mem_cons_self hforged hclient).symm)
          obtain ⟨hhistory, hafter⟩ := ih hnext hrest hlater
            (fun entry hentry => hspared' entry (List.mem_cons_of_mem _ hentry))
          refine ⟨?_, hafter⟩
          rw [history, history, List.filter_cons_of_pos (by simp [hforged]), hanswer, hhistory]

end Alike

def loginThenForge : List Received :=
  [⟨"10.0.0.1", 10,
      .login (some "jwt") none { now := 10, userId := "u1", sessionToken := "s=1", csrfToken := "c1" }⟩,
    ⟨"10.0.0.1", 11, .request (cookiesOnly "DELETE" "/api/v1/projects/project" twoCookies) (.deleteProject "project")
      { now := 11 }⟩,
    ⟨"10.0.0.1", 12, .request (cookiesOnly "GET" "/api/v1/runs" twoCookies) .other { now := 12 }⟩]

def emptyServer : Server := ⟨.empty, fun _ => none⟩

end MLRunX.ForgedRequests
