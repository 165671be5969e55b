import MLRunX.StructuredEvents

namespace MLRunX.EventPolling

open Auth Http Ingest Paging PayloadHash RunTables Runs Sqlite StructuredEvents UiRequests

structure RunEventsQuery where
  afterId : Option Int
  limit : Nat := 200

structure RunEventResponse where
  id : Int
  runId : String
  level : String
  source : String
  message : String
  step : Option Int64
  timestamp : Option F64
  createdAt : String
  deriving DecidableEq, Repr

structure ListRunEventsResponse where
  runId : String
  events : List RunEventResponse
  nextAfterId : Option Int
  hasMore : Bool
  deriving DecidableEq, Repr

def eventResponse (row : RunEventRow) : RunEventResponse :=
  ⟨row.id, row.runId, row.level, row.source, row.message, row.step, row.timestamp, row.createdAt⟩

variable (env : EventEnv) (auth : AuthContext) (runId : String)

def httpGetRunEvents (query : RunEventsQuery) (faults : ReadFaults) (s : EventStore) :
    Answer ListRunEventsResponse := do
  let _ ← openRun env auth runId faults.getRun s
  let limit := clamp 1 500 query.limit
  match listRunEvents faults.listEvents runId query.afterId (limit + 1) s with
  | .error _ => .error internalError
  | .ok rows =>
      let hasMore := decide (limit < rows.length)
      let page := if hasMore then rows.take limit else rows
      .ok ⟨runId, page.map eventResponse, (page.getLast?.map RunEventRow.id).or query.afterId, hasMore⟩

def lastId (log : EventLog) : Int := (log.rows.getLast?.map RunEventRow.id).getD 0

theorem le_lastId (log : EventLog) (row : RunEventRow) (h : row ∈ log.rows) : row.id ≤ lastId log := by
  obtain ⟨rows, hascending⟩ := log
  rcases List.eq_nil_or_concat rows with rfl | ⟨before, last, rfl⟩
  · exact absurd h List.not_mem_nil
  · simp only [lastId, List.concat_eq_append, List.getLast?_concat, Option.map_some, Option.getD_some,
      List.mem_append, List.mem_singleton] at h ⊢
    rcases h with h | rfl
    · rw [List.concat_eq_append] at hascending
      exact Int.le_of_lt ((List.pairwise_append.mp hascending).2.2 row h last List.mem_cons_self)
    · exact Int.le_refl _

/-- An insert hands out an id above all others; some may be left out. -/
def appendEvent (log : EventLog) (gap : Nat) (row : RunEventRow) : EventLog where
  rows := log.rows ++ [{ row with id := lastId log + 1 + gap }]
  ascending := by
    apply List.pairwise_append.mpr ⟨log.ascending, List.pairwise_singleton .., _⟩
    intro a ha b hb
    have := le_lastId log a ha
    rw [List.mem_singleton.mp hb]
    change a.id < lastId log + 1 + gap
    omega

/-- A client who polls the events of a run with the cursor it was last given,
and the server it asks. -/
structure Client where
  store : EventStore
  cursor : Option Int
  received : List RunEventResponse

inductive Input
  | append (gap : Nat) (row : RunEventRow)
  | poll (limit : Nat) (faults : ReadFaults)

def receive (client : Client) : Answer ListRunEventsResponse → Client
  | .ok response => ⟨client.store, response.nextAfterId, client.received ++ response.events⟩
  | .error _ => client

/-- Events are appended, to any run, between the polls. A poll that fails is
made again from the same cursor. -/
def step : Machine Client Input (Option (Answer ListRunEventsResponse))
  | client, .append gap row =>
      (none, { client with store := ⟨client.store.runs, appendEvent client.store.events gap row⟩ })
  | client, .poll limit faults =>
      let answer := httpGetRunEvents env auth runId ⟨client.cursor, limit⟩ faults client.store
      (some answer, receive client answer)

theorem listRunEvents_ok {fault : Option String} {runId : String} {afterId : Option Int} {limit : Nat}
    {s : EventStore}
    {rows : List RunEventRow} (hlow : 1 ≤ limit) (hhigh : limit ≤ 1000)
    (h : listRunEvents fault runId afterId limit s = .ok rows) :
    rows = (behind RunEventRow.id afterId (eventsOf runId s)).take limit := by
  obtain ⟨-, hrows⟩ := statement_eq_ok.mp h
  rw [← Except.ok.inj hrows, clamp_self hlow hhigh, behind, eventsOf, List.filter_filter]
  congr 2
  funext row
  exact Bool.and_comm _ _

theorem cut_page {α : Type} (limit : Nat) (rest : List α) :
    decide (limit < (rest.take (limit + 1)).length) = decide (limit < rest.length) ∧
      (if decide (limit < (rest.take (limit + 1)).length) then (rest.take (limit + 1)).take limit
        else rest.take (limit + 1)) = rest.take limit := by
  have hmore : limit < (rest.take (limit + 1)).length ↔ limit < rest.length := by
    rw [List.length_take]
    omega
  refine ⟨decide_eq_decide.mpr hmore, ?_⟩
  split
  · rw [List.take_take, Nat.min_eq_left (Nat.le_succ limit)]
  · rename_i hlt
    have hlen : rest.length ≤ limit := by simpa [hmore] using hlt
    rw [List.take_of_length_le hlen, List.take_of_length_le (Nat.le_succ_of_le hlen)]

theorem httpGetRunEvents_ok {query : RunEventsQuery} {faults : ReadFaults} {s : EventStore}
    {response : ListRunEventsResponse} (h : httpGetRunEvents env auth runId query faults s = .ok response) :
    let rest := behind RunEventRow.id query.afterId (eventsOf runId s)
    let page := rest.take (clamp 1 500 query.limit)
    response = ⟨runId, page.map eventResponse, (page.getLast?.map RunEventRow.id).or query.afterId,
      decide (clamp 1 500 query.limit < rest.length)⟩ := by
  obtain ⟨run, -, hread⟩ := Fallible.bind_eq_ok.mp h
  dsimp only at hread
  split at hread
  · cases hread
  · rename_i rows hrows
    have hlimit : clamp 1 500 query.limit ≤ 500 := (clamp_bounds (by decide) _).2
    obtain rfl := listRunEvents_ok (Nat.le_add_left 1 _) (by omega) hrows
    obtain ⟨hmore, hcut⟩ := cut_page (clamp 1 500 query.limit)
      (behind RunEventRow.id query.afterId (eventsOf runId s))
    rw [hcut, hmore] at hread
    exact (Except.ok.inj hread).symm

/-- A client has the leading events of the run, and its cursor is the last of them. -/
def Caught (client : Client) (front rest : List RunEventRow) : Prop :=
  eventsOf runId client.store = front ++ rest ∧ client.received = front.map eventResponse ∧
    client.cursor = front.getLast?.map RunEventRow.id

variable {env auth runId}

theorem Caught.behind {client : Client} {front rest : List RunEventRow} (h : Caught runId client front rest) :
    Paging.behind RunEventRow.id client.cursor (eventsOf runId client.store) = rest := by
  have hascending : (eventsOf runId client.store).Pairwise (fun a b => a.id < b.id) :=
    client.store.events.ascending.filter _
  rw [h.1] at hascending ⊢
  rw [h.2.2, behind_last hascending]

theorem getLast?_append_map (front page : List RunEventRow) :
    ((front ++ page).getLast?.map RunEventRow.id) =
      (page.getLast?.map RunEventRow.id).or (front.getLast?.map RunEventRow.id) := by
  rw [List.getLast?_append]
  cases page.getLast? <;> rfl

theorem Caught.poll {client : Client} {front rest : List RunEventRow} (h : Caught runId client front rest)
    {limit : Nat} {faults : ReadFaults} {response : ListRunEventsResponse}
    (hresponse : httpGetRunEvents env auth runId ⟨client.cursor, limit⟩ faults client.store = .ok response) :
    Caught runId (receive client (.ok response)) (front ++ rest.take (clamp 1 500 limit))
      (rest.drop (clamp 1 500 limit)) := by
  have hpage := httpGetRunEvents_ok env auth runId hresponse
  dsimp only at hpage
  rw [h.behind] at hpage
  obtain ⟨hevents, hreceived, hcursor⟩ := h
  rw [hpage]
  refine ⟨?_, ?_, ?_⟩
  · rw [List.append_assoc, List.take_append_drop]
    exact hevents
  · rw [receive, hreceived, List.map_append]
  · rw [getLast?_append_map, ← hcursor]
    rfl

variable (runId) in
theorem eventsOf_append (s : EventStore) (gap : Nat) (row : RunEventRow) :
    ∃ more, eventsOf runId ⟨s.runs, appendEvent s.events gap row⟩ = eventsOf runId s ++ more :=
  ⟨_, List.filter_append ..⟩

theorem Caught.step {client : Client} {front rest : List RunEventRow} (h : Caught runId client front rest)
    (input : Input) : ∃ front' rest',
      Caught runId (EventPolling.step env auth runId client input).2 front' rest' := by
  cases input with
  | append gap row =>
      obtain ⟨more, hmore⟩ := eventsOf_append runId client.store gap row
      refine ⟨front, rest ++ more, ?_, h.2⟩
      rw [← List.append_assoc, ← h.1]
      exact hmore
  | poll limit faults =>
      cases hresponse : httpGetRunEvents env auth runId ⟨client.cursor, limit⟩ faults client.store with
      | ok response =>
          have hpoll := h.poll hresponse
          rw [← hresponse] at hpoll
          exact ⟨_, _, hpoll⟩
      | error e =>
          refine ⟨front, rest, ?_⟩
          rw [EventPolling.step, hresponse]
          exact h

def start (store : EventStore) : Client := ⟨store, none, []⟩

variable (env auth runId) in
theorem caught_run (store : EventStore) (inputs : List Input) :
    ∃ front rest, Caught runId (after (step env auth runId) (start store) inputs) front rest := by
  induction inputs using List.reverseRecOn with
  | nil => exact ⟨[], eventsOf runId store, rfl, rfl, rfl⟩
  | append_singleton inputs input ih =>
      obtain ⟨front, rest, h⟩ := ih
      rw [after_concat]
      exact h.step input

/-- What a client can conclude from a page. -/
structure PageLaw (rows : List RunEventRow) (cursor : Option Int) (response : ListRunEventsResponse) : Prop where
  more : response.hasMore = true ↔
    ∃ row ∈ rows, (∀ after ∈ cursor, after < row.id) ∧ eventResponse row ∉ response.events
  grows : ∀ after ∈ cursor, ∃ after' ∈ response.nextAfterId, after ≤ after'
  still : response.events = [] → response.nextAfterId = cursor

theorem eventResponse_inj {a b : RunEventRow} (h : eventResponse a = eventResponse b) : a = b := by
  cases a
  cases b
  simpa [eventResponse] using h

theorem mem_behind {rows : List RunEventRow} {cursor : Option Int} {row : RunEventRow} :
    row ∈ behind RunEventRow.id cursor rows ↔ row ∈ rows ∧ ∀ after ∈ cursor, after < row.id := by
  rw [behind, List.mem_filter]
  cases cursor <;> simp

theorem drop_ne_nil_iff {rest : List RunEventRow} (hrest : rest.Pairwise (fun a b => a.id < b.id)) (limit : Nat) :
    limit < rest.length ↔ ∃ row ∈ rest, eventResponse row ∉ (rest.take limit).map eventResponse := by
  constructor
  · intro hlt
    refine ⟨rest[limit], List.getElem_mem hlt, ?_⟩
    intro hmem
    obtain ⟨row, hrow, heq⟩ := List.mem_map.mp hmem
    have hsplit : rest.take limit ++ rest.drop limit = rest := List.take_append_drop ..
    rw [← hsplit, List.pairwise_append] at hrest
    have hid := hrest.2.2 row hrow rest[limit] (by rw [List.drop_eq_getElem_cons hlt]; exact List.mem_cons_self)
    rw [eventResponse_inj heq] at hid
    exact Int.lt_irrefl _ hid
  · rintro ⟨row, hrow, hnot⟩
    apply Nat.lt_of_not_le
    intro hle
    rw [List.take_of_length_le hle] at hnot
    exact hnot (List.mem_map_of_mem hrow)

theorem pageLaw {client : Client} {front rest : List RunEventRow} (h : Caught runId client front rest)
    {limit : Nat}
    {faults : ReadFaults} {response : ListRunEventsResponse}
    (hresponse : httpGetRunEvents env auth runId ⟨client.cursor, limit⟩ faults client.store = .ok response) :
    PageLaw (eventsOf runId client.store) client.cursor response := by
  have hpage := httpGetRunEvents_ok env auth runId hresponse
  dsimp only at hpage
  have hascending : (eventsOf runId client.store).Pairwise (fun a b => a.id < b.id) :=
    client.store.events.ascending.filter _
  have hbehind : ∀ row ∈ rest, row ∈ eventsOf runId client.store ∧
      ∀ after ∈ client.cursor, after < row.id := by
    intro row hrow
    rw [← h.behind] at hrow
    exact mem_behind.mp hrow
  rw [h.behind] at hpage
  have hrest : rest.Pairwise (fun a b => a.id < b.id) := by
    rw [h.1, List.pairwise_append] at hascending
    exact hascending.2.1
  have hpos : 0 < clamp 1 500 limit := (clamp_bounds (by decide) limit).1
  generalize clamp 1 500 limit = size at hpage hpos
  rw [hpage]
  refine ⟨?_, ?_, ?_⟩
  · apply decide_eq_true_iff.trans ((drop_ne_nil_iff hrest size).trans _)
    constructor
    · rintro ⟨row, hrow, hnot⟩
      exact ⟨row, (hbehind row hrow).1, (hbehind row hrow).2, hnot⟩
    · rintro ⟨row, hrow, hlater, hnot⟩
      refine ⟨row, ?_, hnot⟩
      rw [← h.behind]
      exact mem_behind.mpr ⟨hrow, hlater⟩
  · intro cursor hcursor
    cases hlast : (rest.take size).getLast? with
    | none => exact ⟨cursor, by simpa using hcursor, Int.le_refl _⟩
    | some row =>
        have hrow := hbehind row (List.mem_of_mem_take (List.mem_of_getLast? hlast))
        exact ⟨row.id, by simp, Int.le_of_lt (hrow.2 cursor hcursor)⟩
  · intro hnil
    rw [List.map_eq_nil_iff.mp hnil]
    rfl

def Input.isAnswered : Input → Bool
  | .poll _ faults => faults.getRun.isNone && faults.listEvents.isNone
  | .append _ _ => false

theorem answered {run : RunRow} {client : Client} (hopen : openRun env auth runId none client.store = .ok run)
    {limit : Nat} {faults : ReadFaults} (hfaults : Input.isAnswered (.poll limit faults) = true) :
    ∃ response, httpGetRunEvents env auth runId ⟨client.cursor, limit⟩ faults client.store = .ok response := by
  rw [Input.isAnswered, Bool.and_eq_true, Option.isNone_iff_eq_none, Option.isNone_iff_eq_none] at hfaults
  obtain ⟨hrun, hlist⟩ := hfaults
  rw [httpGetRunEvents, hrun, hopen, hlist]
  exact ⟨_, rfl⟩

theorem progress {run : RunRow} {client : Client} {front rest : List RunEventRow}
    (h : Caught runId client front rest) (hopen : openRun env auth runId none client.store = .ok run)
    (more : List Input) :
    min (front.length + rest.length) (front.length + more.countP Input.isAnswered) ≤
      (after (step env auth runId) client more).received.length := by
  induction more generalizing client front rest with
  | nil =>
      rw [after_nil, h.2.1, List.length_map]
      exact Nat.min_le_right _ _
  | cons input more ih =>
      rw [after_cons]
      cases input with
      | append gap row =>
          obtain ⟨new, hnew⟩ := eventsOf_append runId client.store gap row
          have hcaught : Caught runId (step env auth runId client (.append gap row)).2 front (rest ++ new) := by
            refine ⟨?_, h.2⟩
            rw [← List.append_assoc, ← h.1]
            exact hnew
          have hnext := ih hcaught hopen
          rw [List.length_append] at hnext
          rw [List.countP_cons_of_neg (by simp [Input.isAnswered])]
          omega
      | poll limit faults =>
          have hcount : (Input.poll limit faults :: more).countP Input.isAnswered ≤
              more.countP Input.isAnswered + 1 := by
            rw [List.countP_cons]
            split <;> omega
          have hpos : 0 < clamp 1 500 limit := (clamp_bounds (by decide) limit).1
          cases hresponse : httpGetRunEvents env auth runId ⟨client.cursor, limit⟩ faults client.store with
          | ok response =>
              have hstep : (step env auth runId client (.poll limit faults)).2 =
                  receive client (.ok response) := by
                rw [step, hresponse]
              have hnext := ih (h.poll hresponse) hopen
              rw [List.length_append, List.length_take, List.length_drop] at hnext
              rw [hstep]
              omega
          | error e =>
              have hstep : (step env auth runId client (.poll limit faults)).2 = client := by
                rw [step, hresponse]
                rfl
              have hunanswered : ¬ Input.isAnswered (.poll limit faults) = true := by
                intro hanswered
                obtain ⟨response, hok⟩ := answered hopen hanswered
                exact absurd (hresponse.symm.trans hok) (by simp)
              rw [hstep, List.countP_cons_of_neg hunanswered]
              exact ih h hopen

variable (env auth runId) in
theorem eventsOf_prefix (client : Client) (more : List Input) :
    eventsOf runId client.store <+: eventsOf runId (after (step env auth runId) client more).store := by
  induction more generalizing client with
  | nil => exact List.prefix_rfl
  | cons input more ih =>
      rw [after_cons]
      apply List.IsPrefix.trans _ (ih _)
      cases input with
      | append gap row =>
          obtain ⟨new, hnew⟩ := eventsOf_append runId client.store gap row
          exact ⟨new, hnew.symm⟩
      | poll limit faults =>
          cases hresponse : httpGetRunEvents env auth runId ⟨client.cursor, limit⟩ faults client.store with
          | ok response | error e =>
              rw [step, hresponse]
              exact List.prefix_rfl

variable (env auth runId) in
theorem run_runs (client : Client) (inputs : List Input) :
    (after (step env auth runId) client inputs).store.runs = client.store.runs := by
  induction inputs generalizing client with
  | nil => rfl
  | cons input inputs ih =>
      rw [after_cons, ih]
      cases input with
      | append gap row => rfl
      | poll limit faults =>
          cases hresponse : httpGetRunEvents env auth runId ⟨client.cursor, limit⟩ faults client.store with
          | ok response | error e =>
              rw [step, hresponse]
              rfl

variable (env auth runId)

/-- After any polls and appends a client has the leading events of the run, each
once and in the order of the ids, up to its cursor; every page tells whether
there is more and never takes the cursor back; and once there have been as many
further polls as events were missing, none of these is missing. -/
theorem polled (store : EventStore) (inputs : List Input) :
    (∃ front rest, Caught runId (after (step env auth runId) (start store) inputs) front rest) ∧
    (∀ limit faults response, httpGetRunEvents env auth runId
        ⟨(after (step env auth runId) (start store) inputs).cursor, limit⟩ faults
        (after (step env auth runId) (start store) inputs).store = .ok response →
      PageLaw (eventsOf runId (after (step env auth runId) (start store) inputs).store)
        (after (step env auth runId) (start store) inputs).cursor response) ∧
    (∀ run, openRun env auth runId none store = .ok run → ∀ more,
      (eventsOf runId (after (step env auth runId) (start store) inputs).store).length ≤
          (after (step env auth runId) (start store) inputs).received.length + more.countP Input.isAnswered →
      (eventsOf runId (after (step env auth runId) (start store) inputs).store).map eventResponse <+:
        (after (step env auth runId) (start store) (inputs ++ more)).received) := by
  obtain ⟨front, rest, h⟩ := caught_run env auth runId store inputs
  refine ⟨⟨front, rest, h⟩, fun limit faults response hresponse => pageLaw h hresponse, ?_⟩
  intro run hopen more hcount
  obtain ⟨front', rest', h'⟩ := caught_run env auth runId store (inputs ++ more)
  have hprefix := eventsOf_prefix env auth runId
    (after (step env auth runId) (start store) inputs) more
  have hruns := run_runs env auth runId (start store) inputs
  have hstill : openRun env auth runId none (after (step env auth runId) (start store) inputs).store =
      .ok run := by
    rw [← hopen, openRun, openRun, hruns]
    rfl
  have hprogress := progress h hstill more
  rw [← after_append, h'.1] at hprefix
  rw [h.1, h.2.1, List.length_map, List.length_append] at hcount
  rw [← after_append, h'.2.1, List.length_map] at hprogress
  rw [h'.2.1]
  apply List.IsPrefix.map
  apply List.prefix_of_prefix_length_le hprefix (List.prefix_append front' rest')
  rw [h.1, List.length_append]
  omega

def plainEvent : RunEventRow := ⟨0, "r", "info", "sdk", "epoch", none, none, "2026-01-01 00:00:00"⟩

theorem polled_three :
    (eventsOf "r" (after (step eventEnv (.devMode 0) "r") (start (chartBehind 1))
        [.poll 1 {}, .append 0 plainEvent]).store).map eventResponse <+:
      (after (step eventEnv (.devMode 0) "r") (start (chartBehind 1))
        ([.poll 1 {}, .append 0 plainEvent] ++ [.poll 1 {}, .poll 1 {}])).received :=
  (polled eventEnv (.devMode 0) "r" (chartBehind 1) [.poll 1 {}, .append 0 plainEvent]).2.2 runningRun rfl
    [.poll 1 {}, .poll 1 {}] (by decide)

end MLRunX.EventPolling
