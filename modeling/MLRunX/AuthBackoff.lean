import Mathlib.Algebra.Order.Group.Nat
import Mathlib.Data.List.Pairwise
import Mathlib.Logic.Function.Basic

namespace MLRunX.AuthBackoff

/-- Durations and instants are counted in nanoseconds. -/
structure AuthRateLimitConfig where
  enabled : Bool
  maxFailuresPerWindow : ℕ
  window : ℕ
  baseBackoff : ℕ
  maxBackoff : ℕ
  positive : 0 < maxFailuresPerWindow
  fits : maxFailuresPerWindow < 2 ^ 32

structure AuthRateLimitEntry where
  windowStartedAt : ℕ
  failuresInWindow : ℕ
  blockedUntil : Option ℕ
  deriving DecidableEq, Repr

def AuthRateLimitEntry.new (now : ℕ) : AuthRateLimitEntry := ⟨now, 0, none⟩

abbrev Entries := String → Option AuthRateLimitEntry

def second : ℕ := 10 ^ 9

def asSecs (duration : ℕ) : ℕ := duration / second

variable (config : AuthRateLimitConfig)

/-- What a known client is told, and what is kept of it. -/
def readEntry (now : ℕ) (entry : AuthRateLimitEntry) : Option ℕ × AuthRateLimitEntry :=
  if config.window < now - entry.windowStartedAt then (none, .new now)
  else match entry.blockedUntil with
    | none => (none, entry)
    | some deadline =>
        if now < deadline then (some (max (asSecs (deadline - now)) 1), entry)
        else (none, ⟨now, 0, none⟩)

def retryAfterSeconds (now : ℕ) (clientKey : String) (entries : Entries) : Option ℕ × Entries :=
  if !config.enabled || clientKey = "" then (none, entries)
  else match entries clientKey with
    | none => (none, entries)
    | some entry => ((readEntry config now entry).1,
        Function.update entries clientKey (some (readEntry config now entry).2))

def backoffSecs (failures : ℕ) : ℕ :=
  let exponent := min (failures - config.maxFailuresPerWindow) 16
  min (min (asSecs config.baseBackoff * 2 ^ exponent) (2 ^ 64 - 1)) (asSecs config.maxBackoff)

def backoff (failures : ℕ) : ℕ := backoffSecs config failures * second

def currentEntry (now : ℕ) (entry : AuthRateLimitEntry) : AuthRateLimitEntry :=
  if config.window < now - entry.windowStartedAt then .new now else entry

def countFailure (entry : AuthRateLimitEntry) : AuthRateLimitEntry :=
  { entry with failuresInWindow := min (entry.failuresInWindow + 1) (2 ^ 32 - 1) }

def blockEntry (now : ℕ) (entry : AuthRateLimitEntry) : AuthRateLimitEntry :=
  if config.maxFailuresPerWindow ≤ entry.failuresInWindow then
    { entry with blockedUntil := some (now + backoff config entry.failuresInWindow) }
  else entry

def failEntry (now : ℕ) (entry : AuthRateLimitEntry) : AuthRateLimitEntry :=
  blockEntry config now (countFailure (currentEntry config now entry))

def recordFailure (now : ℕ) (clientKey : String) (entries : Entries) : Entries :=
  if !config.enabled || clientKey = "" then entries
  else Function.update entries clientKey (some (failEntry config now ((entries clientKey).getD (.new now))))

inductive Call
  | recordFailure
  | retryAfterSeconds
  deriving DecidableEq, Repr

structure Request where
  now : ℕ
  client : String
  call : Call
  deriving DecidableEq, Repr

def perform (request : Request) (entries : Entries) : Option ℕ × Entries :=
  match request.call with
  | .recordFailure => (none, recordFailure config request.now request.client entries)
  | .retryAfterSeconds => retryAfterSeconds config request.now request.client entries

/-- A call, with what was kept of its client before and is kept after it. -/
structure Step where
  request : Request
  before : Option AuthRateLimitEntry
  after : Option AuthRateLimitEntry
  reply : Option ℕ
  deriving DecidableEq, Repr

def trace : Entries → List Request → List Step
  | _, [] => []
  | entries, request :: requests =>
      ⟨request, entries request.client, (perform config request entries).2 request.client,
        (perform config request entries).1⟩ :: trace (perform config request entries).2 requests

/-- A failure that blocks its client for a while. -/
def Sets (step : Step) (wait : ℕ) : Prop :=
  step.request.call = .recordFailure ∧ ∃ entry, step.after = some entry ∧
    config.maxFailuresPerWindow ≤ entry.failuresInWindow ∧ entry.blockedUntil = some (step.request.now + wait)

/-- While a block lasts its client is told to wait. -/
def Keeps (f r : Step) : Prop :=
  ∀ wait, Sets config f wait → r.request.client = f.request.client → r.request.call = .retryAfterSeconds →
    r.request.now < f.request.now + wait → ∃ seconds, r.reply = some seconds

/-- Within a window a later block is no shorter. -/
def Grows (f g : Step) : Prop :=
  ∀ wait wait', Sets config f wait → Sets config g wait' → g.request.client = f.request.client →
    g.after.map AuthRateLimitEntry.windowStartedAt = f.after.map AuthRateLimitEntry.windowStartedAt → wait ≤ wait'

/-- Who waits as long as told is blocked no more. -/
def Exact (r : Step) : Prop :=
  r.request.call = .retryAfterSeconds → ∀ seconds entry, r.reply = some seconds → r.after = some entry →
    (readEntry config (r.request.now + seconds * second) entry).1 = none

structure Honoured (steps : List Step) : Prop where
  bounded : ∀ f ∈ steps, ∀ wait, Sets config f wait → wait ≤ config.maxBackoff
  kept : steps.Pairwise (Keeps config)
  exact_hint : ∀ r ∈ steps, Exact config r
  growing : steps.Pairwise (Grows config)

/-- A call during a block comes before the window is over, and one that is told to wait has a
whole number of seconds left, or one at most, or waits until the window is over. -/
def Guarded (step : Step) : Prop :=
  ∀ entry deadline, step.before = some entry → entry.blockedUntil = some deadline →
    step.request.now < deadline →
    step.request.now - entry.windowStartedAt ≤ config.window ∧
      (step.request.call = .retryAfterSeconds →
        (deadline - step.request.now) % second = 0 ∨ deadline - step.request.now ≤ second ∨
          config.window <
            step.request.now + asSecs (deadline - step.request.now) * second - entry.windowStartedAt)

variable {config} {now now' wait deadline : ℕ} {entry : AuthRateLimitEntry} {entries : Entries} {client : String}

/-- What the entry of a client satisfies at a time. -/
structure Sound (config : AuthRateLimitConfig) (now : ℕ) (entry : AuthRateLimitEntry) : Prop where
  started : entry.windowStartedAt ≤ now
  counted : entry.failuresInWindow < 2 ^ 32
  quiet : entry.blockedUntil = none → entry.failuresInWindow < config.maxFailuresPerWindow
  blocked : ∀ deadline, entry.blockedUntil = some deadline →
    config.maxFailuresPerWindow ≤ entry.failuresInWindow ∧
    ∃ last, entry.windowStartedAt ≤ last ∧ last ≤ now ∧
      deadline = last + backoff config entry.failuresInWindow

theorem sound_new (config : AuthRateLimitConfig) (now : ℕ) : Sound config now (.new now) where
  started := le_rfl
  counted := Nat.two_pow_pos 32
  quiet := fun _ => config.positive
  blocked := by
    intro deadline h
    cases h

theorem Sound.later (h : Sound config now entry) (hle : now ≤ now') : Sound config now' entry where
  started := h.started.trans hle
  counted := h.counted
  quiet := h.quiet
  blocked := by
    intro deadline hdeadline
    obtain ⟨hmany, last, hstart, hlast, heq⟩ := h.blocked deadline hdeadline
    exact ⟨hmany, last, hstart, hlast.trans hle, heq⟩

theorem backoff_mono {failures failures' : ℕ} (h : failures ≤ failures') :
    backoff config failures ≤ backoff config failures' := by
  have hpow : 2 ^ min (failures - config.maxFailuresPerWindow) 16 ≤
      2 ^ min (failures' - config.maxFailuresPerWindow) 16 := Nat.pow_le_pow_right (by decide) (by omega)
  have hmul := Nat.mul_le_mul_left (asSecs config.baseBackoff) hpow
  apply Nat.mul_le_mul_right
  rw [backoffSecs, backoffSecs]
  omega

theorem backoff_le (config : AuthRateLimitConfig) (failures : ℕ) :
    backoff config failures ≤ config.maxBackoff := by
  have hle : backoffSecs config failures ≤ asSecs config.maxBackoff := min_le_right _ _
  calc backoff config failures ≤ asSecs config.maxBackoff * second := Nat.mul_le_mul_right _ hle
    _ ≤ config.maxBackoff := Nat.div_mul_le_self _ _

/-! What the calls do to the entry of their client. -/

theorem sound_readEntry (h : Sound config now entry) : Sound config now (readEntry config now entry).2 := by
  rw [readEntry]
  split
  · exact sound_new config now
  · split
    · exact h
    · split
      · exact h
      · exact sound_new config now

theorem sound_currentEntry (h : Sound config now entry) : Sound config now (currentEntry config now entry) := by
  rw [currentEntry]
  split
  · exact sound_new config now
  · exact h

theorem sound_failEntry (h : Sound config now entry) : Sound config now (failEntry config now entry) := by
  have h := sound_currentEntry h
  rw [failEntry]
  generalize currentEntry config now entry = current at h
  have hcount : (countFailure current).failuresInWindow < 2 ^ 32 := by
    rw [countFailure]
    dsimp only
    omega
  rw [blockEntry]
  split
  · rename_i hmany
    refine ⟨h.started, hcount, ?_, ?_⟩
    · intro hnone
      cases hnone
    · intro deadline hdeadline
      obtain rfl := Option.some.inj hdeadline
      exact ⟨hmany, now, h.started, le_rfl, rfl⟩
  · rename_i hfew
    refine ⟨h.started, hcount, fun _ => not_le.mp hfew, ?_⟩
    intro deadline hdeadline
    obtain ⟨hmany, -⟩ := h.blocked deadline hdeadline
    have hgrown : config.maxFailuresPerWindow ≤ (countFailure current).failuresInWindow := by
      have hfits := config.fits
      rw [countFailure]
      dsimp only
      omega
    exact absurd hgrown hfew

theorem readEntry_blocked (hblocked : entry.blockedUntil = some deadline) (hearly : now < deadline)
    (hwindow : now - entry.windowStartedAt ≤ config.window) :
    readEntry config now entry = (some (max (asSecs (deadline - now)) 1), entry) := by
  rw [readEntry, if_neg (not_lt.mpr hwindow), hblocked]
  exact if_pos hearly

theorem readEntry_late (hblocked : entry.blockedUntil = some deadline) (hlate : deadline ≤ now) :
    (readEntry config now entry).1 = none := by
  rw [readEntry, hblocked]
  split
  · rfl
  · simp only [if_neg (not_lt.mpr hlate)]

theorem readEntry_over (h : config.window < now - entry.windowStartedAt) :
    (readEntry config now entry).1 = none := by
  rw [readEntry, if_pos h]

theorem readEntry_told {seconds : ℕ} (h : (readEntry config now entry).1 = some seconds) :
    ∃ deadline, entry.blockedUntil = some deadline ∧ now < deadline ∧
      seconds = max (asSecs (deadline - now)) 1 ∧ (readEntry config now entry).2 = entry := by
  rw [readEntry] at h ⊢
  split at h
  · cases h
  · split at h
    · cases h
    · rename_i hwindow _ deadline hblocked
      split at h
      · rename_i hearly
        refine ⟨deadline, hblocked, hearly, (Option.some.inj h).symm, ?_⟩
        simp only [if_neg hwindow, if_pos hearly]
      · cases h

theorem failEntry_blocked (h : Sound config now entry) (hblocked : entry.blockedUntil = some deadline)
    (hwindow : now - entry.windowStartedAt ≤ config.window) :
    ∃ deadline', (failEntry config now entry).blockedUntil = some deadline' ∧ deadline ≤ deadline' := by
  obtain ⟨hmany, last, -, hlast, rfl⟩ := h.blocked deadline hblocked
  have hcounted := h.counted
  have hfits := config.fits
  have hgrown : entry.failuresInWindow ≤ (countFailure entry).failuresInWindow := by
    rw [countFailure]
    dsimp only
    omega
  refine ⟨now + backoff config (countFailure entry).failuresInWindow, ?_, ?_⟩
  · rw [failEntry, currentEntry, if_neg (not_lt.mpr hwindow), blockEntry, if_pos (hmany.trans hgrown)]
  · have hmono := @backoff_mono config _ _ hgrown
    omega

theorem failEntry_many (h : config.maxFailuresPerWindow ≤ (failEntry config now entry).failuresInWindow) :
    (failEntry config now entry).blockedUntil =
      some (now + backoff config (failEntry config now entry).failuresInWindow) := by
  rw [failEntry] at h ⊢
  generalize countFailure (currentEntry config now entry) = counted at h ⊢
  rw [blockEntry] at h ⊢
  split at h
  · rename_i hmany
    rw [if_pos hmany]
  · rename_i hfew
    exact absurd h hfew

/-- The entry of a client once a failure of a window has blocked it. -/
def Behind (config : AuthRateLimitConfig) (started failures : ℕ) (entry : AuthRateLimitEntry) : Prop :=
  backoff config failures = 0 ∨
    (entry.windowStartedAt = started ∧ failures ≤ entry.failuresInWindow) ∨ started < entry.windowStartedAt

variable {started failures : ℕ}

theorem Behind.started_le (h : Behind config started failures entry) :
    backoff config failures = 0 ∨ started ≤ entry.windowStartedAt := by
  rcases h with hzero | ⟨heq, -⟩ | hlt
  · exact .inl hzero
  · exact .inr heq.ge
  · exact .inr hlt.le

theorem behind_readEntry (hs : Sound config now entry) (h : Behind config started failures entry) :
    Behind config started failures (readEntry config now entry).2 := by
  rcases h.started_le with hzero | hle
  · exact .inl hzero
  · rw [readEntry]
    split
    · rename_i hover
      exact .inr (.inr (show started < now by omega))
    · split
      · exact h
      · rename_i deadline hblocked
        split
        · exact h
        · rename_i hlate
          obtain ⟨-, last, hstart, hlast, rfl⟩ := hs.blocked deadline hblocked
          rcases h with hzero | ⟨heq, hcount⟩ | hlt
          · exact .inl hzero
          · have hmono := @backoff_mono config _ _ hcount
            by_cases hnow : started < now
            · exact .inr (.inr hnow)
            · exact .inl (by omega)
          · exact .inr (.inr (show started < now by omega))

theorem behind_currentEntry (h : Behind config started failures entry) :
    Behind config started failures (currentEntry config now entry) := by
  rw [currentEntry]
  split
  · rename_i hover
    rcases h.started_le with hzero | hle
    · exact .inl hzero
    · exact .inr (.inr (show started < now by omega))
  · exact h

theorem behind_failEntry (hs : Sound config now entry) (h : Behind config started failures entry) :
    Behind config started failures (failEntry config now entry) := by
  have hsound := (sound_currentEntry hs).counted
  have hcurrent := @behind_currentEntry config now entry started failures h
  rw [failEntry]
  generalize currentEntry config now entry = current at hsound hcurrent
  have hcounted : Behind config started failures (countFailure current) := by
    rcases hcurrent with hzero | ⟨heq, hcount⟩ | hlt
    · exact .inl hzero
    · refine .inr (.inl ⟨heq, hcount.trans ?_⟩)
      rw [countFailure]
      dsimp only
      omega
    · exact .inr (.inr hlt)
  rw [blockEntry]
  split <;> exact hcounted

/-! The calls, over the entries of all clients. -/

def Settled (config : AuthRateLimitConfig) (now : ℕ) (entries : Entries) : Prop :=
  ∀ client entry, entries client = some entry →
    (!config.enabled || decide (client = "")) = false ∧ Sound config now entry

variable {request : Request} {requests : List Request}

theorem perform_recordFailure (hcall : request.call = .recordFailure) :
    perform config request entries = (none, recordFailure config request.now request.client entries) := by
  rw [perform, hcall]

theorem perform_retryAfter (hcall : request.call = .retryAfterSeconds) :
    perform config request entries = retryAfterSeconds config request.now request.client entries := by
  rw [perform, hcall]

theorem perform_closed (hclosed : (!config.enabled || decide (request.client = "")) = true) :
    perform config request entries = (none, entries) := by
  cases hcall : request.call with
  | recordFailure => rw [perform_recordFailure hcall, recordFailure, if_pos hclosed]
  | retryAfterSeconds => rw [perform_retryAfter hcall, retryAfterSeconds, if_pos hclosed]

theorem perform_unknown (hcall : request.call = .retryAfterSeconds) (hentry : entries request.client = none) :
    perform config request entries = (none, entries) := by
  rw [perform_retryAfter hcall, retryAfterSeconds, hentry]
  exact ite_self _

theorem perform_record (hopen : (!config.enabled || decide (request.client = "")) = false)
    (hcall : request.call = .recordFailure) :
    (perform config request entries).2 = Function.update entries request.client
      (some (failEntry config request.now ((entries request.client).getD (.new request.now)))) := by
  rw [perform_recordFailure hcall, recordFailure, if_neg (ne_true_of_eq_false hopen)]

theorem perform_retry (hopen : (!config.enabled || decide (request.client = "")) = false)
    (hcall : request.call = .retryAfterSeconds) (hentry : entries request.client = some entry) :
    perform config request entries = ((readEntry config request.now entry).1,
      Function.update entries request.client (some (readEntry config request.now entry).2)) := by
  rw [perform_retryAfter hcall, retryAfterSeconds, if_neg (ne_true_of_eq_false hopen), hentry]

theorem perform_other (h : client ≠ request.client) :
    (perform config request entries).2 client = entries client := by
  cases hopen : !config.enabled || decide (request.client = "") with
  | true => rw [perform_closed hopen]
  | false =>
      cases hcall : request.call with
      | recordFailure => rw [perform_record hopen hcall, Function.update_of_ne h]
      | retryAfterSeconds =>
          cases hentry : entries request.client with
          | none => rw [perform_unknown hcall hentry]
          | some entry =>
              rw [perform_retry hopen hcall hentry]
              exact Function.update_of_ne h _ _

theorem perform_known (h : Settled config request.now entries) (hentry : entries request.client = some entry) :
    ∃ after, (perform config request entries).2 request.client = some after ∧
      (after = failEntry config request.now entry ∨ after = (readEntry config request.now entry).2) := by
  obtain ⟨hopen, -⟩ := h _ _ hentry
  cases hcall : request.call with
  | recordFailure =>
      refine ⟨failEntry config request.now entry, ?_, .inl rfl⟩
      rw [perform_record hopen hcall, Function.update_self, hentry, Option.getD_some]
  | retryAfterSeconds =>
      refine ⟨(readEntry config request.now entry).2, ?_, .inr rfl⟩
      rw [perform_retry hopen hcall hentry]
      exact Function.update_self _ _ _

theorem settled_perform (h : Settled config request.now entries) :
    Settled config request.now (perform config request entries).2 := by
  intro client entry hentry
  by_cases hclient : client = request.client
  · subst hclient
    cases hbefore : entries request.client with
    | some before =>
        obtain ⟨hopen, hsound⟩ := h _ _ hbefore
        obtain ⟨after, hafter, heq⟩ := perform_known h hbefore
        obtain rfl := Option.some.inj (hentry.symm.trans hafter)
        rcases heq with rfl | rfl
        · exact ⟨hopen, sound_failEntry hsound⟩
        · exact ⟨hopen, sound_readEntry hsound⟩
    | none =>
        cases hclosed : !config.enabled || decide (request.client = "") with
        | true =>
            rw [perform_closed hclosed] at hentry
            cases hbefore.symm.trans hentry
        | false =>
            cases hcall : request.call with
            | recordFailure =>
                rw [perform_record hclosed hcall, Function.update_self, hbefore] at hentry
                obtain rfl := Option.some.inj hentry
                exact ⟨rfl, sound_failEntry (sound_new _ _)⟩
            | retryAfterSeconds =>
                rw [perform_unknown hcall hbefore] at hentry
                cases hbefore.symm.trans hentry
  · rw [perform_other hclient] at hentry
    exact h _ _ hentry

theorem Settled.later (h : Settled config now entries) (hle : now ≤ now') : Settled config now' entries :=
  fun client entry hentry => ⟨(h client entry hentry).1, (h client entry hentry).2.later hle⟩

/-! The runs: the entry of a client is followed from the call that blocked it. -/

theorem mem_trace {entries : Entries} {step : Step} (h : step ∈ trace config entries requests) :
    step.request ∈ requests := by
  induction requests generalizing entries with
  | nil => cases h
  | cons request requests ih =>
      rcases List.mem_cons.1 h with rfl | hrest
      · exact List.mem_cons_self
      · exact List.mem_cons_of_mem _ (ih hrest)

theorem Guarded.window {step : Step} (h : Guarded config step) (hbefore : step.before = some entry)
    (hblocked : entry.blockedUntil = some deadline) (hearly : step.request.now < deadline) :
    step.request.now - entry.windowStartedAt ≤ config.window :=
  (h entry deadline hbefore hblocked hearly).1

theorem perform_blocked (h : Settled config request.now entries) (hentry : entries request.client = some entry)
    (hblocked : entry.blockedUntil = some deadline) (hearly : request.now < deadline)
    (hwindow : request.now - entry.windowStartedAt ≤ config.window) :
    ∃ after deadline', (perform config request entries).2 request.client = some after ∧
      after.blockedUntil = some deadline' ∧ deadline ≤ deadline' := by
  obtain ⟨after, hafter, rfl | rfl⟩ := perform_known h hentry
  · obtain ⟨deadline', hlonger, hle⟩ := failEntry_blocked (h _ _ hentry).2 hblocked hwindow
    exact ⟨_, deadline', hafter, hlonger, hle⟩
  · refine ⟨_, deadline, hafter, ?_, le_rfl⟩
    rw [readEntry_blocked hblocked hearly hwindow]
    exact hblocked

theorem kept_blocked (h : Settled config now entries) (hentry : entries client = some entry)
    (hblocked : entry.blockedUntil = some deadline) {lifted : ℕ} (hle : lifted ≤ deadline)
    (hlater : ∀ request ∈ requests, now ≤ request.now)
    (hordered : requests.Pairwise (fun a b => a.now ≤ b.now))
    (hguard : ∀ step ∈ trace config entries requests, Guarded config step) :
    ∀ step ∈ trace config entries requests, step.request.client = client →
      step.request.call = .retryAfterSeconds → step.request.now < lifted →
        ∃ seconds, step.reply = some seconds := by
  induction requests generalizing now entries entry deadline with
  | nil =>
      intro step hstep
      cases hstep
  | cons request requests ih =>
      obtain ⟨hfirst, hrest⟩ := List.pairwise_cons.1 hordered
      have h := h.later (hlater request List.mem_cons_self)
      obtain ⟨hhead, htail⟩ := List.forall_mem_cons.1 hguard
      by_cases hover : lifted ≤ request.now
      · intro step hstep _ _ hearly
        rcases List.mem_cons.1 (mem_trace hstep) with heq | hmem
        · rw [heq] at hearly
          omega
        · have := hfirst _ hmem
          omega
      · have hafter : ∃ after deadline', (perform config request entries).2 client = some after ∧
            after.blockedUntil = some deadline' ∧ lifted ≤ deadline' := by
          by_cases hclient : client = request.client
          · subst hclient
            obtain ⟨after, deadline', hafter, hlonger, hmore⟩ := perform_blocked h hentry hblocked
              (show request.now < deadline by omega)
              (hhead.window hentry hblocked (show request.now < deadline by omega))
            exact ⟨after, deadline', hafter, hlonger, hle.trans hmore⟩
          · exact ⟨entry, deadline, (perform_other hclient).trans hentry, hblocked, hle⟩
        obtain ⟨after, deadline', hafter, hlonger, hmore⟩ := hafter
        intro step hstep hclient hcall hearly
        rcases List.mem_cons.1 hstep with rfl | hstep
        · subst hclient
          have hblock := readEntry_blocked hblocked (show request.now < deadline by omega)
            (hhead.window hentry hblocked (show request.now < deadline by omega))
          refine ⟨max (asSecs (deadline - request.now)) 1, ?_⟩
          rw [perform_retry (h _ _ hentry).1 hcall hentry, hblock]
        · exact ih (settled_perform h) hafter hlonger hmore hfirst hrest htail step hstep hclient hcall hearly

theorem grown_behind (h : Settled config now entries)
    (hentry : ∀ entry, entries client = some entry → Behind config started failures entry)
    (hknown : ∃ entry, entries client = some entry)
    (hlater : ∀ request ∈ requests, now ≤ request.now)
    (hordered : requests.Pairwise (fun a b => a.now ≤ b.now)) :
    ∀ step ∈ trace config entries requests, step.request.client = client →
      ∀ entry, step.after = some entry → Behind config started failures entry := by
  induction requests generalizing now entries with
  | nil =>
      intro step hstep
      cases hstep
  | cons request requests ih =>
      obtain ⟨hfirst, hrest⟩ := List.pairwise_cons.1 hordered
      have h := h.later (hlater request List.mem_cons_self)
      obtain ⟨before, hbefore⟩ := hknown
      have hafter : ∃ after, (perform config request entries).2 client = some after ∧
          Behind config started failures after := by
        by_cases hclient : client = request.client
        · subst hclient
          obtain ⟨after, hafter, rfl | rfl⟩ := perform_known h hbefore
          · exact ⟨_, hafter, behind_failEntry (h _ _ hbefore).2 (hentry _ hbefore)⟩
          · exact ⟨_, hafter, behind_readEntry (h _ _ hbefore).2 (hentry _ hbefore)⟩
        · exact ⟨before, (perform_other hclient).trans hbefore, hentry _ hbefore⟩
      obtain ⟨after, hafter, hbehind⟩ := hafter
      have hsame : ∀ entry, (perform config request entries).2 client = some entry →
          Behind config started failures entry := by
        intro entry heq
        obtain rfl := Option.some.inj (hafter.symm.trans heq)
        exact hbehind
      intro step hstep hclient
      rcases List.mem_cons.1 hstep with rfl | hstep
      · subst hclient
        exact hsame
      · exact ih (settled_perform h) hsame ⟨after, hafter⟩ hfirst hrest step hstep hclient

def stepOf (config : AuthRateLimitConfig) (entries : Entries) (request : Request) : Step :=
  ⟨request, entries request.client, (perform config request entries).2 request.client,
    (perform config request entries).1⟩

theorem trace_cons (config : AuthRateLimitConfig) (entries : Entries) (request : Request)
    (requests : List Request) :
    trace config entries (request :: requests) =
      stepOf config entries request :: trace config (perform config request entries).2 requests := rfl

theorem sets_stepOf (h : Settled config request.now entries)
    (hsets : Sets config (stepOf config entries request) wait) :
    ∃ entry, (perform config request entries).2 request.client = some entry ∧
      entry.blockedUntil = some (request.now + wait) ∧ wait = backoff config entry.failuresInWindow := by
  obtain ⟨hcall, entry, hafter, hmany, hblocked⟩ := hsets
  change request.call = .recordFailure at hcall
  change (perform config request entries).2 request.client = some entry at hafter
  change entry.blockedUntil = some (request.now + wait) at hblocked
  obtain ⟨hopen, -⟩ := settled_perform h _ _ hafter
  refine ⟨entry, hafter, hblocked, ?_⟩
  rw [perform_record hopen hcall, Function.update_self] at hafter
  obtain rfl := Option.some.inj hafter
  have heq := Option.some.inj (hblocked.symm.trans (failEntry_many hmany))
  omega

theorem exists_stepOf (h : Settled config now entries) (hlater : ∀ request ∈ requests, now ≤ request.now)
    (hordered : requests.Pairwise (fun a b => a.now ≤ b.now)) {step : Step}
    (hstep : step ∈ trace config entries requests) :
    ∃ request entries', Settled config request.now entries' ∧ step = stepOf config entries' request := by
  induction requests generalizing now entries with
  | nil => cases hstep
  | cons request requests ih =>
      obtain ⟨hfirst, hrest⟩ := List.pairwise_cons.1 hordered
      have h := h.later (hlater request List.mem_cons_self)
      rcases List.mem_cons.1 hstep with rfl | hstep
      · exact ⟨request, entries, h, rfl⟩
      · exact ih (settled_perform h) hfirst hrest hstep

theorem keeps_later (h : Settled config request.now entries)
    (hordered : (request :: requests).Pairwise (fun a b => a.now ≤ b.now))
    (hguard : ∀ step ∈ trace config (perform config request entries).2 requests, Guarded config step) :
    ∀ step ∈ trace config (perform config request entries).2 requests,
      Keeps config (stepOf config entries request) step := by
  obtain ⟨hfirst, hrest⟩ := List.pairwise_cons.1 hordered
  intro step hstep wait hsets
  obtain ⟨entry, hafter, hblocked, -⟩ := sets_stepOf h hsets
  exact kept_blocked (settled_perform h) hafter hblocked le_rfl hfirst hrest hguard step hstep

theorem grows_later (h : Settled config request.now entries)
    (hordered : (request :: requests).Pairwise (fun a b => a.now ≤ b.now)) :
    ∀ step ∈ trace config (perform config request entries).2 requests,
      Grows config (stepOf config entries request) step := by
  obtain ⟨hfirst, hrest⟩ := List.pairwise_cons.1 hordered
  intro step hstep wait wait' hsets hlater hclient hwindow
  obtain ⟨entry, hafter, -, rfl⟩ := sets_stepOf h hsets
  have hbehind : ∀ entry', (perform config request entries).2 request.client = some entry' →
      Behind config entry.windowStartedAt entry.failuresInWindow entry' := by
    intro entry' heq
    obtain rfl := Option.some.inj (hafter.symm.trans heq)
    exact .inr (.inl ⟨rfl, le_rfl⟩)
  have hrun := grown_behind (settled_perform h) hbehind ⟨entry, hafter⟩ hfirst hrest step hstep hclient
  obtain ⟨request', entries', h', rfl⟩ := exists_stepOf (settled_perform h) hfirst hrest hstep
  obtain ⟨entry', hafter', -, rfl⟩ := sets_stepOf h' hlater
  have hsame : entry'.windowStartedAt = entry.windowStartedAt := by
    have heq := hwindow
    simp only [stepOf, hafter, hafter', Option.map_some] at heq
    exact Option.some.inj heq
  rcases hrun entry' hafter' with hzero | ⟨-, hcount⟩ | hlt
  · rw [hzero]
    exact Nat.zero_le _
  · exact backoff_mono hcount
  · omega

theorem exact_stepOf (h : Settled config request.now entries)
    (hguard : Guarded config (stepOf config entries request)) :
    Exact config (stepOf config entries request) := by
  intro hcall seconds entry hreply hafter
  change request.call = .retryAfterSeconds at hcall
  change (perform config request entries).1 = some seconds at hreply
  change (perform config request entries).2 request.client = some entry at hafter
  cases hbefore : entries request.client with
  | none =>
      rw [perform_unknown hcall hbefore] at hreply
      cases hreply
  | some before =>
      rw [perform_retry (h _ _ hbefore).1 hcall hbefore] at hreply hafter
      change Function.update entries request.client _ request.client = some entry at hafter
      rw [Function.update_self] at hafter
      obtain ⟨deadline, hblocked, hearly, rfl, hsame⟩ := readEntry_told hreply
      obtain rfl := Option.some.inj ((congrArg some hsame).symm.trans hafter)
      obtain ⟨-, hwhole⟩ := hguard before deadline hbefore hblocked hearly
      have hwhole := hwhole hcall
      change (deadline - request.now) % second = 0 ∨ deadline - request.now ≤ second ∨
        config.window < request.now + asSecs (deadline - request.now) * second - before.windowStartedAt at hwhole
      change (readEntry config (request.now + max (asSecs (deadline - request.now)) 1 * second) before).1 = none
      have hlast : 1 * second ≤ max (asSecs (deadline - request.now)) 1 * second :=
        Nat.mul_le_mul_right _ (le_max_right _ _)
      have hfull : asSecs (deadline - request.now) * second ≤ max (asSecs (deadline - request.now)) 1 * second :=
        Nat.mul_le_mul_right _ (le_max_left _ _)
      have hdiv : (deadline - request.now) / second * second + (deadline - request.now) % second =
          deadline - request.now := Nat.div_add_mod' _ _
      rw [asSecs] at hlast hfull hwhole ⊢
      rcases hwhole with hzero | hshort | hover
      · exact readEntry_late hblocked (by omega)
      · exact readEntry_late hblocked (by omega)
      · exact readEntry_over (by omega)

theorem honoured_of_settled (h : Settled config now entries) (hlater : ∀ request ∈ requests, now ≤ request.now)
    (hordered : requests.Pairwise (fun a b => a.now ≤ b.now))
    (hguard : ∀ step ∈ trace config entries requests, Guarded config step) :
    Honoured config (trace config entries requests) := by
  induction requests generalizing now entries with
  | nil => exact ⟨by simp [trace], .nil, by simp [trace], .nil⟩
  | cons request requests ih =>
      have h := h.later (hlater request List.mem_cons_self)
      obtain ⟨hhead, htail⟩ := List.forall_mem_cons.1 hguard
      obtain ⟨hbounded, hkept, hexact, hgrowing⟩ :=
        ih (settled_perform h) (List.pairwise_cons.1 hordered).1 (List.pairwise_cons.1 hordered).2 htail
      rw [trace_cons]
      refine ⟨List.forall_mem_cons.2 ⟨?_, hbounded⟩,
        List.pairwise_cons.2 ⟨keeps_later h hordered htail, hkept⟩,
        List.forall_mem_cons.2 ⟨exact_stepOf h hhead, hexact⟩,
        List.pairwise_cons.2 ⟨grows_later h hordered, hgrowing⟩⟩
      intro wait hsets
      obtain ⟨entry, -, -, rfl⟩ := sets_stepOf h hsets
      exact backoff_le config _

/-- In every run whose calls are guarded the back-off is honoured. -/
theorem backoff_honoured (config : AuthRateLimitConfig) (requests : List Request)
    (hordered : requests.Pairwise (fun a b => a.now ≤ b.now))
    (hguard : ∀ step ∈ trace config (fun _ => none) requests, Guarded config step) :
    Honoured config (trace config (fun _ => none) requests) := by
  have hempty : Settled config 0 (fun _ => none) := by
    intro client entry hentry
    cases hentry
  exact honoured_of_settled hempty (fun _ _ => Nat.zero_le _) hordered hguard

def defaultConfig : AuthRateLimitConfig where
  enabled := true
  maxFailuresPerWindow := 10
  window := 60 * second
  baseBackoff := 5 * second
  maxBackoff := 300 * second
  positive := Nat.succ_pos 9
  fits := Nat.lt_of_lt_of_le (Nat.lt_succ_self 10) (Nat.le_of_ble_eq_true rfl)

def failuresAt (now : ℕ) (n : ℕ) : List Request := List.replicate n ⟨now, "10.0.0.1", .recordFailure⟩

def retryAt (now : ℕ) : Request := ⟨now, "10.0.0.1", .retryAfterSeconds⟩

def replies (requests : List Request) : List (Option ℕ) :=
  (trace defaultConfig (fun _ => none) requests).map Step.reply

def lastFailure : Step where
  request := ⟨0, "10.0.0.1", .recordFailure⟩
  before := some ⟨0, 15, some (160 * second)⟩
  after := some ⟨0, 16, some (300 * second)⟩
  reply := none

def liftedRetry : Step where
  request := retryAt (61 * second)
  before := some ⟨0, 16, some (300 * second)⟩
  after := some ⟨61 * second, 0, none⟩
  reply := none

/-- Told half a second into a block to wait four seconds, a client that does is told to wait again;
and a block of five minutes is lifted once the minute of its window is over. -/
theorem backoff_broken :
    ¬ (∀ r ∈ trace defaultConfig (fun _ => none) (failuresAt 0 10 ++ [retryAt (second / 2)]),
        Exact defaultConfig r) ∧
      ¬ (trace defaultConfig (fun _ => none) (failuresAt 0 16 ++ [retryAt (61 * second)])).Pairwise
        (Keeps defaultConfig) := by
  constructor
  · intro h
    have hexact := h ⟨retryAt (second / 2), some ⟨0, 10, some (5 * second)⟩,
      some ⟨0, 10, some (5 * second)⟩, some 4⟩
      (by decide +kernel)
    exact absurd (hexact rfl 4 _ rfl rfl) (by decide +kernel)
  · intro h
    have hkeeps : Keeps defaultConfig lastFailure liftedRetry :=
      List.pairwise_iff_forall_sublist.1 h (by decide +kernel)
    obtain ⟨seconds, hreply⟩ := hkeeps (300 * second) ⟨rfl, _, rfl, by decide, by decide⟩ rfl rfl (by decide)
    cases hreply

theorem whole_seconds_honoured :
    Honoured defaultConfig
      (trace defaultConfig (fun _ => none) (failuresAt 0 12 ++ [retryAt (3 * second), retryAt (20 * second)])) ∧
      replies (failuresAt 0 12 ++ [retryAt (3 * second), retryAt (20 * second)]) =
        List.replicate 12 none ++ [some 17, none] := by
  refine ⟨backoff_honoured defaultConfig _ (by decide +kernel) ?_, by decide +kernel⟩
  have hall : (trace defaultConfig (fun _ => none)
      (failuresAt 0 12 ++ [retryAt (3 * second), retryAt (20 * second)])).all
      (fun step => step.before.all fun entry => entry.blockedUntil.all fun deadline =>
        !decide (step.request.now < deadline) ||
          (decide (step.request.now - entry.windowStartedAt ≤ 60 * second) &&
            decide ((deadline - step.request.now) % second = 0))) = true := by decide +kernel
  intro step hstep entry deadline hbefore hblocked hearly
  have h := List.all_eq_true.1 hall step hstep
  rw [hbefore, Option.all_some, hblocked, Option.all_some] at h
  simp only [Bool.or_eq_true, Bool.and_eq_true, decide_eq_true_eq, Bool.not_eq_true', decide_eq_false_iff_not] at h
  rcases h with hnot | ⟨hwindow, hwhole⟩
  · exact absurd hearly hnot
  · exact ⟨hwindow, fun _ => .inl hwhole⟩

end MLRunX.AuthBackoff
