import MLRunX.CivilDates
import MLRunX.KeyCreation

namespace MLRunX.KeyExpiry

open Auth Fallible Http KeyCreation

/-- A time of the system clock: seconds in a machine word, and the nanoseconds behind them. -/
structure SystemTime where
  sec : Int
  nanos : Nat
  sec_ge : -9223372036854775808 ≤ sec
  sec_lt : sec < 9223372036854775808
  nanos_lt : nanos < 1000000000

def SystemTime.nanoseconds (t : SystemTime) : Int := t.sec * 1000000000 + t.nanos

def unixEpoch : SystemTime where
  sec := 0
  nanos := 0
  sec_ge := Int.negSucc_le_zero _
  sec_lt := Int.natCast_pos.mpr (Nat.zero_lt_succ _)
  nanos_lt := Nat.zero_lt_succ _

inductive Panic
  | durationOverflow
  | noSuchTime
  deriving DecidableEq, Repr

theorem sec_ge_add (t : SystemTime) (secs : Nat) : -9223372036854775808 ≤ t.sec + secs :=
  Int.le_trans t.sec_ge (Int.le_add_of_nonneg_right (Int.natCast_nonneg secs))

theorem sec_lt_sub (t : SystemTime) (secs : Nat) : t.sec - secs < 9223372036854775808 :=
  Int.lt_of_le_of_lt (Int.sub_le_self _ (Int.natCast_nonneg secs)) t.sec_lt

def addDuration (t : SystemTime) (secs : Nat) : Except Panic SystemTime :=
  if h : t.sec + secs < 9223372036854775808 then .ok ⟨t.sec + secs, t.nanos, sec_ge_add t secs, h, t.nanos_lt⟩
  else .error .durationOverflow

def checkedSub (t : SystemTime) (secs : Nat) : Option SystemTime :=
  if h : -9223372036854775808 ≤ t.sec - secs then some ⟨t.sec - secs, t.nanos, h, sec_lt_sub t secs, t.nanos_lt⟩
  else none

/-- How the calendar library writes a time in whole seconds, for the table and for the
answer, and reads it. -/
structure Chrono where
  format : Int → String
  parse : String → Option Int
  formatResponse : Int → String

def minTimestamp : Int := -8334601228800

def maxTimestamp : Int := 8210266876799

structure Chrono.Lawful (C : Chrono) : Prop where
  parse_format : ∀ timestamp, minTimestamp ≤ timestamp → timestamp ≤ maxTimestamp →
    C.parse (C.format timestamp) = some timestamp

/-- The conversion to a calendar time keeps the seconds, and panics out of its range. -/
def dateTime (t : SystemTime) : Except Panic Int :=
  if minTimestamp ≤ t.sec ∧ t.sec ≤ maxTimestamp then .ok t.sec else .error .noSuchTime

structure Expiry where
  expiresAt : SystemTime
  stored : String
  response : String

variable (C : Chrono)

def createExpiry (now : SystemTime) (secs : Nat) : Except Panic Expiry := do
  let expiresAt ← addDuration now secs
  let stored ← C.format <$> dateTime expiresAt
  let response ← C.formatResponse <$> dateTime expiresAt
  .ok ⟨expiresAt, stored, response⟩

def parseSqliteDatetime (value : String) : Option SystemTime := do
  let timestamp ← C.parse value
  if 0 ≤ timestamp then (addDuration unixEpoch timestamp.toNat).toOption
  else checkedSub unixEpoch timestamp.natAbs

structure ValidityColumns where
  revokedAt : Option String
  expiresAt : Option String

def isValid (revokedAt expiresAt : Option SystemTime) (now : SystemTime) : Bool :=
  if revokedAt.isSome then false
  else expiresAt.all (fun expiresAt => !decide (expiresAt.nanoseconds ≤ now.nanoseconds))

/-- What becomes of a row that was found, for a key whose hash was verified or not. -/
def validateRow (verified : Bool) (row : ValidityColumns) (now : SystemTime) : Bool :=
  if row.revokedAt.isSome then false
  else if !verified then false
  else isValid (row.revokedAt.bind (parseSqliteDatetime C)) (row.expiresAt.bind (parseSqliteDatetime C)) now

/-- The expiry is computed without a panic, and what is stored of it ends the life of the
key within a second of the time asked for. -/
def Faithful (now : SystemTime) (secs : Nat) : Prop :=
  ∃ expiry, createExpiry C now secs = .ok expiry ∧ ∀ t : SystemTime,
    (now.nanoseconds + (secs + 1) * 1000000000 < t.nanoseconds →
      validateRow C true ⟨none, some expiry.stored⟩ t = false) ∧
    (t.nanoseconds < now.nanoseconds + (secs - 1) * 1000000000 →
      validateRow C true ⟨none, some expiry.stored⟩ t = true)

def InCalendar (now : SystemTime) (secs : Nat) : Prop :=
  minTimestamp ≤ now.sec + secs ∧ now.sec + secs ≤ maxTimestamp

variable {C}

theorem dateTime_ok {t : SystemTime} {timestamp : Int} :
    dateTime t = .ok timestamp ↔ (minTimestamp ≤ t.sec ∧ t.sec ≤ maxTimestamp) ∧ t.sec = timestamp := by
  rw [dateTime]
  by_cases h : minTimestamp ≤ t.sec ∧ t.sec ≤ maxTimestamp
  · rw [if_pos h, Except.ok.injEq]
    exact (and_iff_right h).symm
  · rw [if_neg h]
    constructor
    · intro heq
      cases heq
    · intro heq
      exact absurd heq.1 h

theorem addDuration_ok {t t' : SystemTime} {secs : Nat} (h : addDuration t secs = .ok t') :
    t'.sec = t.sec + secs ∧ t'.nanos = t.nanos := by
  rw [addDuration] at h
  split at h
  · obtain rfl := Except.ok.inj h
    exact ⟨rfl, rfl⟩
  · cases h

theorem inCalendar_of_created {now : SystemTime} {secs : Nat} {expiry : Expiry}
    (h : createExpiry C now secs = .ok expiry) : InCalendar now secs := by
  obtain ⟨expiresAt, hadd, h⟩ := bind_eq_ok.mp h
  obtain ⟨stored, hstored, -⟩ := bind_eq_ok.mp h
  cases hdate : dateTime expiresAt with
  | error e =>
      rw [hdate] at hstored
      cases hstored
  | ok timestamp =>
      have hrange := (dateTime_ok.mp hdate).1
      rw [(addDuration_ok hadd).1] at hrange
      exact hrange

theorem createExpiry_ok {now : SystemTime} {secs : Nat} (h : InCalendar now secs) :
    ∃ expiresAt, expiresAt.sec = now.sec + secs ∧ createExpiry C now secs =
      .ok ⟨expiresAt, C.format (now.sec + secs), C.formatResponse (now.sec + secs)⟩ := by
  have hword : now.sec + secs < 9223372036854775808 := by
    have := h.2
    simp only [maxTimestamp] at this
    omega
  have hadd : addDuration now secs = .ok ⟨now.sec + secs, now.nanos, sec_ge_add now secs, hword, now.nanos_lt⟩ :=
    dif_pos hword
  have hdate : dateTime ⟨now.sec + secs, now.nanos, sec_ge_add now secs, hword, now.nanos_lt⟩ =
    .ok (now.sec + secs) :=
    dateTime_ok.mpr ⟨h, rfl⟩
  refine ⟨⟨now.sec + secs, now.nanos, sec_ge_add now secs, hword, now.nanos_lt⟩, rfl, ?_⟩
  simp only [createExpiry, hadd, bind, Except.bind, hdate]
  rfl

theorem parse_stored (hC : C.Lawful) {timestamp : Int} (hlow : minTimestamp ≤ timestamp)
    (hhigh : timestamp ≤ maxTimestamp) : ∃ t, parseSqliteDatetime C (C.format timestamp) = some t ∧
      t.nanoseconds = timestamp * 1000000000 := by
  rw [parseSqliteDatetime, hC.parse_format timestamp hlow hhigh]
  simp only [minTimestamp, maxTimestamp] at hlow hhigh
  by_cases hpos : 0 ≤ timestamp
  · have hword : unixEpoch.sec + timestamp.toNat < 9223372036854775808 := by
      simp only [unixEpoch]
      omega
    refine ⟨⟨unixEpoch.sec + timestamp.toNat, 0, sec_ge_add _ _, hword, Nat.zero_lt_succ _⟩, ?_, ?_⟩
    · rw [Option.bind_eq_bind, Option.bind_some, if_pos hpos, addDuration, dif_pos hword]
      rfl
    · simp only [SystemTime.nanoseconds, unixEpoch]
      omega
  · have hword : -9223372036854775808 ≤ unixEpoch.sec - timestamp.natAbs := by
      simp only [unixEpoch]
      omega
    refine ⟨⟨unixEpoch.sec - timestamp.natAbs, 0, hword, sec_lt_sub _ _, Nat.zero_lt_succ _⟩, ?_, ?_⟩
    · rw [Option.bind_eq_bind, Option.bind_some, if_neg hpos, checkedSub, dif_pos hword]
      rfl
    · simp only [SystemTime.nanoseconds, unixEpoch]
      omega

theorem validateRow_unrevoked {value : String} {expiresAt : SystemTime}
    (h : parseSqliteDatetime C value = some expiresAt) (now : SystemTime) :
    validateRow C true ⟨none, some value⟩ now = !decide (expiresAt.nanoseconds ≤ now.nanoseconds) := by
  simp [validateRow, isValid, h]

theorem inCalendar_of_faithful {now : SystemTime} {secs : Nat} (h : Faithful C now secs) :
    InCalendar now secs := by
  obtain ⟨expiry, hcreated, -⟩ := h
  exact inCalendar_of_created hcreated

theorem faithful_of_inCalendar (hC : C.Lawful) {now : SystemTime} {secs : Nat} (h : InCalendar now secs) :
    Faithful C now secs := by
  obtain ⟨expiresAt, -, hcreated⟩ := createExpiry_ok (C := C) h
  obtain ⟨stored, hparse, hstored⟩ := parse_stored hC h.1 h.2
  have hnanos := now.nanos_lt
  have hnow : now.nanoseconds = now.sec * 1000000000 + now.nanos := rfl
  refine ⟨_, hcreated, fun t => ⟨fun hlate => ?_, fun hearly => ?_⟩⟩
  · rw [validateRow_unrevoked hparse, Bool.not_eq_false', decide_eq_true_iff]
    omega
  · rw [validateRow_unrevoked hparse, Bool.not_eq_true', decide_eq_false_iff_not]
    omega

theorem uiKeyTarget_ttl {settings : Settings} {auth : AuthContext} {req : CreateKeyRequest} {scopes : List String}
    {target : KeyTarget} (h : uiKeyTarget settings auth req scopes = .ok target) :
    ∃ secs, target.expiresInSeconds = some secs ∧ secs ≤ uiKeyMaxTtlSeconds settings.uiKeyMaxTtlSeconds := by
  obtain ⟨_, -, h⟩ := bind_eq_ok.mp h
  split at h
  · cases h
  · obtain ⟨_, -, h⟩ := bind_eq_ok.mp h
    obtain ⟨_, -, h⟩ := bind_eq_ok.mp h
    obtain ⟨secs, hsecs, h⟩ := bind_eq_ok.mp h
    obtain ⟨_, -, h⟩ := bind_eq_ok.mp h
    obtain rfl := Except.ok.inj h
    refine ⟨secs, rfl, ?_⟩
    simp only [resolveUiKeyTtlSeconds] at hsecs
    split at hsecs
    · cases hsecs
    · split at hsecs
      · cases hsecs
      · split at hsecs
        · cases hsecs
        · obtain rfl := Except.ok.inj hsecs
          exact Nat.le_of_not_lt ‹_›

theorem ui_faithful (hC : C.Lawful) {settings : Settings} {auth : AuthContext} {req : CreateKeyRequest}
    {scopes : List String} {target : KeyTarget} (h : uiKeyTarget settings auth req scopes = .ok target)
    {now : SystemTime} (hnow : minTimestamp ≤ now.sec)
    (hpolicy : InCalendar now (uiKeyMaxTtlSeconds settings.uiKeyMaxTtlSeconds)) :
    ∃ secs, target.expiresInSeconds = some secs ∧ Faithful C now secs := by
  obtain ⟨secs, hsecs, hle⟩ := uiKeyTarget_ttl h
  have hlast := hpolicy.2
  refine ⟨secs, hsecs, faithful_of_inCalendar hC ⟨?_, ?_⟩⟩
  · omega
  · omega

/-- A life is kept to within a second just when it ends within the calendar. -/
theorem faithful_iff (C : Chrono) (hC : C.Lawful) (now : SystemTime) (secs : Nat) :
    Faithful C now secs ↔ InCalendar now secs :=
  ⟨inCalendar_of_faithful, faithful_of_inCalendar hC⟩

def responseOf (text : String) : String :=
  String.ofList (text.toList.map (fun c => if c = ' ' then 'T' else c) ++ ['Z'])

def gregorian : Chrono where
  format := CivilDates.format
  parse text := (CivilDates.parse text).filter (fun s => decide (minTimestamp ≤ s ∧ s ≤ maxTimestamp))
  formatResponse timestamp := responseOf (CivilDates.format timestamp)

theorem gregorian_lawful : gregorian.Lawful where
  parse_format timestamp hlow hhigh := by
    change (CivilDates.parse (CivilDates.format timestamp)).filter _ = _
    rw [CivilDates.parse_format, Option.filter_some, if_pos (decide_eq_true ⟨hlow, hhigh⟩)]

def newYear : SystemTime where
  sec := 1735689600
  nanos := 500000000
  sec_ge := by omega
  sec_lt := by omega
  nanos_lt := by omega

theorem faithful_iff_day : Faithful gregorian newYear 86400 ↔ InCalendar newYear 86400 :=
  faithful_iff gregorian gregorian_lawful newYear 86400

def globalAdmin : ApiKey := ⟨"k", "h", "k", none, none, none, ["admin"], 0, none, none, none⟩

theorem largest_word_panics : ¬∀ settings auth req scopes target secs now,
    keyTarget settings auth req = .ok (scopes, target) → target.expiresInSeconds = some secs → secs < 2 ^ 64 →
      Faithful gregorian now secs := by
  intro h
  have hfaithful := h allTiers (.ofApiKey globalAdmin) ⟨none, none, ["read"], some 18446744073709551615⟩ ["read"]
    ⟨none, none, some 18446744073709551615, none⟩ 18446744073709551615 newYear (by rfl) rfl (by omega)
  have hrange := (inCalendar_of_faithful hfaithful).2
  simp only [newYear, maxTimestamp] at hrange
  omega

end MLRunX.KeyExpiry
